import OwlTap.Jtag.Tracking

/-!
# The batched DR path

`shiftDRRepeat` makes `count` equal DR scans with few USB transfers: it encodes the way
to SHIFT-DR, the shift and the way back itself, always from RUN-TEST/IDLE, and unpacks
the answers of up to 512 scans at a time.
-/

namespace OwlTap.Jtag

open OwlTap Ftdi

/-! ### The commands -/

/-- The commands of one scan: RUN_TEST_IDLE → SHIFT_DR, the bits, EXIT1_DR → RUN_TEST_IDLE. -/
def repeatCommands (tdi : Ptr) (drBits : ℕ) (cmd : MpsseCommandBuffer) : Option MpsseCommandBuffer :=
  let toShift := computeTmsPath .runTestIdle .shiftDr
  let toIdle := computeTmsPath .exit1Dr .runTestIdle
  (scanCommands tdi drBits true (cmd.clockTms toShift.1 toShift.2 false false)).map fun cmd =>
    cmd.clockTms toIdle.1 toIdle.2 false false

/-- The commands of `n` scans. -/
def batchCommands (tdi : Ptr) (drBits : ℕ) : ℕ → MpsseCommandBuffer → Option MpsseCommandBuffer
  | 0, cmd => some cmd
  | n + 1, cmd => (repeatCommands tdi drBits cmd).bind (batchCommands tdi drBits n)

/-! ### Unpacking -/

/-- Unpack the last bit of a scan, and go on with the bytes that follow. -/
def unpackLast (drBits : ℕ) (out : List Byte) : List Byte → Except (String × List Byte) (List Byte × List Byte)
  | [] => .error ("shiftDRRepeat: TDO underrun (last)", out)
  | b :: raw =>
    .ok (if b.getLsbD 7 then out.modify ((drBits - 1) / 8) (· ||| 1#8 <<< ((drBits - 1) % 8)) else out, raw)

/-- Unpack the TDO of one scan from the start of `raw`, into zeros: the scan's bytes and the
raw bytes that follow, or an error and what was unpacked before it. -/
def unpackScan (drBits : ℕ) (raw : List Byte) : Except (String × List Byte) (List Byte × List Byte) :=
  let bulkBytes := (drBits - 1) / 8
  let bulkRemaining := (drBits - 1) % 8
  let bytesPer := (drBits + 7) / 8
  if bulkBytes > 0 ∧ bulkBytes > raw.length then
    .error ("shiftDRRepeat: TDO underrun (bulk)", List.replicate bytesPer 0)
  else
    let out := raw.take bulkBytes ++ List.replicate (bytesPer - bulkBytes) 0
    if bulkRemaining > 0 then
      match raw.drop bulkBytes with
      | [] => .error ("shiftDRRepeat: TDO underrun (partial)", out)
      | b :: raw => unpackLast drBits (orByte out bulkBytes bulkRemaining (b >>> (8 - bulkRemaining))) raw
    else unpackLast drBits out (raw.drop bulkBytes)

/-- Unpack the TDO of `n` scans. -/
def unpackBatch (drBits : ℕ) : ℕ → List Byte → Except (String × List Byte) (List Byte)
  | 0, _ => .ok []
  | n + 1, raw =>
    match unpackScan drBits raw with
    | .error e => .error e
    | .ok (out, raw) =>
      match unpackBatch drBits n raw with
      | .error (msg, outs) => .error (msg, out ++ outs)
      | .ok outs => .ok (out ++ outs)

namespace TapController

variable {σ : Type} (T : Target σ)

/-- The loop over batches of up to `kChunk = 512` scans: `left` scans are to be made, and `out`
holds the bytes of those made; `fuel` bounds the batches. -/
def repeatLoop (drBits : ℕ) (tdi : Ptr) :
    (fuel left : ℕ) → List Byte → Method (TapController σ) (Bool × List Byte)
  | 0, _, out => pure (true, out)
  | fuel + 1, left, out => fun c =>
    if left = 0 then some ((true, out), c)
    else
      let n := min 512 left
      (batchCommands tdi drBits n {}).bind fun cmd =>
        (exchange T cmd.sendImmediate c).bind fun ((ok, raw), c) =>
          if ok then
            match unpackBatch drBits n raw with
            | .error (msg, outs) => some ((false, out ++ outs), { c with lastError := msg })
            | .ok outs => repeatLoop drBits tdi fuel (left - n) (out ++ outs) c
          else some ((false, out), c)

/-- Perform `count` identical DR scans of `drBits` bits, batched. -/
def shiftDRRepeat (count drBits : ℕ) (tdi : Ptr) : Method (TapController σ) (Bool × List Byte) := do
  if count = 0 ∨ drBits = 0 then pure (true, [])
  else
    let (ok, out) ← repeatLoop T drBits tdi count count []
    if ok then
      setState .runTestIdle
      pure (true, out)
    else pure (false, out ++ List.replicate (count * ((drBits + 7) / 8) - out.length) 0)

/-- The plain path: as many `shiftDR` calls one after the other, their bytes put together. -/
def shiftDRTimes (drBits : ℕ) (tdi : Ptr) : ℕ → Method (TapController σ) (Bool × List Byte)
  | 0 => pure (true, [])
  | count + 1 => do
    let (ok, tdo) ← shiftDR T tdi [] drBits
    if ok then
      let (ok, rest) ← shiftDRTimes drBits tdi count
      pure (ok, tdo ++ rest)
    else pure (false, tdo)

end TapController

/-! ### What a batch does -/

/-- Unpacking a reply gives the samples, packed, and leaves what follows it. -/
theorem unpackScan_reply {r : List Bool} {raw : List Byte} (h : IsReply r raw) (rest : List Byte) :
    unpackScan r.length (raw ++ rest) = .ok (packBits r, rest) := by
  obtain ⟨q, x, s₁, s₂, rfl, rfl⟩ := h
  obtain ⟨k, hk⟩ : ∃ k, k = q.length / 8 := ⟨_, rfl⟩
  obtain ⟨m, hm⟩ : ∃ m, m = q.length % 8 := ⟨_, rfl⟩
  have hA : (packBits (q.take (8 * k))).length = k := by simp [bytesFor]; omega
  have hassemble := assemble_eq q x s₁ hk hm rfl
  rw [← hk, ← hm]
  generalize packBits (q.take (8 * k)) = A at hA hassemble ⊢
  have hlen : (q ++ [x]).length - 1 = q.length := by simp
  have hlen' : ((q ++ [x]).length + 7) / 8 - k = 1 := by simp; omega
  have htake : ∀ b : List Byte, (A ++ b).take k = A := fun b => by rw [← hA, List.take_left]
  have hdrop : ∀ b : List Byte, (A ++ b).drop k = b := fun b => by rw [← hA, List.drop_left]
  rw [unpackScan]
  simp only [hlen, ← hk, ← hm, hlen', List.append_assoc, htake, hdrop]
  rw [if_neg (by simp [hA])]
  by_cases h0 : 0 < m
  · simp only [gt_iff_lt, h0, if_true] at hassemble ⊢
    simp only [List.singleton_append, unpackLast, getLsbD_readByte_singleton, hlen, ← hk, ← hm]
    exact congrArg (fun o => Except.ok (o, rest)) hassemble
  · simp only [gt_iff_lt, h0, if_false] at hassemble ⊢
    simp only [List.nil_append, List.singleton_append, unpackLast, getLsbD_readByte_singleton, hlen, ← hk, ← hm]
    exact congrArg (fun o => Except.ok (o, rest)) hassemble

/-- The states from which the way to SHIFT-DR is the one from RUN-TEST/IDLE. -/
def RepeatStart (s : TapState) : Prop := s = .runTestIdle ∨ s = .updateDr ∨ s = .updateIr

instance (s : TapState) : Decidable (RepeatStart s) := inferInstanceAs (Decidable (_ ∨ _))

theorem RepeatStart.tmsPath {s : TapState} (h : RepeatStart s) :
    tmsPath s .shiftDr = tmsPath .runTestIdle .shiftDr := by
  rcases h with rfl | rfl | rfl <;> decide +kernel

/-- The pins of one scan of a batch: those of a plain scan from RUN-TEST/IDLE. -/
def repeatPins (buf : List Byte) (n : ℕ) : List Pins := TapController.scanTrack .runTestIdle .dr buf n

/-- The pins of `count` scans. -/
def batchPins (buf : List Byte) (n count : ℕ) : List Pins := (List.replicate count (repeatPins buf n)).flatten

theorem batchPins_succ (buf : List Byte) (n count : ℕ) :
    batchPins buf n (count + 1) = repeatPins buf n ++ batchPins buf n count := rfl

theorem batchPins_add (buf : List Byte) (n a b : ℕ) :
    batchPins buf n (a + b) = batchPins buf n a ++ batchPins buf n b := by
  rw [batchPins, List.replicate_add, List.flatten_append]; rfl

variable {σ : Type} (T : Target σ)

/-- What the hardware answers to the bits of one scan of a batch. -/
def repeatSamples (p : Port σ) (buf : List Byte) (n : ℕ) : List Bool :=
  ((p.run T (pathPins .runTestIdle .shiftDr)).cycles T (scanPins buf n)).map Cycle.tdo

/-- What the hardware answers to the bits of `count` scans, each packed. -/
def repeatResult (buf : List Byte) (n : ℕ) : ℕ → Port σ → List Byte
  | 0, _ => []
  | count + 1, p => packBits (repeatSamples T p buf n) ++ repeatResult buf n count (p.run T (repeatPins buf n))

theorem repeatResult_add (buf : List Byte) (n a b : ℕ) (p : Port σ) :
    repeatResult T buf n (a + b) p = repeatResult T buf n a p ++ repeatResult T buf n b (p.run T (batchPins buf n a)) := by
  induction a generalizing p with
  | zero => simp [repeatResult, batchPins]
  | succ a ih =>
    rw [Nat.add_right_comm, repeatResult, ih, repeatResult, List.append_assoc, batchPins_succ, Port.run_append]

variable {T}

theorem length_repeatSamples (p : Port σ) (buf : List Byte) {n : ℕ} (hn : 1 ≤ n) :
    (repeatSamples T p buf n).length = n := by
  rw [repeatSamples, List.length_map, Port.length_cycles, length_scanPins _ hn]

/-- One scan of a batch is a string of whole commands: a reply to its samples comes back. -/
theorem runs_repeatCommands {buf : List Byte} {n : ℕ} (hn : 1 ≤ n) (hb : bytesFor n ≤ buf.length)
    (c : MpsseCommandBuffer) :
    ∃ bs ms, repeatCommands (some buf) n c = some (c.append bs (replyLength n)) ∧ bs ≠ [] ∧
      (∀ t, Runs t bs false ms) ∧ pinsOf ms = repeatPins buf n ∧
      ∀ sr (p : Port σ), IsReply (repeatSamples T p buf n)
        (answers sr ms ((p.cycles T (repeatPins buf n)).map Cycle.tdo)).2 := by
  obtain ⟨b₁, e₁, -, h₁⟩ := runs_path (show TapState.runTestIdle ≠ .shiftDr by decide) c
  obtain ⟨b₂, m₂, e₂, h₂, hp₂, ha₂⟩ := runs_scanCommands hn hb true (c.append b₁ 0)
  obtain ⟨b₃, e₃, hne, h₃⟩ := runs_path (show TapState.exit1Dr ≠ .runTestIdle by decide)
    ((c.append b₁ 0).append b₂ (replyLength n))
  rw [computeTmsPath_last (by decide) (.inl rfl)] at h₁
  rw [show (computeTmsPath .exit1Dr .runTestIdle).1.getLsbD ((computeTmsPath .exit1Dr .runTestIdle).2 - 1) = false by
    decide +kernel] at h₃
  refine ⟨b₁ ++ (b₂ ++ b₃), _, ?_, by simp [hne], fun t => (h₁ t).append (h₂.append (h₃ true)), ?_, ?_⟩
  · rw [repeatCommands, e₁, e₂, if_pos rfl, Option.map_some, e₃]
    simp [MpsseCommandBuffer.append]
  · rw [pinsOf_append, pinsOf_append, pinsOf_map_clk, pinsOf_map_clk, hp₂]; rfl
  · intro sr p
    have hreply := ha₂ sr (repeatSamples T p buf n) (length_repeatSamples p buf hn)
    rw [if_pos rfl] at hreply
    rw [repeatPins, TapController.scanTrack, Port.cycles_append, Port.cycles_append, List.map_append,
      List.map_append, answers_append _ _ _ _ _ (by rw [pinsOf_map_clk]; simp [Register.shift]), answers_silent,
      answers_append _ _ _ _ _ (by rw [hp₂]; simp), answers_silent, List.append_nil, List.nil_append]
    exact hreply

/-- A batch is a string of whole commands, and unpacking what comes back gives the samples of
its scans, packed. -/
theorem runs_batchCommands {buf : List Byte} {n : ℕ} (hn : 1 ≤ n) (hb : bytesFor n ≤ buf.length) (count : ℕ)
    (c : MpsseCommandBuffer) :
    ∃ bs ms, batchCommands (some buf) n count c = some (c.append bs (count * replyLength n)) ∧
      (∀ t, Runs t bs (if count = 0 then t else false) ms) ∧ pinsOf ms = batchPins buf n count ∧
      ∀ sr (p : Port σ) rest,
        (answers sr ms ((p.cycles T (batchPins buf n count)).map Cycle.tdo)).2.length = count * replyLength n ∧
        unpackBatch n count ((answers sr ms ((p.cycles T (batchPins buf n count)).map Cycle.tdo)).2 ++ rest) =
          .ok (repeatResult T buf n count p) := by
  induction count generalizing c with
  | zero =>
    refine ⟨[], [], by simp [batchCommands, MpsseCommandBuffer.append], fun t => Runs.nil t, rfl, fun sr p rest => ?_⟩
    exact ⟨by simp [answers], rfl⟩
  | succ count ih =>
    obtain ⟨b₁, m₁, e₁, -, h₁, hp₁, ha₁⟩ := runs_repeatCommands (T := T) hn hb c
    obtain ⟨b₂, m₂, e₂, h₂, hp₂, ha₂⟩ := ih (c.append b₁ (replyLength n))
    refine ⟨b₁ ++ b₂, m₁ ++ m₂, ?_, fun t => ?_, ?_, fun sr p rest => ?_⟩
    · rw [batchCommands, e₁, Option.bind_some, e₂]
      simp only [MpsseCommandBuffer.append, Nat.succ_mul, List.append_assoc]
      rw [Nat.add_assoc, Nat.add_comm (replyLength n)]
    · have := (h₁ t).append (h₂ false)
      simpa using this
    · rw [pinsOf_append, hp₁, hp₂, batchPins_succ]
    · have hreply := ha₁ sr p
      rw [batchPins_succ, Port.cycles_append, List.map_append,
        answers_append _ _ _ _ _ (by rw [hp₁]; simp)]
      obtain ⟨hl, hu⟩ := ha₂ (answers sr m₁ ((p.cycles T (repeatPins buf n)).map Cycle.tdo)).1
        (p.run T (repeatPins buf n)) rest
      have hr := length_repeatSamples (T := T) p buf hn
      refine ⟨by rw [List.length_append, hreply.length, hl, hr, Nat.succ_mul, Nat.add_comm], ?_⟩
      have hscan := unpackScan_reply hreply ((answers (answers sr m₁ ((p.cycles T (repeatPins buf n)).map
        Cycle.tdo)).1 m₂ (((p.run T (repeatPins buf n)).cycles T (batchPins buf n count)).map Cycle.tdo)).2 ++ rest)
      rw [hr] at hscan
      rw [unpackBatch, List.append_assoc, hscan]
      simp only [hu, repeatResult]

namespace TapController

/-- The transfer of a batch. -/
theorem exchange_batch {c : TapController σ} {t : Bool} {buf : List Byte} {n count : ℕ} (hn : 1 ≤ n)
    (hb : bytesFor n ≤ buf.length) (hcount : count ≠ 0) (hw : c.device.Waits t) (hc : c.device.NoCut)
    (hq : c.device.Quiet) :
    ∃ cmd ok raw d e, batchCommands (some buf) n count {} = some cmd ∧
      exchange T cmd.sendImmediate c = some ((ok, raw), { c with device := d, lastError := e }) ∧
      d.Waits false ∧ FtdiDevice.Clocked T c.device d (batchPins buf n count) ∧
      d.outcomes = c.device.outcomes.tail ∧
      (ok = true → unpackBatch n count raw = .ok (repeatResult T buf n count c.device.link.port) ∧ e = c.lastError) ∧
      (c.device.Delivers → ok = true) := by
  obtain ⟨bs, ms, e, hr, hp, ha⟩ := runs_batchCommands (T := T) hn hb count {}
  obtain ⟨hl, hu⟩ := ha c.device.link.sr c.device.link.port []
  rw [← hp] at hl hu
  have hr' : Runs t (MpsseCommandBuffer.append {} bs (count * replyLength n)).sendImmediate.buffer false ms := by
    have := (hr t).append (runs_sendImmediate _)
    simpa [hcount, MpsseCommandBuffer.sendImmediate] using this
  obtain ⟨ok, raw, d, et, hw', hcl, ho, hok, hdel⟩ := FtdiDevice.transfer_quiet (T := T) hw
    (by simp [MpsseCommandBuffer.sendImmediate]) hr'
    (hl.trans (by simp [MpsseCommandBuffer.sendImmediate, MpsseCommandBuffer.append])) hc hq
  rw [hp] at hcl
  refine ⟨_, ok, raw, d, _, e, by rw [exchange, et]; rfl, hw', hcl, ho, fun h => ⟨?_, if_pos h⟩, hdel⟩
  rw [List.append_nil] at hu
  rw [hok h]
  exact hu

/-- The loop over the batches, when no command byte is lost and no answer comes late: it makes
whole scans; all of them if it succeeds, and then it returns what the hardware answered. -/
theorem repeatLoop_spec {c : TapController σ} {t : Bool} {buf : List Byte} {n : ℕ} (hn : 1 ≤ n)
    (hb : bytesFor n ≤ buf.length) (fuel : ℕ) {left : ℕ} (hf : left ≤ fuel) (out : List Byte)
    (hw : c.device.Waits t) (hc : c.device.NoCut) (hq : c.device.Quiet) :
    ∃ ok out' k d e, repeatLoop T n (some buf) fuel left out c =
        some ((ok, out'), { c with device := d, lastError := e }) ∧
      d.Waits (if k = 0 then t else false) ∧ FtdiDevice.Clocked T c.device d (batchPins buf n k) ∧
      (left ≠ 0 → k ≠ 0) ∧
      (ok = true → k = left ∧ out' = out ++ repeatResult T buf n left c.device.link.port ∧ e = c.lastError) ∧
      (c.device.Delivers → ok = true ∧ d.Delivers) := by
  induction fuel generalizing c t left out with
  | zero =>
    obtain rfl : left = 0 := by omega
    exact ⟨true, out, 0, c.device, c.lastError, rfl, hw, .refl _, fun h => absurd rfl h,
      fun _ => ⟨rfl, by simp [repeatResult], rfl⟩, fun h => ⟨rfl, h⟩⟩
  | succ fuel ih =>
    by_cases h0 : left = 0
    · subst h0
      exact ⟨true, out, 0, c.device, c.lastError, rfl, hw, .refl _, fun h => absurd rfl h,
        fun _ => ⟨rfl, by simp [repeatResult], rfl⟩, fun h => ⟨rfl, h⟩⟩
    · -- one batch
      obtain ⟨m, hm⟩ : ∃ m, m = min 512 left := ⟨_, rfl⟩
      have hm0 : m ≠ 0 := by omega
      obtain ⟨cmd, ok, raw, d, e, hcmd, hex, hw', hcl, ho, hok, hdel⟩ :=
        exchange_batch (T := T) hn hb hm0 hw hc hq
      have hloop : repeatLoop T n (some buf) (fuel + 1) left out c =
          if ok then
            match unpackBatch n m raw with
            | .error (msg, outs) => some ((false, out ++ outs), { c with device := d, lastError := msg })
            | .ok outs => repeatLoop T n (some buf) fuel (left - m) (out ++ outs)
                { c with device := d, lastError := e }
          else some ((false, out), { c with device := d, lastError := e }) := by
        rw [repeatLoop]
        simp only [h0, if_false, ← hm, hcmd, Option.bind_some, hex]
      have hw'' : d.Waits (if m = 0 then t else false) := by rw [if_neg hm0]; exact hw'
      cases ok with
      | false =>
        refine ⟨false, out, m, d, e, by rw [hloop]; rfl, hw'', hcl, fun _ => hm0, nofun,
          fun h => absurd (hdel h) (by decide)⟩
      | true =>
        obtain ⟨hu, rfl⟩ := hok rfl
        obtain ⟨ok₂, out₂, k₂, d₂, e₂, h₂, hw₂, hcl₂, -, hok₂, hdel₂⟩ := ih
          (c := { c with device := d }) (t := false) (show left - m ≤ fuel by omega)
          (out ++ repeatResult T buf n m c.device.link.port) hw' (hc.of_outcomes ho) (hq.of_outcomes ho)
        refine ⟨ok₂, out₂, m + k₂, d₂, e₂, ?_, ?_, ?_, fun _ => by omega, fun h => ?_, fun h => ?_⟩
        · rw [hloop, if_pos rfl, hu]; exact h₂
        · rw [if_neg (by omega)]
          simpa using hw₂
        · rw [batchPins_add]; exact hcl.trans hcl₂
        · obtain ⟨rfl, rfl, rfl⟩ := hok₂ h
          refine ⟨by omega, ?_, rfl⟩
          rw [List.append_assoc, show left = m + (left - m) by omega, repeatResult_add, Nat.add_sub_cancel_left,
            hcl.port]
        · exact hdel₂ (h.of_outcomes ho)

/-- A batched call, when no command byte is lost and no answer comes late. -/
theorem shiftDRRepeat_spec {c : TapController σ} {t : Bool} {buf : List Byte} {n count : ℕ} (hn : 1 ≤ n)
    (hb : bytesFor n ≤ buf.length) (hcount : count ≠ 0) (hw : c.device.Waits t) (hc : c.device.NoCut)
    (hq : c.device.Quiet) :
    ∃ ok out k d e, shiftDRRepeat T count n (some buf) c =
        some ((ok, out), ⟨d, if ok then .runTestIdle else c.state, e⟩) ∧
      d.Waits false ∧ FtdiDevice.Clocked T c.device d (batchPins buf n k) ∧ k ≠ 0 ∧
      (ok = true → k = count ∧ out = repeatResult T buf n count c.device.link.port) ∧
      (c.device.Delivers → ok = true ∧ d.Delivers) := by
  obtain ⟨ok, out, k, d, e, he, hw', hcl, hne, hok, hdel⟩ :=
    repeatLoop_spec (T := T) hn hb count (le_refl count) [] hw hc hq
  have hk : k ≠ 0 := hne hcount
  rw [if_neg hk] at hw'
  have hcall : shiftDRRepeat T count n (some buf) c = (do
      if ok then
        setState .runTestIdle
        pure (true, out)
      else pure (false, out ++ List.replicate (count * ((n + 7) / 8) - out.length) 0) :
        Method (TapController σ) (Bool × List Byte)) { c with device := d, lastError := e } := by
    rw [shiftDRRepeat, if_neg (by omega), Method.bind_of_eq _ he]
  cases ok with
  | false => exact ⟨false, _, k, d, e, hcall, hw', hcl, hk, nofun, fun h => absurd (hdel h).1 (by decide)⟩
  | true =>
    obtain ⟨rfl, rfl, -⟩ := hok rfl
    exact ⟨true, _, k, d, e, hcall, hw', hcl, hk, fun _ => ⟨rfl, rfl⟩, hdel⟩

/-! ### Null TDI -/

theorem batchCommands_none {n : ℕ} (hn : 1 ≤ n ∧ n ≤ 8) (count : ℕ) (c : MpsseCommandBuffer) :
    batchCommands none n count c = batchCommands (some [0]) n count c := by
  induction count generalizing c with
  | zero => rfl
  | succ count ih =>
    have : batchCommands none n count = batchCommands (some [0]) n count := funext ih
    rw [batchCommands, batchCommands, repeatCommands, repeatCommands, scanCommands_none hn, this]

/-- Up to 8 bits, a null pointer shifts zeros. -/
theorem shiftDRRepeat_none {n : ℕ} (hn : 1 ≤ n ∧ n ≤ 8) (count : ℕ) :
    shiftDRRepeat T count n none = shiftDRRepeat T count n (some [0]) := by
  have hloop : ∀ fuel left out, repeatLoop T n none fuel left out = repeatLoop T n (some [0]) fuel left out := by
    intro fuel
    induction fuel with
    | zero => exact fun _ _ => rfl
    | succ fuel ih =>
      intro left out
      funext c
      simp only [repeatLoop, batchCommands_none hn, ih]
  rw [shiftDRRepeat, shiftDRRepeat, hloop]

/-- From 9 bits on, a null pointer is followed. -/
theorem shiftDRRepeat_none_eq_none {n count : ℕ} (hn : 9 ≤ n) (hcount : count ≠ 0) (c : TapController σ) :
    shiftDRRepeat T count n none c = none := by
  obtain ⟨k, rfl⟩ : ∃ k, count = k + 1 := ⟨count - 1, by omega⟩
  obtain ⟨m, hm⟩ : ∃ m, min 512 (k + 1) = m + 1 := ⟨min 512 (k + 1) - 1, by omega⟩
  have hloop : repeatLoop T n none (k + 1) (k + 1) [] c = none := by
    rw [repeatLoop]
    simp only [Nat.add_one_ne_zero, if_false, hm, batchCommands, repeatCommands, scanCommands_none_eq_none hn,
      Option.map_none, Option.bind_none]
  rw [shiftDRRepeat, if_neg (by omega)]
  show (repeatLoop T n none (k + 1) (k + 1) [] c).bind _ = none
  rw [hloop, Option.bind_none]

/-! ### The plain path -/

end TapController

end OwlTap.Jtag
