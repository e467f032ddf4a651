import OwlTap.Jtag.Runs
import OwlTap.Jtag.ShiftDRRepeat

/-!
# Scans that fail

When the answer to a scan comes short, the scan's cycles have been clocked all the
same. `doShift` returns before the host notes that the TAP has left the SHIFT state, so
the host loses track; the batched path keeps it, because there the TAP is back in
RUN-TEST/IDLE by the time the answer is missed.
-/

namespace OwlTap.Jtag

open OwlTap Ftdi

variable {σ : Type} {T : Target σ}

/-! ### One scan -/

namespace TapController

/-- A shift whose answer comes short fails, but its bits have been clocked, and what arrives
late stays in the queue. -/
theorem doShift_short {c : TapController σ} {buf : List Byte} {n got late : ℕ} (hn : 1 ≤ n)
    (hb : bytesFor n ≤ buf.length) (hw : c.device.Waits false)
    (ho : c.device.outcomes.headD .whole = .short got late) (hg : got < replyLength n) :
    ∃ d e raw, doShift T (some buf) [] n true c = some ((false, []), { c with device := d, lastError := e }) ∧
      FtdiDevice.Clocked T c.device d (scanPins buf n) ∧ IsReply (scanSamples T c.device buf n) raw ∧
      d.link.rx = (raw.drop got).take late := by
  obtain ⟨cmd, ms, e, hr, hne, hp, hx, ha⟩ := runs_doShift hn hb true
  have ha := ha c.device.link.sr (scanSamples T c.device buf n) (length_scanSamples _ _ hn)
  simp only [if_true] at ha hx
  have hl : (answers c.device.link.sr ms (c.device.samples T (pinsOf ms))).2.length = cmd.expectedReadBytes := by
    rw [hp, ← scanSamples, hx, ha.length, length_scanSamples _ _ hn]
  obtain ⟨raw, d, et, -, -, -, hrx, hc, -⟩ := FtdiDevice.transfer_short hw hr hne hl ho (by rw [hx]; exact hg)
  rw [hp] at hc hrx
  obtain ⟨cmd', e', rfl⟩ := Option.map_eq_some_iff.mp e
  have hex : exchange T cmd'.sendImmediate c =
      some ((false, raw), { c with device := d, lastError := d.lastError }) := by
    rw [exchange, et]; rfl
  refine ⟨d, d.lastError, _, ?_, hc, ha, hrx⟩
  rw [doShift, if_neg (by omega), e', Option.bind_some, if_pos rfl, hex]
  rfl

/-- A scan whose answer comes short leaves the hardware in EXIT1 and the host in SHIFT. -/
theorem scan_short {c : TapController σ} (reg : Register) {buf : List Byte} {n got late : ℕ} (hn : 1 ≤ n)
    (hb : bytesFor n ≤ buf.length) (hs : c.Synced) (hd : c.device.NoCut)
    (ho : (c.device.outcomes.drop (if c.state = reg.shift then 0 else 1)).headD .whole = .short got late)
    (hg : got < replyLength n) :
    ∃ c', scan T reg (some buf) [] n true c = some ((false, []), c') ∧
      c'.state = reg.shift ∧ c'.device.link.port.state = reg.exit1 := by
  obtain ⟨d₁, t₁, e₁, hw₁, ht₁, hc₁, ho₁⟩ := gotoState_spec (T := T) reg.shift hs hd
  obtain rfl := ht₁ reg.isShift_shift
  have hs₁ := gotoState_synced hs (Fits.of_ne _ (by cases reg <;> decide)) hw₁ ht₁ hc₁
  obtain ⟨d₂, e, raw, e₂, hc₂, -⟩ := doShift_short (T := T) (c := ⟨d₁, reg.shift, c.lastError⟩) hn hb hw₁
    (by rw [← ho, ← ho₁]) hg
  refine ⟨⟨d₂, reg.shift, e⟩, ?_, rfl, by rw [hc₂.state, hs₁.state, run_scanPins]⟩
  rw [scan, if_neg (by omega), Method.bind_of_eq _ e₁, if_pos rfl, Method.bind_of_eq _ e₂]
  rfl

end TapController

/-! ### Runs in which scans may fail -/

/-- A call on the controller. -/
inductive Call where
  | op (op : Op)
  | shiftDRRepeat (count drBits : ℕ) (tdi : Ptr)

namespace Call

/-- The call, with the TDO bytes it returns. -/
def exec (T : Target σ) : Call → Method (TapController σ) (Bool × List Byte)
  | op o => o.exec T
  | shiftDRRepeat count drBits tdi => TapController.shiftDRRepeat T count drBits tdi

end Call

/-- One step of a run: a call, what the USB does with its transfers, and what came of it. -/
structure Event (σ : Type) where
  /-- Before. -/
  before : TapController σ
  /-- The call. -/
  call : Call
  /-- What the USB does with the transfers of the call. -/
  outcomes : List Outcome
  /-- Whether the call succeeded. -/
  ok : Bool
  /-- The TDO bytes it returned. -/
  tdo : List Byte
  /-- After. -/
  after : TapController σ

/-- The controller, with the USB's plans for the transfers to come. -/
def TapController.withOutcomes (c : TapController σ) (os : List Outcome) : TapController σ :=
  { c with device := { c.device with outcomes := os } }

/-- A run of calls, successful or not. -/
inductive Calls (T : Target σ) : TapController σ → List (Event σ) → Prop where
  /-- No call. -/
  | nil (c : TapController σ) : Calls T c []
  /-- A call, and a run from there. -/
  | cons {e : Event σ} {run : List (Event σ)} :
      e.call.exec T (e.before.withOutcomes e.outcomes) = some ((e.ok, e.tdo), e.after) →
      Calls T e.after run → Calls T e.before (e :: run)

namespace Event

/-- Every command byte of the call reaches the chip. -/
def Delivered (e : Event σ) : Prop := (e.before.withOutcomes e.outcomes).device.NoCut

/-- The call keeps clear of the defects: its path fits; if it is a scan that reads, its bits all
come back; if it is a batch, it starts in RUN-TEST/IDLE and what comes short never comes, or it
starts where a batch may and nothing comes short. -/
def Clear (e : Event σ) : Prop :=
  match e.call with
  | .op o => o.Fits e.before.state ∧ o.Answered (e.before.withOutcomes e.outcomes)
  | .shiftDRRepeat count _ _ => count = 0 ∨
      e.before.state = .runTestIdle ∧ (e.before.withOutcomes e.outcomes).device.Quiet ∨
      RepeatStart e.before.state ∧ (e.before.withOutcomes e.outcomes).device.Delivers

/-- The link is in step: after the call the host's state is the hardware's; and if the call was a
scan that succeeded, it shifted its own bits in its SHIFT state and no others, ended in
RUN-TEST/IDLE and returned what was sampled there and then. -/
def Sound (e : Event σ) : Prop :=
  e.after.device.link.port.state = e.after.state ∧
    ∀ o a, e.call = .op o → o.scanArgs = some a → e.ok = true →
      ∃ new, e.after.device.link.trace = e.before.device.link.trace ++ new ∧
        ScanShape a.reg a.bits e.before.state (new.map Cycle.state) ∧
        (new.filter (·.state = a.reg.shift)).map Cycle.tdi = bits a.buf a.bits ∧
        (a.read = true → e.tdo = packBits ((new.filter (·.state = a.reg.shift)).map Cycle.tdo)) ∧
        e.after.state = .runTestIdle

end Event

/-- In a scan's track the SHIFT state is where the bits are. -/
theorem filter_scanTrack (p : Port σ) (reg : Register) (buf : List Byte) {n : ℕ} (hn : 1 ≤ n) :
    (p.cycles T (TapController.scanTrack p.state reg buf n)).filter (·.state = reg.shift) =
      (p.run T (pathPins p.state reg.shift)).cycles T (scanPins buf n) := by
  have hshift : (p.run T (pathPins p.state reg.shift)).state = reg.shift := by
    rw [Port.state_run, map_tms_pathPins, run_tmsPath, if_pos (Fits.of_ne _ (by cases reg <;> decide))]
  have hexit : ((p.run T (pathPins p.state reg.shift)).run T (scanPins buf n)).state = reg.exit1 := by
    rw [Port.state_run, hshift, TapController.run_scanPins]
  have hnone : ∀ cs : List Cycle, reg.shift ∉ cs.map Cycle.state → cs.filter (·.state = reg.shift) = [] := by
    intro cs h
    rw [List.filter_eq_nil_iff]
    intro c hc hs
    exact h (List.mem_map.mpr ⟨c, hc, of_decide_eq_true hs⟩)
  have hway : (p.cycles T (pathPins p.state reg.shift)).filter (·.state = reg.shift) = [] := by
    refine hnone _ ?_
    rw [Port.map_state_cycles, map_tms_pathPins]
    exact shift_notMem_tmsPath _ reg
  have hbits : ((p.run T (pathPins p.state reg.shift)).cycles T (scanPins buf n)).filter (·.state = reg.shift) =
      (p.run T (pathPins p.state reg.shift)).cycles T (scanPins buf n) := by
    rw [List.filter_eq_self]
    intro c hc
    have := List.mem_map_of_mem (f := Cycle.state) hc
    rw [Port.map_state_cycles, hshift, TapController.visits_scanPins reg.isShift_shift _ hn] at this
    exact decide_eq_true (List.eq_of_mem_replicate this)
  have hback : (((p.run T (pathPins p.state reg.shift)).run T (scanPins buf n)).cycles T
      (pathPins reg.exit1 .runTestIdle)).filter (·.state = reg.shift) = [] := by
    refine hnone _ ?_
    rw [Port.map_state_cycles, hexit, map_tms_pathPins, tmsPath_exit1]
    cases reg <;> decide
  rw [TapController.scanTrack, Port.cycles_append, Port.cycles_append, List.filter_append, List.filter_append,
    hway, hbits, hback, List.nil_append, List.append_nil]

/-- A scan without bits does nothing, and fails. -/
theorem Op.exec_of_bits_eq_zero {c : TapController σ} {o : Op} {a : ScanArgs} (ha : o.scanArgs = some a)
    (h0 : a.bits = 0) : o.exec T c = some ((false, []), c) := by
  have hscan : ∀ reg buf read, TapController.scan T reg (some buf) [] 0 read c = some ((false, []), c) := by
    intro reg buf read
    rw [TapController.scan, if_pos rfl, Method.pure_apply]
  cases o with
  | reset | gotoState | clkIdle => cases ha
  | shiftIR irData irBits =>
    cases ha
    obtain rfl : irBits = 0 := h0
    have e : TapController.shiftIR T (some irData) 0 c = _ := Method.bind_of_eq _ (hscan .ir irData false)
    rw [exec, Method.bind_of_eq _ e]; rfl
  | shiftDR tdiData drBits =>
    cases ha
    obtain rfl : drBits = 0 := h0
    exact hscan .dr tdiData true
  | shiftDROut tdiData drBits =>
    cases ha
    obtain rfl : drBits = 0 := h0
    have e : TapController.shiftDROut T (some tdiData) 0 c = _ := Method.bind_of_eq _ (hscan .dr tdiData false)
    rw [exec, Method.bind_of_eq _ e]; rfl
  | readDR drBits =>
    cases ha
    obtain rfl : drBits = 0 := h0
    exact hscan .dr (List.replicate ((0 + 7) / 8) 0) true

/-- A scan with bits that is defined has a buffer to take them from. -/
theorem TapController.enabled_of_scan_eq_some {c : TapController σ} {reg : Register} {buf : List Byte} {n : ℕ}
    {read : Bool} {r : (Bool × List Byte) × TapController σ} (hs : c.Synced) (hd : c.device.NoCut) (hn : n ≠ 0)
    (h : scan T reg (some buf) [] n read c = some r) : bytesFor n ≤ buf.length := by
  obtain ⟨d, t, e, -⟩ := gotoState_spec (T := T) reg.shift hs hd
  rw [scan, if_neg hn, Method.bind_of_eq _ e, if_pos rfl] at h
  obtain ⟨x, c₂, hd, -⟩ := Method.bind_eq_some.mp h
  rw [doShift, if_neg hn] at hd
  obtain ⟨cmd, hcmd, -⟩ := Option.bind_eq_some_iff.mp hd
  exact le_of_scanCommands (by omega) hcmd

theorem Op.enabled_of_exec_eq_some {c : TapController σ} {o : Op} {r : (Bool × List Byte) × TapController σ}
    (hs : c.Synced) (hd : c.device.NoCut) (hn : ∀ a, o.scanArgs = some a → a.bits ≠ 0) (h : o.exec T c = some r) :
    o.Enabled := by
  intro a ha
  refine ⟨Nat.pos_of_ne_zero (hn a ha), ?_⟩
  have hscan : ∃ r', TapController.scan T a.reg (some a.buf) [] a.bits a.read c = some r' := by
    cases o with
    | reset | gotoState | clkIdle => cases ha
    | shiftDR | readDR => cases ha; exact ⟨_, h⟩
    | shiftIR | shiftDROut =>
      cases ha
      obtain ⟨ok, c₁, h₁, -⟩ := Method.bind_eq_some.mp h
      obtain ⟨r', c₂, h₃, -⟩ := Method.bind_eq_some.mp h₁
      exact ⟨_, h₃⟩
  obtain ⟨r', hr'⟩ := hscan
  exact TapController.enabled_of_scan_eq_some hs hd (hn a ha) hr'

/-- A batch that is defined has a buffer to take its bits from. -/
theorem TapController.exists_buffer_of_shiftDRRepeat {c : TapController σ} {count n : ℕ} {tdi : Ptr}
    {r : (Bool × List Byte) × TapController σ} (hcount : count ≠ 0) (hn : n ≠ 0)
    (h : shiftDRRepeat T count n tdi c = some r) :
    ∃ buf, bytesFor n ≤ buf.length ∧ shiftDRRepeat T count n tdi = shiftDRRepeat T count n (some buf) := by
  cases tdi with
  | none =>
    by_cases h8 : n ≤ 8
    · exact ⟨[0], by unfold bytesFor; simp; omega, shiftDRRepeat_none ⟨by omega, h8⟩ count⟩
    · rw [shiftDRRepeat_none_eq_none (by omega) hcount] at h
      cases h
  | some buf =>
    refine ⟨buf, ?_, rfl⟩
    obtain ⟨k, rfl⟩ : ∃ k, count = k + 1 := ⟨count - 1, by omega⟩
    obtain ⟨m, hm⟩ : ∃ m, min 512 (k + 1) = m + 1 := ⟨min 512 (k + 1) - 1, by omega⟩
    rw [shiftDRRepeat, if_neg (by omega)] at h
    obtain ⟨x, c₁, h₁, -⟩ := Method.bind_eq_some.mp h
    simp only [repeatLoop, Nat.add_one_ne_zero, if_false, hm] at h₁
    obtain ⟨cmd, hcmd, -⟩ := Option.bind_eq_some_iff.mp h₁
    rw [batchCommands] at hcmd
    obtain ⟨cmd', hcmd', -⟩ := Option.bind_eq_some_iff.mp hcmd
    obtain ⟨cmd'', hcmd'', -⟩ := Option.map_eq_some_iff.mp hcmd'
    exact le_of_scanCommands (by omega) hcmd''

/-- Where a batch may start its scans end in RUN-TEST/IDLE. -/
theorem run_batchPins {s : TapState} (h : RepeatStart s) (buf : List Byte) (n : ℕ) {k : ℕ} (hk : k ≠ 0) : s.run ((batchPins buf n k).map Pins.tms) = .runTestIdle := by
  have hone : ∀ {s : TapState}, RepeatStart s →
      s.run ((repeatPins buf n).map Pins.tms) = .runTestIdle := by
    intro s hs
    have hway : s.run (tmsPath .runTestIdle .shiftDr) = .shiftDr := by
      rcases hs with rfl | rfl | rfl <;> decide +kernel
    have hend : TapState.run .exit1Dr (tmsPath .exit1Dr .runTestIdle) = .runTestIdle := by decide +kernel
    rw [repeatPins, TapController.scanTrack, List.map_append, List.map_append, TapState.run_append,
      TapState.run_append, map_tms_pathPins, map_tms_pathPins, Register.shift, hway]
    rw [show TapState.shiftDr = Register.dr.shift from rfl, TapController.run_scanPins]
    exact hend
  induction k generalizing s with
  | zero => exact absurd rfl hk
  | succ k ih =>
    rw [batchPins_succ, List.map_append, TapState.run_append, hone h]
    cases k with
    | zero => rfl
    | succ k => exact ih (.inl rfl) (Nat.succ_ne_zero k)

theorem TapController.Synced.withOutcomes {c : TapController σ} (h : c.Synced) (os : List Outcome) :
    (c.withOutcomes os).Synced :=
  ⟨⟨h.waits.isOpen, h.waits.phase, rfl, h.waits.rx⟩, h.state, h.tms⟩

/-- A call that keeps clear of the defects is sound, whether it succeeds or not, and leaves the
link in step. -/
theorem Event.sound {e : Event σ} (hs : e.before.Synced) (hd : e.Delivered) (hc : e.Clear)
    (h : e.call.exec T (e.before.withOutcomes e.outcomes) = some ((e.ok, e.tdo), e.after)) :
    e.Sound ∧ e.after.Synced := by
  obtain ⟨before, call, os, ok, tdo, after⟩ := e
  simp only [Delivered, Clear] at hs hd hc h
  have hs' := hs.withOutcomes os
  cases call with
  | op o =>
    obtain ⟨hf, ha⟩ := hc
    by_cases h0 : ∃ a, o.scanArgs = some a ∧ a.bits = 0
    · -- a scan without bits
      obtain ⟨a, ha, hz⟩ := h0
      rw [Call.exec, Op.exec_of_bits_eq_zero ha hz] at h
      cases h
      refine ⟨⟨hs'.state, fun o' a' _ _ hok => ?_⟩, hs'⟩
      cases hok
    · have he := Op.enabled_of_exec_eq_some hs' hd (fun a ha hz => h0 ⟨a, ha, hz⟩) h
      obtain ⟨d, m, e, hsync, hcl, -⟩ := Op.exec_spec (T := T) o hs' hd he ha
      rw [Call.exec, e] at h
      cases h
      refine ⟨⟨(hsync hf).state, ?_⟩, hsync hf⟩
      rintro o' a ⟨⟩ hscan -
      have htrack : o.track before.state = TapController.scanTrack before.state a.reg a.buf a.bits := by
        cases o <;> cases hscan <;> rfl
      have hst : before.device.link.port.state = before.state := hs.state
      have hn := (he a hscan).1
      have hfilter := filter_scanTrack (T := T) before.device.link.port a.reg a.buf hn
      rw [hst] at hfilter
      refine ⟨before.device.link.port.cycles T (o.track before.state), hcl.trace, ?_, ?_, ?_,
        by cases o <;> first | rfl | cases hscan⟩
      · show ScanShape a.reg a.bits before.state _
        rw [Port.map_state_cycles, htrack, hst]
        exact scanShape_scanTrack _ _ _ hn
      · rw [htrack, hfilter, Port.map_tdi_cycles, TapController.map_tdi_scanPins _ hn]
      · intro hread
        obtain ⟨reg, buf, bits, read⟩ := a
        obtain rfl : read = true := hread
        rw [htrack, hfilter, Op.result, hscan]
        rfl
  | shiftDRRepeat count n tdi =>
    suffices hsync : after.Synced from ⟨⟨hsync.state, fun _ _ hop => by cases hop⟩, hsync⟩
    by_cases h0 : count = 0 ∨ n = 0
    · have e : TapController.shiftDRRepeat T count n tdi (before.withOutcomes os) =
          some ((true, []), before.withOutcomes os) := by
        rw [TapController.shiftDRRepeat, if_pos h0]; rfl
      rw [Call.exec, e] at h
      cases h
      exact hs'
    · obtain ⟨hcount, hn⟩ := not_or.mp h0
      obtain ⟨buf, hb, hcall⟩ := TapController.exists_buffer_of_shiftDRRepeat hcount hn h
      have hstart : RepeatStart before.state := by
        rcases hc with hc | ⟨hc, -⟩ | ⟨hc, -⟩
        · exact absurd hc hcount
        · exact .inl hc
        · exact hc
      have hq : (before.withOutcomes os).device.Quiet := by
        rcases hc with hc | ⟨-, hc⟩ | ⟨-, hc⟩
        · exact absurd hc hcount
        · exact hc
        · exact hc.quiet
      obtain ⟨ok', out, k, d, e, he, hw, hcl, hk, -, hdel⟩ :=
        TapController.shiftDRRepeat_spec (T := T) (by omega) hb hcount hs'.waits hd hq
      rw [Call.exec, hcall, he] at h
      cases h
      refine .of_waits hw ?_ fun _ => rfl
      have hrun : d.link.port.state = .runTestIdle := by
        rw [hcl.state, hs'.state]
        exact run_batchPins hstart buf n hk
      rcases hc with hc | ⟨hc, -⟩ | ⟨-, hc⟩
      · exact absurd hc hcount
      · -- in RUN-TEST/IDLE the state is right whether the batch succeeded or not
        rw [hrun]
        cases ok
        · exact hc.symm
        · rfl
      · obtain ⟨rfl, -⟩ := hdel hc
        exact hrun

/-- **Failed scans.** In a run of calls whose command bytes all reach the chip, and that all keep
clear of the defects, every call is sound, whichever of them fail. -/
theorem calls_sound {c : TapController σ} {run : List (Event σ)} (hs : c.Synced) (h : Calls T c run)
    (hd : ∀ e ∈ run, e.Delivered) (hc : ∀ e ∈ run, e.Clear) : ∀ e ∈ run, e.Sound := by
  induction h with
  | nil => simp
  | @cons e run hexec _ ih =>
    rw [List.forall_mem_cons] at hd hc ⊢
    obtain ⟨hsound, hs'⟩ := Event.sound hs hd.1 hc.1 hexec
    exact ⟨hsound, ih hs' hd.2 hc.2⟩

/-- A batch whose answer never comes, and then a scan. -/
theorem calls_sound_idle :
    ∃ e₁ e₂ : Event Unit, Calls Target.wire (TapController.knowing .runTestIdle) [e₁, e₂] ∧
      e₁.outcomes = [.short 1 0] ∧ e₁.ok = false ∧ e₂.call = .op (.readDR 20) ∧ e₂.ok = true ∧ e₂.Sound := by
  have hc : ∀ c : TapController Unit, (c.withOutcomes [.short 1 0]).device.NoCut := by
    intro c o ho
    obtain rfl := List.mem_singleton.mp ho
    exact Nat.zero_le 1
  have hq : ∀ c : TapController Unit, (c.withOutcomes [.short 1 0]).device.Quiet := by
    intro c got late ho
    cases List.mem_singleton.mp ho
    rfl
  have hdel : ∀ c : TapController Unit, (c.withOutcomes []).device.Delivers := fun c o ho => nomatch ho
  have hs := TapController.knowing_synced .runTestIdle
  -- the batch fails
  have hfail : ((Call.exec Target.wire (.shiftDRRepeat 3 8 (some [0x05]))
      ((TapController.knowing .runTestIdle).withOutcomes [.short 1 0])).map (·.1.1)) = some false := by rfl
  obtain ⟨⟨⟨ok, out⟩, c₁⟩, he₁, rfl⟩ := Option.map_eq_some_iff.mp hfail
  let e₁ : Event Unit :=
    ⟨.knowing .runTestIdle, .shiftDRRepeat 3 8 (some [0x05]), [.short 1 0], false, out, c₁⟩
  have hclear₁ : e₁.Clear := .inr (.inl ⟨rfl, hq _⟩)
  obtain ⟨-, hs₁⟩ := Event.sound (e := e₁) hs (hc _) hclear₁ he₁
  -- the scan after it succeeds
  obtain ⟨d, m, he₂, -⟩ := Op.exec_spec (T := Target.wire) (.readDR 20) (hs₁.withOutcomes []) (hdel c₁).noCut
    (by rintro a ⟨⟩; decide) (.of_delivers (hdel c₁) _)
  let e₂ : Event Unit := ⟨c₁, .op (.readDR 20), [], true, Op.result Target.wire (c₁.withOutcomes []) (.readDR 20),
    ⟨d, .runTestIdle, c₁.lastError⟩⟩
  have hclear₂ : e₂.Clear := ⟨trivial, .of_delivers (hdel c₁) _⟩
  have hrun : Calls Target.wire (TapController.knowing .runTestIdle) [e₁, e₂] :=
    .cons (e := e₁) he₁ (.cons (e := e₂) he₂ (.nil _))
  have hsound := calls_sound hs hrun (by simpa [e₁, e₂, Event.Delivered] using ⟨hc _, (hdel c₁).noCut⟩)
    (by simpa using ⟨hclear₁, hclear₂⟩)
  exact ⟨e₁, e₂, hrun, rfl, rfl, rfl, rfl, hsound e₂ (by simp)⟩

/-- A scan whose answer never comes leaves the host in SHIFT-DR and the hardware in EXIT1-DR. -/
theorem shiftDR_short_loses_track :
    ∃ c', TapController.shiftDR Target.wire (some [0x05, 0x01]) [] 9
        ((TapController.knowing .runTestIdle).withOutcomes [.whole, .short 0 0]) = some ((false, []), c') ∧
      c'.state = .shiftDr ∧ c'.device.link.port.state = .exit1Dr := by
  have hs := (TapController.knowing_synced .runTestIdle).withOutcomes [.whole, .short 0 0]
  refine TapController.scan_short (T := Target.wire) .dr (by decide) (by decide) hs ?_ rfl (by decide)
  intro o ho
  rcases List.mem_cons.mp ho with rfl | ho
  · trivial
  · obtain rfl := List.mem_singleton.mp ho
    exact Nat.zero_le 0

end OwlTap.Jtag
