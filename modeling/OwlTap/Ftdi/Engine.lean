import OwlTap.Base.Tap
import OwlTap.Ftdi.Mpsse

/-!
# The MPSSE engine

What an FTDI chip does with the bytes of MPSSE commands, by FTDI's documentation of
the opcodes. The engine takes one byte at a time (`Mpsse.byte`) and answers with
micro-operations: TCK cycles, of which some sample TDO, and replies to the host.
Data commands leave TMS at the level the last TMS command or pin setting left it.

`Runs` is the reading of whole commands the proofs use: between commands the
engine's state is the level of TMS, and a string of commands takes it from one level
to another while it performs a list of micro-operations.
-/

namespace OwlTap.Ftdi

open OwlTap

/-- What the engine does at its pins and to the host. -/
inductive Micro where
  /-- One TCK cycle; `sample` shifts TDO into the engine's input register. -/
  | clk (pins : Pins) (sample : Bool)
  /-- The input register is sent to the host. -/
  | push
  /-- A byte is sent to the host. -/
  | reply (b : Byte)
  deriving DecidableEq, Repr

/-- Where the engine is in a command. -/
inductive Phase where
  /-- Between commands. -/
  | ready
  /-- After the opcode. -/
  | arg (op : Byte)
  /-- After the opcode and the first argument. -/
  | arg2 (op a : Byte)
  /-- In the data of a byte command: this many bytes follow the next one. -/
  | data (read : Bool) (more : ℕ)
  deriving DecidableEq, Repr

/-- The engine. -/
structure Mpsse where
  /-- Where it is in a command. -/
  phase : Phase
  /-- The level of TMS. -/
  tms : Bool
  /-- The level of TDI. -/
  tdi : Bool
  deriving DecidableEq, Repr

/-- The micro-operations of the first `k` bits of a data byte: a cycle for each, and, for a
command that reads, what was sampled. -/
def bitMicros (tms : Bool) (d : Byte) (k : ℕ) (read : Bool) : List Micro :=
  (List.range k).map (fun i => .clk ⟨tms, d.getLsbD i⟩ read) ++ if read then [.push] else []

/-- The micro-operations of the first `k` bits of a TMS pattern, TDI held at its bit 7. -/
def tmsMicros (d : Byte) (k : ℕ) (read : Bool) : List Micro :=
  (List.range k).map (fun i => .clk ⟨d.getLsbD i, d.getLsbD 7⟩ read) ++ if read then [.push] else []

namespace Mpsse

/-- The last argument of a command with two. -/
def last (m : Mpsse) (op a d : Byte) : Mpsse × List Micro :=
  if op = MpsseCmd.tmsOut ∨ op = MpsseCmd.tmsRdwr then
    (⟨.ready, d.getLsbD a.toNat, d.getLsbD 7⟩, tmsMicros d (a.toNat + 1) (op = MpsseCmd.tmsRdwr))
  else if op = MpsseCmd.writeBitsNegLsb ∨ op = MpsseCmd.rdwrBitsLsb then
    (⟨.ready, m.tms, d.getLsbD a.toNat⟩, bitMicros m.tms d (a.toNat + 1) (op = MpsseCmd.rdwrBitsLsb))
  else if op = MpsseCmd.writeNegLsb ∨ op = MpsseCmd.rdwrLsb then
    ({ m with phase := .data (op = MpsseCmd.rdwrLsb) (a.toNat + 256 * d.toNat) }, [])
  else if op = MpsseCmd.readPosLsb then
    ({ m with phase := .ready }, (List.range (a.toNat + 256 * d.toNat + 1)).flatMap fun _ =>
      List.replicate 8 (.clk ⟨m.tms, m.tdi⟩ true) ++ [.push])
  else if op = MpsseCmd.setBitsLow then (⟨.ready, a.getLsbD 3, a.getLsbD 1⟩, [])
  else ({ m with phase := .ready }, [])

/-- The opcodes that take two arguments. -/
def withArgs : List Byte :=
  [MpsseCmd.tmsOut, MpsseCmd.tmsRdwr, MpsseCmd.writeNegLsb, MpsseCmd.rdwrLsb, MpsseCmd.readPosLsb,
    MpsseCmd.writeBitsNegLsb, MpsseCmd.rdwrBitsLsb, MpsseCmd.setBitsLow, MpsseCmd.tckDivisor]

/-- The opcodes that take none. -/
def withoutArgs : List Byte :=
  [MpsseCmd.disDiv5, MpsseCmd.dis3Phase, MpsseCmd.loopbackEnd, MpsseCmd.sendImmediate]

/-- One byte from the host. An unknown opcode is answered with `0xFA` and itself. -/
def byte (m : Mpsse) (b : Byte) : Mpsse × List Micro :=
  match m.phase with
  | .ready =>
    if b ∈ MpsseCmd.readBitsPosLsb :: withArgs then ({ m with phase := .arg b }, [])
    else if b ∈ withoutArgs then (m, [])
    else (m, [.reply 0xFA, .reply b])
  | .arg op =>
    if op = MpsseCmd.readBitsPosLsb then
      ({ m with phase := .ready }, List.replicate (b.toNat + 1) (.clk ⟨m.tms, m.tdi⟩ true) ++ [.push])
    else ({ m with phase := .arg2 op b }, [])
  | .arg2 op a => m.last op a b
  | .data read 0 => (⟨.ready, m.tms, b.getLsbD 7⟩, bitMicros m.tms b 8 read)
  | .data read (more + 1) => (⟨.data read more, m.tms, b.getLsbD 7⟩, bitMicros m.tms b 8 read)

/-- A string of bytes from the host. -/
def feed : Mpsse → List Byte → Mpsse × List Micro
  | m, [] => (m, [])
  | m, b :: bs => (((m.byte b).1.feed bs).1, (m.byte b).2 ++ ((m.byte b).1.feed bs).2)

theorem feed_append (m : Mpsse) (a b : List Byte) :
    m.feed (a ++ b) = (((m.feed a).1.feed b).1, (m.feed a).2 ++ ((m.feed a).1.feed b).2) := by
  induction a generalizing m with
  | nil => rfl
  | cons x a ih => simp [feed, ih]

end Mpsse

/-! ### Whole commands -/

/-- The bytes are whole commands: fed to an engine between commands with TMS at `t`, they
leave it between commands with TMS at `t'`, and it performs `ms`. -/
def Runs (t : Bool) (bs : List Byte) (t' : Bool) (ms : List Micro) : Prop :=
  ∀ d, ∃ d', Mpsse.feed ⟨.ready, t, d⟩ bs = (⟨.ready, t', d'⟩, ms)

theorem Runs.nil (t : Bool) : Runs t [] t [] := fun d => ⟨d, rfl⟩

theorem Runs.append {t t₁ t₂ : Bool} {a b : List Byte} {x y : List Micro} (h₁ : Runs t a t₁ x)
    (h₂ : Runs t₁ b t₂ y) : Runs t (a ++ b) t₂ (x ++ y) := by
  intro d
  obtain ⟨d₁, e₁⟩ := h₁ d
  obtain ⟨d₂, e₂⟩ := h₂ d₁
  exact ⟨d₂, by rw [Mpsse.feed_append, e₁, e₂]⟩

theorem runs_sendImmediate (t : Bool) : Runs t [MpsseCmd.sendImmediate] t [] :=
  fun d => ⟨d, rfl⟩

/-- The three bytes of a command with two arguments. -/
theorem feed_args {op : Byte} (h : op ∈ Mpsse.withArgs) (t d : Bool) (a b : Byte) :
    Mpsse.feed ⟨.ready, t, d⟩ [op, a, b] = Mpsse.last ⟨.arg2 op a, t, d⟩ op a b := by
  have hne : op ≠ MpsseCmd.readBitsPosLsb := by rintro rfl; revert h; decide
  simp [Mpsse.feed, Mpsse.byte, h, hne]

theorem toNat_ofNat_pred {w k : ℕ} (h : k ≤ 2 ^ w) : (BitVec.ofNat w (k - 1)).toNat = k - 1 := by
  have := Nat.two_pow_pos w
  rw [BitVec.toNat_ofNat, Nat.mod_eq_of_lt (by omega)]

/-- The data byte of a TMS command: the pattern in bits 0..6, the TDI value in bit 7. -/
theorem getLsbD_tmsByte (p : Byte) (v : Bool) {i : ℕ} (h : i < 7) :
    ((p &&& 0x7F) ||| (if v then 0x80 else 0x00)).getLsbD i = p.getLsbD i := by
  have h₁ : ∀ i < 7, (0x7F#8).getLsbD i = true := by decide
  have h₂ : ∀ i < 7, (0x80#8).getLsbD i = false := by decide
  cases v <;> simp [BitVec.getLsbD_or, BitVec.getLsbD_and, h₁ i h, h₂ i h]

theorem getLsbD_tmsByte_seven (p : Byte) (v : Bool) :
    ((p &&& 0x7F) ||| (if v then 0x80 else 0x00)).getLsbD 7 = v := by
  cases v <;> simp

/-- A TMS command of `k` bits. -/
theorem runs_tms (t : Bool) (p : Byte) {k : ℕ} (hk : 1 ≤ k ∧ k ≤ 7) (v read : Bool) :
    Runs t [if read then MpsseCmd.tmsRdwr else MpsseCmd.tmsOut, BitVec.ofNat 8 (k - 1),
        (p &&& 0x7F) ||| (if v then 0x80 else 0x00)] (p.getLsbD (k - 1))
      ((List.range k).map (fun i => .clk ⟨p.getLsbD i, v⟩ read) ++ if read then [.push] else []) := by
  intro d
  have hop : (if read then MpsseCmd.tmsRdwr else MpsseCmd.tmsOut) ∈ Mpsse.withArgs := by
    cases read <;> decide
  have hrd : ((if read then MpsseCmd.tmsRdwr else MpsseCmd.tmsOut) = MpsseCmd.tmsRdwr) = (read = true) := by
    cases read <;> decide
  have hn : (BitVec.ofNat 8 (k - 1)).toNat = k - 1 := toNat_ofNat_pred (by omega)
  rw [feed_args hop, Mpsse.last, if_pos (by cases read <;> simp), hn, Nat.sub_add_cancel hk.1,
    getLsbD_tmsByte p v (by omega), getLsbD_tmsByte_seven, tmsMicros, getLsbD_tmsByte_seven]
  refine ⟨v, ?_⟩
  congr 2
  · refine List.map_congr_left fun i hi => ?_
    have := List.mem_range.mp hi
    rw [getLsbD_tmsByte p v (by omega)]
    simp [hrd]
  · simp [hrd]

/-- The data of a byte command. -/
theorem feed_data (t d read : Bool) (bs : List Byte) (more : ℕ) (h : bs.length = more + 1) :
    ∃ d', Mpsse.feed ⟨.data read more, t, d⟩ bs =
      (⟨.ready, t, d'⟩, bs.flatMap fun b => bitMicros t b 8 read) := by
  induction bs generalizing d more with
  | nil => simp at h
  | cons b bs ih =>
    cases more with
    | zero =>
      obtain rfl : bs = [] := by simpa using h
      exact ⟨b.getLsbD 7, by simp [Mpsse.feed, Mpsse.byte]⟩
    | succ more =>
      obtain ⟨d', e⟩ := ih (b.getLsbD 7) more (by simpa using h)
      exact ⟨d', by simp only [Mpsse.feed, Mpsse.byte, e, List.flatMap_cons]⟩

/-- The opcodes of a command pair that drives TDI, by whether it reads TDO. -/
def dataOps (read : Bool) : Byte × Byte :=
  if read then (MpsseCmd.rdwrLsb, MpsseCmd.rdwrBitsLsb) else (MpsseCmd.writeNegLsb, MpsseCmd.writeBitsNegLsb)

/-- A byte command: one chunk of up to 65536 bytes. -/
theorem runs_bytes (t read : Bool) (bs : List Byte) (h : 1 ≤ bs.length ∧ bs.length ≤ 65536) :
    Runs t ((dataOps read).1 :: (BitVec.ofNat 16 (bs.length - 1)).setWidth 8 ::
        (BitVec.ofNat 16 (bs.length - 1) >>> 8).setWidth 8 :: bs) t
      (bs.flatMap fun b => bitMicros t b 8 read) := by
  intro d
  have hn : (BitVec.ofNat 16 (bs.length - 1)).toNat = bs.length - 1 := toNat_ofNat_pred (by omega)
  have hlen : ((BitVec.ofNat 16 (bs.length - 1)).setWidth 8).toNat +
      256 * ((BitVec.ofNat 16 (bs.length - 1) >>> 8).setWidth 8).toNat = bs.length - 1 := by
    simp only [BitVec.toNat_setWidth, BitVec.toNat_ushiftRight, hn, Nat.shiftRight_eq_div_pow]
    omega
  obtain ⟨d', e⟩ := feed_data t d read bs (bs.length - 1) (by omega)
  refine ⟨d', ?_⟩
  rw [show ∀ a b c : Byte, a :: b :: c :: bs = [a, b, c] ++ bs from fun _ _ _ => rfl, Mpsse.feed_append,
    feed_args (by cases read <;> decide), Mpsse.last, if_neg (by cases read <;> decide),
    if_neg (by cases read <;> decide), if_pos (by cases read <;> decide), hlen]
  cases read <;> simpa [dataOps, MpsseCmd.rdwrLsb, MpsseCmd.writeNegLsb] using e

/-- A bit command of `k` bits. -/
theorem runs_bits (t read : Bool) (b : Byte) {k : ℕ} (hk : 1 ≤ k ∧ k ≤ 8) :
    Runs t [(dataOps read).2, BitVec.ofNat 8 (k - 1), b] t (bitMicros t b k read) := by
  intro d
  have hn : (BitVec.ofNat 8 (k - 1)).toNat = k - 1 := toNat_ofNat_pred (by omega)
  refine ⟨b.getLsbD (k - 1), ?_⟩
  rw [feed_args (by cases read <;> decide), Mpsse.last, if_neg (by cases read <;> decide),
    if_pos (by cases read <;> decide), hn, Nat.sub_add_cancel hk.1]
  cases read <;> rfl

/-! ### The commands a buffer accumulates -/

/-- The micro-operations of a shift of the first `n` bits of a buffer. -/
def shiftMicros (t : Bool) (buf : List Byte) (n : ℕ) (read : Bool) : List Micro :=
  (buf.take (n / 8)).flatMap (fun b => bitMicros t b 8 read) ++
    if 0 < n % 8 then bitMicros t (buf.getD (n / 8) 0) (n % 8) read else []

namespace MpsseCommandBuffer

theorem runs_clockTms (p : Byte) {k : ℕ} (hk : 1 ≤ k ∧ k ≤ 7) (v read : Bool) (c : MpsseCommandBuffer) :
    ∃ bs, clockTms p k v read c = c.append bs (if read then 1 else 0) ∧ bs ≠ [] ∧ ∀ t,
      Runs t bs (p.getLsbD (k - 1))
        ((List.range k).map (fun i => .clk ⟨p.getLsbD i, v⟩ read) ++ if read then [.push] else []) :=
  ⟨_, if_neg (by omega), List.cons_ne_nil _ _, fun t => runs_tms t p hk v read⟩

/-- The chunks of a byte loop are whole commands that drive the bytes of the buffer in order. -/
theorem runs_byteChunks (t read : Bool) (buf : List Byte) (fuel offset full : ℕ) (c : MpsseCommandBuffer)
    (hf : full ≤ fuel) (hb : offset + full ≤ buf.length) :
    ∃ bs, byteChunks (dataOps read).1 (Ptr.slice (some buf)) read fuel offset full c =
        some (c.append bs (if read then full else 0)) ∧
      Runs t bs t (((buf.drop offset).take full).flatMap fun b => bitMicros t b 8 read) := by
  induction fuel generalizing offset full c with
  | zero =>
    obtain rfl : full = 0 := by omega
    exact ⟨[], by simp [byteChunks, append], by simpa using Runs.nil t⟩
  | succ fuel ih =>
    by_cases h0 : full = 0
    · subst h0
      exact ⟨[], by simp [byteChunks, append], by simpa using Runs.nil t⟩
    · -- one chunk, and the rest by induction
      obtain ⟨chunk, hc⟩ : ∃ chunk, chunk = if full > 65536 then 65536 else full := ⟨_, rfl⟩
      have hle : 1 ≤ chunk ∧ chunk ≤ 65536 ∧ chunk ≤ full := by split at hc <;> omega
      have hsl := Ptr.slice_some (show offset + chunk ≤ buf.length by omega)
      have hlen : ((buf.drop offset).take chunk).length = chunk := by simp; omega
      obtain ⟨bs, e, hr⟩ := ih (offset + chunk) (full - chunk)
        (c.append ((dataOps read).1 :: (BitVec.ofNat 16 (chunk - 1)).setWidth 8 ::
          (BitVec.ofNat 16 (chunk - 1) >>> 8).setWidth 8 :: (buf.drop offset).take chunk)
          (if read then chunk else 0)) (by omega) (by omega)
      have hr' := (runs_bytes t read ((buf.drop offset).take chunk) (by omega)).append hr
      rw [hlen, ← List.flatMap_append, ← List.drop_drop, ← List.take_add,
        Nat.add_sub_cancel' hle.2.2] at hr'
      refine ⟨_, ?_, hr'⟩
      rw [byteChunks, if_neg h0]
      simp only [← hc, hsl, Option.bind_some, e]
      cases read
      · simp [append]
      · simp [append]; omega

/-- `shiftOut` and `shiftInOut` of `n` bits of a buffer are whole commands that drive those bits. -/
theorem runs_shift (t read : Bool) {buf : List Byte} {n : ℕ} (hb : bytesFor n ≤ buf.length)
    (c : MpsseCommandBuffer) :
    ∃ bs, shift (dataOps read).1 (dataOps read).2 (Ptr.slice (some buf)) read n c =
        some (c.append bs (if read then bytesFor n else 0)) ∧
      Runs t bs t (shiftMicros t buf n read) := by
  have hn : bytesFor n = n / 8 + if 0 < n % 8 then 1 else 0 := by unfold bytesFor; split <;> omega
  by_cases h0 : n = 0
  · subst h0
    exact ⟨[], by simp [shift, append, bytesFor], Runs.nil t⟩
  obtain ⟨bs, e, hr⟩ := runs_byteChunks t read buf (n / 8) 0 (n / 8) c le_rfl (by omega)
  rw [List.drop_zero] at hr
  by_cases hm : 0 < n % 8
  · have hlt : n / 8 < buf.length := by simp [hm] at hn; omega
    have hsl := Ptr.slice_some (show n / 8 + 1 ≤ buf.length by omega)
    have hone : (buf.drop (n / 8)).take 1 = [buf.getD (n / 8) 0] := by
      rw [List.drop_eq_getElem_cons hlt, List.getD_eq_getElem _ _ hlt]; rfl
    refine ⟨_, ?_, hr.append (by rw [if_pos hm]; exact runs_bits t read (buf.getD (n / 8) 0) (by omega))⟩
    rw [shift, if_neg h0, e, Option.bind_some, if_pos hm, hsl, hone]
    cases read <;> simp [append, hn, hm, Nat.add_assoc]
  · refine ⟨bs, ?_, by rw [shiftMicros, if_neg hm, List.append_nil]; exact hr⟩
    rw [shift, if_neg h0, e, Option.bind_some, if_neg hm]
    cases read <;> simp [hn, hm]

end MpsseCommandBuffer

end OwlTap.Ftdi
