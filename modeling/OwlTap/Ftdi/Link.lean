import OwlTap.Ftdi.Engine

/-!
# The link: the chip and what hangs on its pins

A `Link` is an FTDI chip in MPSSE mode with its receive queue, the hardware on its
JTAG pins, and everything a logic analyser on those pins has recorded. The bytes the
chip returns depend on the micro-operations and on what the hardware drives on TDO,
and on nothing else (`answers`).
-/

namespace OwlTap.Ftdi

open OwlTap

/-- A bit is shifted into the engine's input register from the top. -/
def shiftIn (sr : Byte) (tdo : Bool) : Byte := sr >>> 1 ||| if tdo then 0x80#8 else 0#8

/-- The input register after a string of samples. -/
def readByte (sr : Byte) (r : List Bool) : Byte := r.foldl shiftIn sr

theorem getLsbD_shiftIn (sr : Byte) (tdo : Bool) {i : ℕ} (h : i < 8) :
    (shiftIn sr tdo).getLsbD i = if i = 7 then tdo else sr.getLsbD (i + 1) := by
  have h₁ : ∀ i < 8, (0x80#8).getLsbD i = decide (i = 7) := by decide
  by_cases h7 : i = 7
  · subst h7; cases tdo <;> simp [shiftIn]
  · cases tdo <;> simp [shiftIn, h₁ i h, h7, Nat.add_comm]

/-- Samples end up at the top of the register, in the order in which they were taken. -/
theorem getLsbD_readByte (sr : Byte) (r : List Bool) (hr : r.length ≤ 8) {i : ℕ} (hi : i < 8) :
    (readByte sr r).getLsbD i =
      if i + r.length < 8 then sr.getLsbD (i + r.length) else r.getD (i + r.length - 8) false := by
  induction r using List.reverseRecOn generalizing i with
  | nil => simp [readByte, hi]
  | append_singleton r x ih =>
    simp only [List.length_append, List.length_singleton] at hr ⊢
    rw [readByte, List.foldl_append, List.foldl_cons, List.foldl_nil, getLsbD_shiftIn _ _ hi]
    by_cases h7 : i = 7
    · subst h7
      rw [if_pos rfl, if_neg (by omega), List.getD_append_right _ _ _ _ (by omega)]
      simp [show 7 + (r.length + 1) - 8 - r.length = 0 by omega]
    · rw [if_neg h7, ← readByte, ih (by omega) (by omega)]
      by_cases hlt : i + (r.length + 1) < 8
      · rw [if_pos (by omega), if_pos hlt, show i + 1 + r.length = i + (r.length + 1) by omega]
      · rw [if_neg (by omega), if_neg hlt, List.getD_append _ _ _ _ (by omega)]
        congr 1; omega

/-- Eight samples fill the register. -/
theorem packBits_eight (sr : Byte) (r r' : List Bool) (h : r.length = 8) :
    packBits (r ++ r') = readByte sr r :: packBits r' := by
  refine (eq_packBits (by simp [h, bytesFor]; omega) fun i => ?_).symm
  by_cases hi : i < 8
  · rw [bitAt_cons_of_lt _ _ hi, getLsbD_readByte _ _ (by omega) hi, if_neg (by omega),
      List.getD_append _ _ _ _ (by omega), show i + r.length - 8 = i by omega]
  · obtain ⟨j, rfl⟩ : ∃ j, i = 8 + j := ⟨i - 8, by omega⟩
    rw [bitAt_cons_add, bitAt_packBits, List.getD_append_right _ _ _ _ (by omega), h,
      Nat.add_sub_cancel_left]

/-! ### Micro-operations -/

/-- The TCK cycles among the micro-operations. -/
def pinsOf (ms : List Micro) : List Pins :=
  ms.filterMap fun | .clk p _ => some p | _ => none

@[simp] theorem pinsOf_nil : pinsOf [] = [] := rfl

@[simp] theorem pinsOf_append (a b : List Micro) : pinsOf (a ++ b) = pinsOf a ++ pinsOf b := by
  simp [pinsOf]

/-- The input register and the bytes returned, for the samples `r` of the cycles. -/
def answers : Byte → List Micro → List Bool → Byte × List Byte
  | sr, [], _ => (sr, [])
  | sr, .clk _ sample :: ms, r => answers (if sample then shiftIn sr (r.headD false) else sr) ms r.tail
  | sr, .push :: ms, r => ((answers sr ms r).1, sr :: (answers sr ms r).2)
  | sr, .reply b :: ms, r => ((answers sr ms r).1, b :: (answers sr ms r).2)

theorem answers_append (sr : Byte) (a b : List Micro) (r r' : List Bool) (h : r.length = (pinsOf a).length) :
    answers sr (a ++ b) (r ++ r') =
      ((answers (answers sr a r).1 b r').1, (answers sr a r).2 ++ (answers (answers sr a r).1 b r').2) := by
  induction a generalizing sr r with
  | nil =>
    obtain rfl : r = [] := by simpa using h
    rfl
  | cons m a ih =>
    cases m with
    | clk p s =>
      cases r with
      | nil => simp [pinsOf] at h
      | cons x r => simpa [answers] using ih _ r (by simpa [pinsOf] using h)
    | push => simp [answers, ih sr r (by simpa [pinsOf] using h)]
    | reply c => simp [answers, ih sr r (by simpa [pinsOf] using h)]

/-- Cycles that do not sample return nothing. -/
theorem answers_silent (sr : Byte) (cs : List Pins) (r : List Bool) :
    answers sr (cs.map (.clk · false)) r = (sr, []) := by
  induction cs generalizing r with
  | nil => rfl
  | cons c cs ih => exact ih _

/-- Cycles that sample, and what they sampled. -/
theorem answers_sampled (sr : Byte) (cs : List Pins) (r : List Bool) (h : r.length = cs.length) :
    answers sr (cs.map (.clk · true) ++ [.push]) r = (readByte sr r, [readByte sr r]) := by
  induction cs generalizing sr r with
  | nil =>
    obtain rfl : r = [] := by simpa using h
    rfl
  | cons c cs ih =>
    cases r with
    | nil => simp at h
    | cons x r => exact ih _ r (by simpa using h)

theorem pinsOf_map_clk (cs : List Pins) (s : Bool) : pinsOf (cs.map (.clk · s)) = cs := by
  induction cs with
  | nil => rfl
  | cons c cs ih => simp [pinsOf]

theorem pinsOf_push (read : Bool) : pinsOf (if read then [.push] else []) = [] := by
  cases read <;> rfl

/-- The pins of a block of cycles and its push. -/
theorem pinsOf_block (cs : List Pins) (s read : Bool) :
    pinsOf (cs.map (.clk · s) ++ if read then [.push] else []) = cs := by
  rw [pinsOf_append, pinsOf_map_clk, pinsOf_push, List.append_nil]

/-- A block of cycles that read if `read`: the bytes returned. -/
theorem answers_block (sr : Byte) (cs : List Pins) (read : Bool) (r : List Bool) (h : r.length = cs.length) :
    answers sr (cs.map (.clk · read) ++ if read then [.push] else []) r =
      (if read then readByte sr r else sr, if read then [readByte sr r] else []) := by
  cases read
  · simp [answers_silent sr cs r]
  · simpa using answers_sampled sr cs r h

theorem bitMicros_eq (t : Bool) (d : Byte) (k : ℕ) (read : Bool) :
    bitMicros t d k read =
      ((List.range k).map fun i => (⟨t, d.getLsbD i⟩ : Pins)).map (.clk · read) ++
        if read then [.push] else [] := by
  simp [bitMicros, Function.comp_def]

theorem pinsOf_bitMicros (t : Bool) (d : Byte) (k : ℕ) (read : Bool) :
    pinsOf (bitMicros t d k read) = (List.range k).map fun i => ⟨t, d.getLsbD i⟩ := by
  rw [bitMicros_eq, pinsOf_block]

/-- The pins of a byte command: the bits of the bytes in order. -/
theorem pinsOf_bytes (t read : Bool) (bs : List Byte) :
    pinsOf (bs.flatMap fun b => bitMicros t b 8 read) = (bits bs (8 * bs.length)).map (⟨t, ·⟩) := by
  induction bs with
  | nil => rfl
  | cons b bs ih =>
    have hb : bits (b :: bs) 8 = (List.range 8).map b.getLsbD :=
      List.map_congr_left fun i hi => bitAt_cons_of_lt _ _ (List.mem_range.mp hi)
    rw [List.flatMap_cons, pinsOf_append, ih, pinsOf_bitMicros, List.length_cons,
      show 8 * (bs.length + 1) = 8 + 8 * bs.length by omega, bits_add, List.map_append, hb, List.map_map]
    simp only [bits, bitAt_cons_add, Function.comp_def]

/-- A byte command that reads returns the samples, packed. -/
theorem answers_bytes (sr : Byte) (t : Bool) (bs : List Byte) (r : List Bool) (h : r.length = 8 * bs.length) :
    (answers sr (bs.flatMap fun b => bitMicros t b 8 true) r).2 = packBits r := by
  induction bs generalizing sr r with
  | nil =>
    obtain rfl : r = [] := by simpa using h
    rfl
  | cons b bs ih =>
    obtain ⟨a, c, rfl, ha⟩ : ∃ a c, r = a ++ c ∧ a.length = 8 :=
      ⟨r.take 8, r.drop 8, (List.take_append_drop 8 r).symm, by simp at h ⊢; omega⟩
    have hc : c.length = 8 * bs.length := by simp [ha] at h; omega
    have hb : answers sr (bitMicros t b 8 true) a = (readByte sr a, [readByte sr a]) := by
      rw [bitMicros_eq, answers_block _ _ _ _ (by simpa using ha), if_pos rfl, if_pos rfl]
    rw [List.flatMap_cons, answers_append _ _ _ _ _ (by rw [pinsOf_bitMicros]; simpa using ha),
      packBits_eight sr a c ha, hb, ih _ c hc, List.singleton_append]

/-- The pins of a shift: the bits of the buffer in order. -/
theorem pinsOf_shiftMicros (t : Bool) {buf : List Byte} {n : ℕ} (h : n ≤ 8 * buf.length) (read : Bool) :
    pinsOf (shiftMicros t buf n read) = (bits buf n).map (⟨t, ·⟩) := by
  have hl : (buf.take (n / 8)).length = n / 8 := by simp; omega
  have hbulk : bits (buf.take (n / 8)) (8 * (n / 8)) = bits buf (8 * (n / 8)) :=
    List.map_congr_left fun i hi => bitAt_take _ (List.mem_range.mp hi)
  have hrest : pinsOf (if 0 < n % 8 then bitMicros t (buf.getD (n / 8) 0) (n % 8) read else []) =
      (List.range (n % 8)).map fun i => ⟨t, bitAt buf (8 * (n / 8) + i)⟩ := by
    by_cases hm : 0 < n % 8
    · rw [if_pos hm, pinsOf_bitMicros]
      refine List.map_congr_left fun i hi => ?_
      have hi := List.mem_range.mp hi
      rw [bitAt, show (8 * (n / 8) + i) / 8 = n / 8 by omega, show (8 * (n / 8) + i) % 8 = i by omega]
    · rw [if_neg hm, show n % 8 = 0 by omega]; rfl
  rw [shiftMicros, pinsOf_append, pinsOf_bytes, hl, hbulk, hrest]
  conv => rhs; rw [show n = 8 * (n / 8) + n % 8 by omega, bits_add, List.map_append, List.map_map]
  rfl

/-- A shift that does not read returns nothing. -/
theorem answers_shiftMicros_silent (sr : Byte) (t : Bool) (buf : List Byte) (n : ℕ) (r : List Bool) :
    answers sr (shiftMicros t buf n false) r = (sr, []) := by
  have hbits : ∀ d k, bitMicros t d k false = ((List.range k).map fun i => (⟨t, d.getLsbD i⟩ : Pins)).map
      (.clk · false) := by
    intro d k; simp [bitMicros]
  have hflat : ∀ bs : List Byte, bs.flatMap (fun b => bitMicros t b 8 false) =
      (bs.flatMap fun b => (List.range 8).map fun i => (⟨t, b.getLsbD i⟩ : Pins)).map (.clk · false) := by
    intro bs; simp only [List.map_flatMap, hbits]
  have hrest : (if 0 < n % 8 then bitMicros t (buf.getD (n / 8) 0) (n % 8) false else []) =
      (if 0 < n % 8 then (List.range (n % 8)).map fun i => (⟨t, (buf.getD (n / 8) 0).getLsbD i⟩ : Pins)
        else []).map (.clk · false) := by
    rw [hbits]; split <;> rfl
  rw [shiftMicros, hflat, hrest, ← List.map_append, answers_silent]

/-- A shift that reads returns the samples: whole bytes, packed, and then a byte whose top
bits are the samples that remain. -/
theorem answers_shiftMicros (sr : Byte) (t : Bool) {buf : List Byte} {r : List Bool}
    (h : r.length ≤ 8 * buf.length) :
    ∃ s, (answers sr (shiftMicros t buf r.length true) r).2 = packBits (r.take (8 * (r.length / 8))) ++
      if 0 < r.length % 8 then [readByte s (r.drop (8 * (r.length / 8)))] else [] := by
  have hl : (buf.take (r.length / 8)).length = r.length / 8 := by simp; omega
  have ht : (r.take (8 * (r.length / 8))).length = 8 * (r.length / 8) := by simp; omega
  refine ⟨(answers sr ((buf.take (r.length / 8)).flatMap fun b => bitMicros t b 8 true)
    (r.take (8 * (r.length / 8)))).1, ?_⟩
  have hsplit := answers_append sr ((buf.take (r.length / 8)).flatMap fun b => bitMicros t b 8 true)
    (if 0 < r.length % 8 then bitMicros t (buf.getD (r.length / 8) 0) (r.length % 8) true else [])
    (r.take (8 * (r.length / 8))) (r.drop (8 * (r.length / 8)))
    (by rw [pinsOf_bytes, hl, List.length_map, length_bits, ht])
  rw [List.take_append_drop] at hsplit
  rw [shiftMicros, hsplit, answers_bytes _ _ _ _ (by rw [ht, hl])]
  by_cases hm : 0 < r.length % 8
  · rw [if_pos hm, if_pos hm, bitMicros_eq, answers_block _ _ _ _ (by simp; omega), if_pos rfl]; rfl
  · rw [if_neg hm, if_neg hm]; rfl

/-! ### The link -/

variable {σ : Type} (T : Target σ)

/-- A chip, its receive queue, the hardware on its pins, and the record of those pins. -/
structure Link (σ : Type) where
  /-- The MPSSE engine. -/
  chip : Mpsse
  /-- The engine's input register. -/
  sr : Byte
  /-- The bytes waiting to be read by the host. -/
  rx : List Byte
  /-- The hardware. -/
  port : Port σ
  /-- Every TCK cycle so far. -/
  trace : List Cycle

namespace Link

/-- One micro-operation. -/
def micro (l : Link σ) : Micro → Link σ
  | .clk p sample =>
    { l with
      sr := if sample then shiftIn l.sr (l.port.cycle T p).tdo else l.sr
      port := l.port.clock T p
      trace := l.trace ++ [l.port.cycle T p] }
  | .push => { l with rx := l.rx ++ [l.sr] }
  | .reply b => { l with rx := l.rx ++ [b] }

/-- A string of micro-operations. -/
def micros (l : Link σ) (ms : List Micro) : Link σ := ms.foldl (micro T) l

/-- The chip receives bytes from the host, and acts on them. -/
def receive (l : Link σ) (bs : List Byte) : Link σ :=
  micros T { l with chip := (l.chip.feed bs).1 } (l.chip.feed bs).2

/-- What a string of micro-operations does, part by part. -/
theorem micros_eq (l : Link σ) (ms : List Micro) :
    l.micros T ms =
      { chip := l.chip
        sr := (answers l.sr ms ((l.port.cycles T (pinsOf ms)).map Cycle.tdo)).1
        rx := l.rx ++ (answers l.sr ms ((l.port.cycles T (pinsOf ms)).map Cycle.tdo)).2
        port := l.port.run T (pinsOf ms)
        trace := l.trace ++ l.port.cycles T (pinsOf ms) } := by
  induction ms generalizing l with
  | nil => simp [micros, answers]
  | cons m ms ih =>
    show (l.micro T m).micros T ms = _
    rw [ih]
    cases m <;> simp [micro, pinsOf, answers]

/-- Whole commands received between commands. -/
theorem receive_of_runs {l : Link σ} {t t' : Bool} {bs : List Byte} {ms : List Micro}
    (hp : l.chip.phase = .ready) (ht : l.chip.tms = t) (h : Runs t bs t' ms) :
    (l.receive T bs).chip.phase = .ready ∧ (l.receive T bs).chip.tms = t' ∧
      (l.receive T bs).rx = l.rx ++ (answers l.sr ms ((l.port.cycles T (pinsOf ms)).map Cycle.tdo)).2 ∧
      (l.receive T bs).port = l.port.run T (pinsOf ms) ∧
      (l.receive T bs).trace = l.trace ++ l.port.cycles T (pinsOf ms) := by
  obtain ⟨d', e⟩ := h l.chip.tdi
  have hc : l.chip = ⟨.ready, t, l.chip.tdi⟩ := by rw [← hp, ← ht]
  rw [receive, hc, e, micros_eq]
  exact ⟨rfl, rfl, rfl, rfl, rfl⟩

end Link

end OwlTap.Ftdi
