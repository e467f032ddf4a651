import OwlTap.BoundaryScan.Staging
import OwlTap.Bsdl.CellPlaces

/-!
# Staged pins read back

A pin that was staged to an output value, or to high impedance, should read back so, and no
other cell's bit should change. Setter and getter each derive the control bit's meaning from
the output cell, and they agree unless the control cell is a gap of the register, the output
cell itself (an open-drain cell), or has no disable value (`Readable`).
-/

namespace OwlTap.BoundaryScan

open OwlTap Bsdl

/-! ### Bits set and read -/

/-- A bit of a byte after one of them was set. -/
theorem getLsbD_set_bit (b : Byte) (j : ℕ) (value : Bool) {k : ℕ} (hk : k < 8) :
    (if value then b ||| 1#8 <<< j else b &&& ~~~(1#8 <<< j)).getLsbD k =
      if k = j then value else b.getLsbD k := by
  by_cases hkj : k = j
  · rw [if_pos hkj]
    cases value
    · rw [if_neg Bool.false_ne_true, BitVec.getLsbD_and, BitVec.getLsbD_not, getLsbD_one_shiftLeft hk,
        decide_eq_true hkj, Bool.not_true, Bool.and_false, Bool.and_false]
    · rw [if_pos rfl, BitVec.getLsbD_or, getLsbD_one_shiftLeft hk, decide_eq_true hkj, Bool.or_true]
  · rw [if_neg hkj]
    cases value
    · rw [if_neg Bool.false_ne_true, BitVec.getLsbD_and, BitVec.getLsbD_not, getLsbD_one_shiftLeft hk,
        decide_eq_false hkj, decide_eq_true hk, Bool.not_false, Bool.and_true, Bool.and_true]
    · rw [if_pos rfl, BitVec.getLsbD_or, getLsbD_one_shiftLeft hk, decide_eq_false hkj, Bool.or_false]

theorem setBit_eq {buf : List Byte} {p : ℕ} (hp : p < 8 * buf.length) (value : Bool) : setBit buf p value =
    buf.modify (p / 8) fun b => if value then b ||| 1#8 <<< (p % 8) else b &&& ~~~(1#8 <<< (p % 8)) := by
  have hroom : p / 8 + 1 - buf.length = 0 := by omega
  rw [setBit, if_neg (Int.not_lt.mpr (Int.natCast_nonneg p))]
  simp only [Int.toNat_natCast, hroom, List.replicate_zero, List.append_nil]

/-- A bit of a buffer after one of them was set. -/
theorem bitAt_setBit {buf : List Byte} {p : ℕ} (hp : p < 8 * buf.length) (value : Bool) (i : ℕ) :
    bitAt (setBit buf p value) i = if i = p then value else bitAt buf i := by
  rw [setBit_eq hp, bitAt, bitAt, List.getD_eq_getElem?_getD, List.getD_eq_getElem?_getD, List.getElem?_modify]
  by_cases hi : p / 8 = i / 8
  · have hlt : i / 8 < buf.length := by omega
    have hiff : i % 8 = p % 8 ↔ i = p := by omega
    simp only [if_pos hi, List.getElem?_eq_getElem hlt]
    refine (getLsbD_set_bit _ _ _ (Nat.mod_lt _ (by decide))).trans ?_
    simp only [hiff, Option.getD_some]
  · have hne : ¬i = p := fun h => hi (by rw [h])
    simp only [if_neg hi, if_neg hne, Option.map_eq_map, Option.map_id_fun', id_eq]

theorem setBit_of_neg {position : ℤ} (h : position < 0) (buf : List Byte) (value : Bool) :
    setBit buf position value = buf := if_pos h

theorem getBit_of_neg {position : ℤ} (h : position < 0) (buf : List Byte) : getBit buf position = false := if_pos h

theorem getBit_natCast (buf : List Byte) (p : ℕ) : getBit buf p = bitAt buf p := by
  rw [getBit, if_neg (Int.not_lt.mpr (Int.natCast_nonneg p)), Int.toNat_natCast]

theorem length_setBit {buf : List Byte} {position : ℤ} (hp : position < 8 * buf.length) (value : Bool) :
    (setBit buf position value).length = buf.length := by
  rcases Int.lt_or_le position 0 with hneg | h0
  · rw [setBit_of_neg hneg]
  · obtain ⟨p, rfl⟩ := Int.eq_ofNat_of_zero_le h0
    rw [setBit_eq (by omega), List.length_modify]

/-- A bit that was set reads so, and no other changes. -/
theorem getBit_setBit {buf : List Byte} {position : ℤ} (hp : position < 8 * buf.length) (value : Bool) {i : ℤ}
    (hi : 0 ≤ i) : getBit (setBit buf position value) i = if i = position then value else getBit buf i := by
  obtain ⟨i, rfl⟩ := Int.eq_ofNat_of_zero_le hi
  rcases Int.lt_or_le position 0 with hneg | h0
  · rw [setBit_of_neg hneg, if_neg (by omega)]
  · obtain ⟨p, rfl⟩ := Int.eq_ofNat_of_zero_le h0
    rw [getBit_natCast, getBit_natCast, bitAt_setBit (by omega)]
    simp only [Int.natCast_inj]

/-! ### The calls, on the caller's buffer -/

namespace InPlace

/-- Stage a pin's output value in the caller's buffer: whether it was done, and the buffer after. -/
def stagePinOutput (bsrData : List Byte) (device : BSDLDevice) (pinName : Text) (value : ℤ) : Bool × List Byte :=
  match device.getOutputCellForPin pinName with
  | none => (false, bsrData)
  | some outputCell =>
    let bsrData := setBit bsrData outputCell.position (value ≠ 0)
    match device.getControlCellFor outputCell with
    | none => (true, bsrData)
    | some controlCell => (true, setBit bsrData controlCell.position (outputCell.disableValue = 0))

/-- Stage a pin's high impedance in the caller's buffer. -/
def stagePinHighZ (bsrData : List Byte) (device : BSDLDevice) (pinName : Text) : Bool × List Byte :=
  match device.getOutputCellForPin pinName with
  | none => (false, bsrData)
  | some outputCell =>
    if outputCell.function ≠ .output3 ∧ outputCell.function ≠ .bidir then (false, bsrData)
    else
      match device.getControlCellFor outputCell with
      | none => (false, bsrData)
      | some controlCell => (true, setBit bsrData controlCell.position (outputCell.disableValue ≠ 0))

/-- The buffer that a call which succeeds hands back is the caller's buffer after it. -/
theorem stagePinOutput_iff {buf buf' : List Byte} {dev : BSDLDevice} {pin : Text} {v : ℤ} :
    stagePinOutput buf dev pin v = (true, buf') ↔ BoundaryScan.stagePinOutput buf dev pin v = .ok buf' := by
  unfold stagePinOutput BoundaryScan.stagePinOutput
  cases dev.getOutputCellForPin pin with
  | none => exact ⟨nofun, nofun⟩
  | some c =>
    cases hk : dev.getControlCellFor c with
    | none => simp only [hk, Prod.mk.injEq, true_and, Except.ok.injEq]
    | some k => simp only [hk, Prod.mk.injEq, true_and, Except.ok.injEq]

theorem stagePinHighZ_iff {buf buf' : List Byte} {dev : BSDLDevice} {pin : Text} :
    stagePinHighZ buf dev pin = (true, buf') ↔ BoundaryScan.stagePinHighZ buf dev pin = .ok buf' := by
  unfold stagePinHighZ BoundaryScan.stagePinHighZ
  cases dev.getOutputCellForPin pin with
  | none => exact ⟨nofun, nofun⟩
  | some c =>
    by_cases hf : c.function ≠ .output3 ∧ c.function ≠ .bidir
    · simp only [if_pos hf, Prod.mk.injEq, Bool.false_eq_true, false_and, reduceCtorEq]
    · cases hk : dev.getControlCellFor c with
      | none => simp only [if_neg hf, hk, Prod.mk.injEq, Bool.false_eq_true, false_and, reduceCtorEq]
      | some k => simp only [if_neg hf, hk, Prod.mk.injEq, true_and, Except.ok.injEq]

end InPlace

/-! ### A pin's cells -/

/-- The positions of a pin's output cell and of its control cell. -/
def CellOf (dev : BSDLDevice) (pin : Text) (i : ℕ) : Prop :=
  ∃ c, dev.getOutputCellForPin pin = some c ∧
    (c.position = i ∨ ∃ k, dev.getControlCellFor c = some k ∧ k.position = i)

/-- What staging a pin is for. -/
structure RoundTrips (dev : BSDLDevice) (buf : List Byte) (pin : Text) (v : ℤ) : Prop where
  /-- An output value reads back. -/
  output : ∀ buf', InPlace.stagePinOutput buf dev pin v = (true, buf') →
    getStagedPinValue buf' dev pin = if v ≠ 0 then 1 else 0
  /-- High impedance reads back. -/
  highZ : ∀ buf', InPlace.stagePinHighZ buf dev pin = (true, buf') → getStagedPinValue buf' dev pin = -1
  /-- Only the pin's own bits change, and the size never does. -/
  frame : ∀ r ∈ [InPlace.stagePinOutput buf dev pin v, InPlace.stagePinHighZ buf dev pin],
    r.2.length = buf.length ∧ ∀ i, ¬CellOf dev pin i → bitAt r.2 i = bitAt buf i
  /-- A call that fails leaves the buffer. -/
  failed : ∀ r ∈ [InPlace.stagePinOutput buf dev pin v, InPlace.stagePinHighZ buf dev pin], r.1 = false → r.2 = buf

/-- The cells on which setter and getter agree about value `v`: no control cell; or another cell
of the register, with a disable value if the pin has high impedance. The output cell itself has
its one bit mean both, and a gap holds no bit. -/
def Readable (dev : BSDLDevice) (pin : Text) (v : ℤ) : Prop :=
  ∀ c k, dev.getOutputCellForPin pin = some c → dev.getControlCellFor c = some k →
    (c.function = .output3 ∨ c.function = .bidir → c.disableValue = 0 ∨ c.disableValue = 1) ∧
    (k.position = c.position → (v ≠ 0 ↔ c.disableValue = 0)) ∧
    (k.position = -1 → c.disableValue ≠ 0 ∧ c.function = .output2)

/-- An output cell of a parsed device is one, at a position of the register. -/
theorem output_cell {dev : BSDLDevice} (hp : BSDLParser.Placed dev) {pin : Text} {c : BoundaryCell}
    (hc : dev.getOutputCellForPin pin = some c) :
    (0 ≤ c.position ∧ c.position < dev.boundaryLength) ∧
      (c.function = .output2 ∨ c.function = .output3 ∨ c.function = .bidir) := by
  unfold BSDLDevice.getOutputCellForPin at hc
  have hout : c.function = .output2 ∨ c.function = .output3 ∨ c.function = .bidir := by
    have := List.find?_some hc
    simp only [decide_eq_true_eq] at this
    exact of_decide_eq_true this.2
  obtain ⟨i, hi, rfl⟩ := List.mem_iff_getElem.mp (List.mem_of_find?_eq_some hc)
  rcases hp.at_position (List.getElem?_eq_getElem hi) with he | he
  · have := hp.length_eq
    exact ⟨by omega, hout⟩
  · rw [he] at hout
    exact absurd hout (by decide)

/-- A control cell of a parsed device is at a position of the register, or is a gap. -/
theorem control_cell {dev : BSDLDevice} (hp : BSDLParser.Placed dev) {c k : BoundaryCell}
    (hk : dev.getControlCellFor c = some k) : (0 ≤ k.position ∧ k.position < dev.boundaryLength) ∨ k.position = -1 := by
  obtain ⟨i, hk⟩ : ∃ i : ℕ, dev.boundaryCells[i]? = some k := by
    rw [BSDLDevice.getControlCellFor] at hk
    split at hk
    next h0 =>
      rw [BSDLDevice.getCellAt, if_pos h0] at hk
      exact ⟨_, hk⟩
    · cases hk
  obtain ⟨hi, -⟩ := List.getElem?_eq_some_iff.mp hk
  rcases hp.at_position hk with he | he
  · have := hp.length_eq
    exact .inl (by omega)
  · exact .inr (by rw [he])

/-! ### Read back -/

section ReadBack

variable {dev : BSDLDevice} {buf : List Byte} {pin : Text} {v : ℤ} {c : BoundaryCell}

theorem staged_of_no_control (hc : dev.getOutputCellForPin pin = some c) (hk : dev.getControlCellFor c = none) :
    getStagedPinValue buf dev pin = if getBit buf c.position then 1 else 0 := by
  simp only [getStagedPinValue, hc, hk, Bool.false_eq_true, if_false]

theorem staged_of_control {k : BoundaryCell} (hc : dev.getOutputCellForPin pin = some c)
    (hk : dev.getControlCellFor c = some k) :
    getStagedPinValue buf dev pin =
      if (if getBit buf k.position then 1 else 0 : ℤ) = c.disableValue then -1
      else if getBit buf c.position then 1 else 0 := by
  simp only [getStagedPinValue, hc, hk, decide_eq_true_eq]

/-- Two bits as numbers. -/
theorem one_zero_inj {a b : Prop} [Decidable a] [Decidable b] :
    (if a then 1 else 0 : ℤ) = (if b then 1 else 0) ↔ (a ↔ b) := by
  by_cases ha : a <;> by_cases hb : b <;> simp [ha, hb]

/-- A control bit that was set to enable does not disable. -/
theorem enables (d : ℤ) : ¬(if d = 0 then 1 else 0 : ℤ) = d := by
  by_cases h0 : d = 0
  · rw [if_pos h0, h0]; decide
  · rw [if_neg h0]; exact Ne.symm h0

/-- A control bit that was set to disable does, when there is a disable value. -/
theorem disables_iff (d : ℤ) : (if d ≠ 0 then 1 else 0 : ℤ) = d ↔ d = 0 ∨ d = 1 := by
  by_cases h0 : d = 0
  · rw [if_neg (not_not.mpr h0)]; exact ⟨fun _ => .inl h0, fun _ => h0.symm⟩
  · rw [if_pos h0]; exact ⟨fun h => .inr h.symm, fun h => (h.resolve_left h0).symm⟩

/-- An output value reads back if and only if the control cell's bit is another one, or the one
that the value wants, or is not there and does not disable. -/
theorem output_reads_iff (hp : BSDLParser.Placed dev) (hlen : buf.length = bytesFor dev.boundaryLength)
    (hc : dev.getOutputCellForPin pin = some c) :
    (∀ buf', InPlace.stagePinOutput buf dev pin v = (true, buf') →
        getStagedPinValue buf' dev pin = if v ≠ 0 then 1 else 0) ↔
      ∀ k, dev.getControlCellFor c = some k →
        (k.position = c.position → (v ≠ 0 ↔ c.disableValue = 0)) ∧ (k.position = -1 → c.disableValue ≠ 0) := by
  obtain ⟨⟨h0, hlt⟩, -⟩ := output_cell hp hc
  have hroom : ∀ {i : ℤ}, i < dev.boundaryLength → i < 8 * buf.length := fun hi => by
    rw [hlen, bytesFor]
    omega
  have hset : getBit (setBit buf c.position (v ≠ 0)) c.position = decide (v ≠ 0) := by
    rw [getBit_setBit (hroom hlt) _ h0, if_pos rfl]
  cases hk : dev.getControlCellFor c with
  | none =>
    refine ⟨fun _ => nofun, fun _ buf' h => ?_⟩
    simp only [InPlace.stagePinOutput, hc, hk, Prod.mk.injEq, true_and] at h
    rw [← h, staged_of_no_control hc hk, hset]
    simp only [decide_eq_true_eq]
  | some k =>
    have hcall : InPlace.stagePinOutput buf dev pin v =
        (true, setBit (setBit buf c.position (v ≠ 0)) k.position (c.disableValue = 0)) := by
      simp only [InPlace.stagePinOutput, hc, hk]
    simp only [hcall, Prod.mk.injEq, true_and, forall_eq', Option.some.injEq]
    rw [staged_of_control hc hk]
    rcases control_cell hp hk with ⟨hk0, hklt⟩ | hgap
    · have hkroom : k.position < 8 * (setBit buf c.position (v ≠ 0)).length := by
        rw [length_setBit (hroom hlt)]
        exact hroom hklt
      have hnogap : k.position ≠ -1 := by omega
      -- the control bit is as it was set, and it enables
      rw [getBit_setBit hkroom _ hk0, if_pos rfl, getBit_setBit hkroom _ h0, hset]
      simp only [decide_eq_true_eq, enables, if_false]
      by_cases hself : c.position = k.position
      · rw [if_pos hself]
        simp only [decide_eq_true_eq, one_zero_inj]
        exact ⟨fun h => ⟨fun _ => h.symm, fun e => absurd e hnogap⟩, fun h => (h.1 hself.symm).symm⟩
      · rw [if_neg hself]
        simp only [decide_eq_true_eq, true_iff]
        exact ⟨fun e => absurd e.symm hself, fun e => absurd e hnogap⟩
    · -- the gap holds no bit
      have hself : k.position ≠ c.position := by omega
      rw [setBit_of_neg (by omega), getBit_of_neg (by omega), hset, if_neg Bool.false_ne_true]
      by_cases hd : 0 = c.disableValue
      · rw [if_pos hd]
        exact ⟨fun h => absurd h (by split <;> decide), fun h => absurd hd.symm (h.2 hgap)⟩
      · rw [if_neg hd]
        simp only [decide_eq_true_eq, true_iff]
        exact ⟨fun e => absurd e hself, fun _ => Ne.symm hd⟩

/-- High impedance reads back if and only if the control cell has a disable value, and is there
unless its bit is to be clear. -/
theorem highZ_reads_iff (hp : BSDLParser.Placed dev) (hlen : buf.length = bytesFor dev.boundaryLength)
    (hc : dev.getOutputCellForPin pin = some c) :
    (∀ buf', InPlace.stagePinHighZ buf dev pin = (true, buf') → getStagedPinValue buf' dev pin = -1) ↔
      ∀ k, dev.getControlCellFor c = some k → c.function = .output3 ∨ c.function = .bidir →
        (c.disableValue = 0 ∨ c.disableValue = 1) ∧ (k.position = -1 → c.disableValue = 0) := by
  have hcall : InPlace.stagePinHighZ buf dev pin = if c.function = .output3 ∨ c.function = .bidir then
      (match dev.getControlCellFor c with
        | none => (false, buf)
        | some k => (true, setBit buf k.position (c.disableValue ≠ 0)))
      else (false, buf) := by
    simp only [InPlace.stagePinHighZ, hc, ne_eq, ← not_or, ite_not]
  rw [hcall]
  by_cases htri : c.function = .output3 ∨ c.function = .bidir
  swap
  · rw [if_neg htri]
    exact ⟨fun _ _ _ h => absurd h htri, fun _ => nofun⟩
  rw [if_pos htri]
  cases hk : dev.getControlCellFor c with
  | none => exact ⟨fun _ => nofun, fun _ => nofun⟩
  | some k =>
    simp only [Prod.mk.injEq, true_and, forall_eq', Option.some.injEq, htri, true_implies]
    rw [staged_of_control hc hk]
    have hbit : ∀ b : Bool, ¬(if b then 1 else 0 : ℤ) = -1 := by decide
    rcases control_cell hp hk with ⟨hk0, hklt⟩ | hgap
    · have hroom : k.position < 8 * buf.length := by
        rw [hlen, bytesFor]
        omega
      have hnogap : k.position ≠ -1 := by omega
      rw [getBit_setBit hroom _ hk0, if_pos rfl]
      simp only [decide_eq_true_eq, ite_eq_left_iff, hbit, imp_false, not_not, disables_iff]
      exact ⟨fun h => ⟨h, fun e => absurd e hnogap⟩, And.left⟩
    · rw [setBit_of_neg (by omega), getBit_of_neg (by omega), if_neg Bool.false_ne_true]
      simp only [ite_eq_left_iff, hbit, imp_false, not_not]
      exact ⟨fun h => ⟨.inl h.symm, fun _ => h.symm⟩, fun h => (h.2 hgap).symm⟩

/-! ### What else changes -/

theorem bitAt_setBit_of_ne {position : ℤ} (hp : position < 8 * buf.length) (value : Bool) {i : ℕ}
    (hi : position ≠ i) : bitAt (setBit buf position value) i = bitAt buf i := by
  have := getBit_setBit hp value (Int.natCast_nonneg i)
  rwa [if_neg (Ne.symm hi), getBit_natCast, getBit_natCast] at this

/-- Staging an output value touches the pin's bits only. -/
theorem output_frame (hp : BSDLParser.Placed dev) (hlen : buf.length = bytesFor dev.boundaryLength) :
    (InPlace.stagePinOutput buf dev pin v).2.length = buf.length ∧
      ∀ i, ¬CellOf dev pin i → bitAt (InPlace.stagePinOutput buf dev pin v).2 i = bitAt buf i := by
  have hroom : ∀ {i : ℤ}, i < dev.boundaryLength → i < 8 * buf.length := fun hi => by
    rw [hlen, bytesFor]
    omega
  cases hc : dev.getOutputCellForPin pin with
  | none =>
    rw [InPlace.stagePinOutput, hc]
    exact ⟨rfl, fun _ _ => rfl⟩
  | some c =>
    obtain ⟨⟨h0, hlt⟩, -⟩ := output_cell hp hc
    have hlen₁ := length_setBit (hroom hlt) (v ≠ 0)
    have hkeep : ∀ i, ¬CellOf dev pin i → bitAt (setBit buf c.position (v ≠ 0)) i = bitAt buf i := fun i hi =>
      bitAt_setBit_of_ne (hroom hlt) _ fun e => hi ⟨c, hc, .inl e⟩
    rw [InPlace.stagePinOutput, hc]
    cases hk : dev.getControlCellFor c with
    | none =>
      simp only [hk]
      exact ⟨hlen₁, hkeep⟩
    | some k =>
      simp only [hk]
      have hkroom : k.position < 8 * (setBit buf c.position (v ≠ 0)).length := by
        rw [hlen₁]
        exact (control_cell hp hk).elim (fun h => hroom h.2) fun h => by omega
      refine ⟨(length_setBit hkroom _).trans hlen₁, fun i hi => ?_⟩
      exact (bitAt_setBit_of_ne hkroom _ fun e => hi ⟨c, hc, .inr ⟨k, hk, e⟩⟩).trans (hkeep i hi)

/-- Staging high impedance touches the pin's bits only. -/
theorem highZ_frame (hp : BSDLParser.Placed dev) (hlen : buf.length = bytesFor dev.boundaryLength) :
    (InPlace.stagePinHighZ buf dev pin).2.length = buf.length ∧
      ∀ i, ¬CellOf dev pin i → bitAt (InPlace.stagePinHighZ buf dev pin).2 i = bitAt buf i := by
  unfold InPlace.stagePinHighZ
  split
  · exact ⟨rfl, fun _ _ => rfl⟩
  next c hc =>
    split
    · exact ⟨rfl, fun _ _ => rfl⟩
    split
    · exact ⟨rfl, fun _ _ => rfl⟩
    next k hk =>
      have hkroom : k.position < 8 * buf.length := by
        rw [hlen, bytesFor]
        rcases control_cell hp hk with h | h <;> omega
      exact ⟨length_setBit hkroom _, fun i hi => bitAt_setBit_of_ne hkroom _ fun e => hi ⟨c, hc, .inr ⟨k, hk, e⟩⟩⟩

end ReadBack

/-- A call that fails leaves the buffer. -/
theorem failed_leaves (dev : BSDLDevice) (buf : List Byte) (pin : Text) (v : ℤ) :
    ∀ r ∈ [InPlace.stagePinOutput buf dev pin v, InPlace.stagePinHighZ buf dev pin], r.1 = false → r.2 = buf := by
  intro r hr hfail
  rcases List.mem_pair.mp hr with rfl | rfl
  · unfold InPlace.stagePinOutput at hfail ⊢
    split
    · rfl
    next c hc =>
      simp only [hc] at hfail
      split at hfail <;> cases hfail
  · unfold InPlace.stagePinHighZ at hfail ⊢
    split
    · rfl
    next c hc =>
      simp only [hc] at hfail
      split
      · rfl
      next hf =>
        rw [if_neg hf] at hfail
        split
        · rfl
        next hk =>
          rw [hk] at hfail
          cases hfail

/-- Staging a pin of a parsed device round trips if and only if its cells are readable. -/
theorem roundTrips_iff {source : Text} {dev : BSDLDevice} (h : BSDLParser.parseString source = some dev)
    {buf : List Byte} (hlen : buf.length = bytesFor dev.boundaryLength) (pin : Text) (v : ℤ) :
    RoundTrips dev buf pin v ↔ Readable dev pin v := by
  have hp : BSDLParser.Placed dev := BSDLParser.placed_empty.changes (BSDLParser.parseString_changes h)
  constructor
  · intro hrt c k hc hk
    have hout := (output_reads_iff hp hlen hc).mp hrt.output k hk
    have hhigh := (highZ_reads_iff hp hlen hc).mp hrt.highZ k hk
    refine ⟨fun htri => (hhigh htri).1, hout.1, fun hgap => ⟨hout.2 hgap, ?_⟩⟩
    exact (output_cell hp hc).2.resolve_right fun htri => hout.2 hgap ((hhigh htri).2 hgap)
  · intro hr
    refine ⟨fun buf' hcall => ?_, fun buf' hcall => ?_, ?_, failed_leaves dev buf pin v⟩
    · cases hc : dev.getOutputCellForPin pin with
      | none =>
        rw [InPlace.stagePinOutput, hc] at hcall
        cases hcall
      | some c =>
        exact (output_reads_iff hp hlen hc).mpr
          (fun k hk => ⟨(hr c k hc hk).2.1, fun hgap => ((hr c k hc hk).2.2 hgap).1⟩) buf' hcall
    · cases hc : dev.getOutputCellForPin pin with
      | none =>
        rw [InPlace.stagePinHighZ, hc] at hcall
        cases hcall
      | some c =>
        refine (highZ_reads_iff hp hlen hc).mpr (fun k hk htri => ⟨(hr c k hc hk).1 htri, fun hgap => ?_⟩) buf' hcall
        rw [((hr c k hc hk).2.2 hgap).2] at htri
        exact absurd htri (by decide)
    · intro r hr
      rcases List.mem_pair.mp hr with rfl | rfl
      · exact output_frame hp hlen
      · exact highZ_frame hp hlen

/-- A register of one open-drain cell, which is its own control cell. -/
def openDrainText : Text :=
  ("attribute BOUNDARY_LENGTH of x : entity is 1;\n" ++
    "attribute BOUNDARY_REGISTER of x : entity is \"0 (BC_1, P, output2, 1, 0, 1, PULL1)\";").toList

/-- What the functions here read of a parsed device. -/
theorem openDrain_parsed : ∃ dev, BSDLParser.parseString openDrainText = some dev ∧ dev.boundaryLength = 1 ∧
    ∃ c, dev.getOutputCellForPin ['P'] = some c ∧ dev.getControlCellFor c = some c ∧
      c.position = 0 ∧ c.function = .output2 ∧ c.disableValue = 1 := by
  obtain ⟨dev, h⟩ := Option.isSome_iff_exists.mp
    (show (BSDLParser.parseString openDrainText).isSome from by decide +kernel)
  have hread : (BSDLParser.parseString openDrainText).map (fun d => (d.boundaryLength, d.boundaryCells)) =
      some (1, [⟨0, "BC_1".toList, ['P'], .output2, 1, 0, 1, .pull1⟩]) := by
    decide +kernel
  rw [h, Option.map_some, Option.some.injEq, Prod.mk.injEq] at hread
  refine ⟨dev, h, hread.1, ⟨0, "BC_1".toList, ['P'], .output2, 1, 0, 1, .pull1⟩, ?_, ?_, rfl, rfl, rfl⟩
  · rw [BSDLDevice.getOutputCellForPin, hread.2]
    rfl
  · rw [BSDLDevice.getControlCellFor, BSDLDevice.getCellAt, hread.2]
    rfl

/-- Staging 1 to the open-drain pin reads back 0: the control bit, which is the same one, is
cleared after it. -/
theorem open_drain_high_reads_low : ∃ dev, BSDLParser.parseString openDrainText = some dev ∧
    [(0 : Byte)].length = bytesFor dev.boundaryLength ∧ ¬RoundTrips dev [0] ['P'] 1 := by
  obtain ⟨dev, h, hl, c, hc, hk, hpos, -, hdis⟩ := openDrain_parsed
  refine ⟨dev, h, by rw [hl]; rfl, fun hrt => ?_⟩
  have hcall : InPlace.stagePinOutput [0] dev ['P'] 1 = (true, [0]) := by
    simp only [InPlace.stagePinOutput, hc, hk, hpos, hdis]
    decide
  have := hrt.output _ hcall
  rw [staged_of_control hc hk, hpos, hdis] at this
  exact absurd this (by decide)

/-- Staging 0 to it reads back. -/
theorem open_drain_low_reads_low : ∃ dev, BSDLParser.parseString openDrainText = some dev ∧
    RoundTrips dev [0] ['P'] 0 := by
  obtain ⟨dev, h, hl, c, hc, hk, hpos, hf, hdis⟩ := openDrain_parsed
  refine ⟨dev, h, (roundTrips_iff h (by rw [hl]; rfl) _ _).mpr fun c' k hc' hk' => ?_⟩
  rw [hc] at hc'
  obtain rfl := Option.some.inj hc'
  rw [hk] at hk'
  obtain rfl := Option.some.inj hk'
  rw [hpos, hf, hdis]
  decide

end OwlTap.BoundaryScan
