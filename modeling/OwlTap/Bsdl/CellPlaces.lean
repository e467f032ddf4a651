import Mathlib.Data.List.TakeWhile
import Mathlib.Logic.Relation
import OwlTap.Bsdl.Parser

/-!
# Boundary cells are at their places

`Change` says what the parser can do to the device that it fills, one assignment at a
time; whatever the text is, the device that it returns comes from the empty one by such
changes (`parseString_changes`). Every change keeps each cell at the index that its
position names, and as many cells as the boundary length says (`Placed`).
-/

namespace OwlTap.Bsdl

namespace BSDLParser

/-! ### What the parser does to the device -/

/-- One assignment to the device. -/
inductive Change (dev : BSDLDevice) : BSDLDevice → Prop where
  /-- The header names the entity. -/
  | entityName (name : Text) : Change dev { dev with entityName := name }
  /-- Ports are added, or noted to be at a package pin. -/
  | pins (pins : AList fun _ : Text => PinInfo) : Change dev { dev with pins }
  /-- `INSTRUCTION_LENGTH`. -/
  | instructionLength (n : ℕ) : Change dev { dev with instructionLength := n }
  /-- An entry of `INSTRUCTION_OPCODE`. -/
  | instructions (ops : AList fun _ : Text => BitVec 32) : Change dev { dev with instructions := ops }
  /-- `BOUNDARY_LENGTH`, when it is in range. -/
  | boundaryLength {len : ℕ} : len ≤ kMaxBsrBits →
      Change dev { dev with boundaryLength := len, boundaryCells := resizeCells dev.boundaryCells len }
  /-- `BOUNDARY_REGISTER` makes room for the cells. -/
  | sizeCells : Change dev { dev with boundaryCells := resizeCells dev.boundaryCells dev.boundaryLength }
  /-- An entry of `BOUNDARY_REGISTER`. -/
  | storeCell {cell : BoundaryCell} {pos : ℕ} : cell.position = pos → Change dev (storeCell cell pos dev)
  /-- `IDCODE_REGISTER`. -/
  | idcode (code : IdCode) : Change dev { dev with idcode := code }
  /-- An entry of the pin map. -/
  | mapPin (name num : Text) : Change dev (mapPin name num dev)

/-- Any number of assignments. -/
abbrev Changes : BSDLDevice → BSDLDevice → Prop := Relation.ReflTransGen Change

theorem parseEntity_changes (ts : List Token) (dev : BSDLDevice) : Changes dev (parseEntity ts dev).2 := by
  simp only [parseEntity]
  split
  · exact .single (.entityName _)
  · exact .refl

theorem portList_changes (fuel : ℕ) (ts : List Token) (dev : BSDLDevice) : Changes dev (portList fuel ts dev).2 := by
  induction fuel generalizing ts dev with
  | zero => exact .refl
  | succ fuel ih =>
    simp only [portList]
    split
    · exact .refl
    split
    · split
      · exact ih _ _
      -- a declaration: its names become pins
      · have hadd : ∀ dir names, Changes dev (addPins dir names dev) := fun _ _ => .single (.pins _)
        split
        · exact hadd _ _
        · exact (hadd _ _).trans (ih _ _)
    · exact ih _ _

theorem parsePorts_changes (ts : List Token) (dev : BSDLDevice) : Changes dev (parsePorts ts dev).2 := by
  simp only [parsePorts]
  split
  · exact .refl
  · exact portList_changes _ _ _

theorem parseInstructionLength_changes {ts : List Token} {dev : BSDLDevice} {y : List Token × BSDLDevice}
    (h : parseInstructionLength ts dev = some y) : Changes dev y.2 := by
  simp only [parseInstructionLength] at h
  split at h
  · obtain ⟨n, -, rfl⟩ := Option.map_eq_some_iff.mp h
    exact .single (.instructionLength _)
  · cases h; exact .refl

theorem opcodes_changes {fuel : ℕ} {content : Text} {dev dev' : BSDLDevice}
    (h : opcodes fuel content dev = some dev') : Changes dev dev' := by
  induction fuel generalizing content dev with
  | zero => cases h; exact .refl
  | succ fuel ih =>
    simp only [opcodes] at h
    split at h
    · cases h; exact .refl
    split at h
    · exact ih h
    · obtain ⟨op, -, h⟩ := Option.bind_eq_some_iff.mp h
      exact .head (.instructions _) (ih h)

theorem parseBoundaryLength_changes (ts : List Token) (dev : BSDLDevice) :
    Changes dev (parseBoundaryLength ts dev).2 := by
  simp only [parseBoundaryLength]
  split
  next h => exact .single (.boundaryLength h.2.2)
  · exact .refl

/-- A string of digits is converted, unless it says too much. -/
theorem stoi_digits {s : Text} (hs : s ≠ []) (h : ∀ c ∈ s, c.isDigit) :
    stoi s = if digits s ≤ 2147483647 then some (digits s : ℤ) else none := by
  obtain ⟨c, cs, rfl⟩ := List.exists_cons_of_ne_nil hs
  have hc : c.isDigit := h c List.mem_cons_self
  have hne : ∀ d, ¬d.isDigit = true → c ≠ d := fun d hd e => hd (e ▸ hc)
  have hspace : ¬isSpace c = true := by
    intro he
    simp only [isSpace, Bool.and_eq_true, decide_eq_true_eq, Char.isDigit, Char.le_def,
      UInt32.le_iff_toNat_le, ge_iff_le] at he hc
    have h0 : '0'.val.toNat = 48 := rfl
    have h13 : '\r'.val.toNat = 13 := rfl
    rcases he with rfl | he
    · exact absurd hc.1 (by decide)
    · omega
  have hdrop : (c :: cs).dropWhile isSpace = c :: cs := List.dropWhile_cons_of_neg hspace
  have htake : (c :: cs).takeWhile Char.isDigit = c :: cs := List.takeWhile_eq_self_iff.mpr h
  rw [stoi, hdrop]
  simp only [List.head?_cons, Option.some.injEq, hne '-' (by decide), hne '+' (by decide), or_self, if_false, htake]
  have hlow : (-2147483648 : ℤ) ≤ digits (c :: cs) := by omega
  by_cases hmax : digits (c :: cs) ≤ 2147483647
  · rw [if_pos hmax, if_pos ⟨hs, hlow, by omega⟩]
  · rw [if_neg hmax, if_neg fun hall => hmax (by omega)]

theorem cells_changes {fuel : ℕ} {content : Text} {dev dev' : BSDLDevice}
    (h : cells fuel content dev = some dev') : Changes dev dev' := by
  induction fuel generalizing content dev with
  | zero => cases h; exact .refl
  | succ fuel ih =>
    simp only [cells] at h
    split at h
    · cases h; exact .refl
    split at h
    · exact ih h
    next hne =>
      obtain ⟨n, hn, h⟩ := Option.bind_eq_some_iff.mp h
      split at h
      · cases h; exact .refl
      · -- the number is a string of digits, so that it is not negative
        rw [stoi_digits hne fun c hc => List.mem_takeWhile_imp hc] at hn
        have hpos : n = n.toNat := by
          split at hn
          · cases hn; rfl
          · cases hn
        exact .head (.storeCell hpos) (ih h)

theorem pinMap_changes (fuel : ℕ) (content : Text) (dev : BSDLDevice) : Changes dev (pinMap fuel content dev) := by
  induction fuel generalizing content dev with
  | zero => exact .refl
  | succ fuel ih =>
    simp only [pinMap]
    split
    · exact .refl
    split
    · exact ih _ _
    split
    · exact .head (.mapPin _ _) (ih _ _)
    · exact ih _ _

theorem parseBoundaryRegister_changes {ts : List Token} {dev : BSDLDevice} {y : List Token × BSDLDevice}
    (h : parseBoundaryRegister ts dev = some y) : Changes dev y.2 := by
  obtain ⟨dev', h', rfl⟩ := Option.map_eq_some_iff.mp h
  split at h'
  · exact .head .sizeCells (cells_changes h')
  · exact cells_changes h'

theorem parseIdcodeRegister_changes (ts : List Token) (dev : BSDLDevice) :
    Changes dev (parseIdcodeRegister ts dev).2 := by
  simp only [parseIdcodeRegister]
  split
  · exact .single (.idcode _)
  · exact .refl

theorem parseAttribute_changes {ts : List Token} {dev : BSDLDevice} {y : List Token × BSDLDevice}
    (h : parseAttribute ts dev = some y) : Changes dev y.2 := by
  simp only [parseAttribute] at h
  split at h
  · cases h; exact .refl
  split at h
  · split at h
    · cases h; exact .refl
    · repeat' split at h
      · exact parseInstructionLength_changes h
      · obtain ⟨dev', h', rfl⟩ := Option.map_eq_some_iff.mp h
        exact opcodes_changes h'
      · cases h; exact parseBoundaryLength_changes _ _
      · exact parseBoundaryRegister_changes h
      · cases h; exact parseIdcodeRegister_changes _ _
      · cases h; exact pinMap_changes _ _ _
      · cases h; exact .refl
  · cases h; exact .refl

theorem parseLoop_changes {fuel : ℕ} {ts : List Token} {dev dev' : BSDLDevice}
    (h : parseLoop fuel ts dev = some dev') : Changes dev dev' := by
  induction fuel generalizing ts dev with
  | zero => cases h; exact .refl
  | succ fuel ih =>
    simp only [parseLoop] at h
    split at h
    · cases h; exact .refl
    split at h
    · exact (parseEntity_changes _ _).trans (ih h)
    split at h
    · exact (parsePorts_changes _ _).trans (ih h)
    split at h
    · obtain ⟨y, ha, h⟩ := Option.bind_eq_some_iff.mp h
      exact (parseAttribute_changes ha).trans (ih h)
    · exact ih h

/-- Whatever the text is, the parser fills the empty device by such changes. -/
theorem parseString_changes {source : Text} {dev : BSDLDevice} (h : parseString source = some dev) :
    Changes {} dev := by
  obtain ⟨dev₁, hloop, rfl⟩ := Option.map_eq_some_iff.mp h
  exact (parseLoop_changes hloop).tail (.pins _)

/-! ### The cells -/

theorem length_resizeCells (cells : List BoundaryCell) (n : ℕ) : (resizeCells cells n).length = n := by
  rw [resizeCells, List.length_append, List.length_take, List.length_replicate]
  omega

/-- A cell of the resized register was there, or is empty. -/
theorem mem_resizeCells {cells : List BoundaryCell} {n i : ℕ} {cell : BoundaryCell}
    (h : (resizeCells cells n)[i]? = some cell) : cells[i]? = some cell ∨ cell = {} := by
  rw [resizeCells, List.getElem?_append] at h
  split at h
  · rw [List.getElem?_take] at h
    split at h
    · exact .inl h
    · cases h
  · exact .inr (List.eq_of_mem_replicate (List.mem_of_getElem? h))

/-- As many cells as the boundary length says, within the limit, and each at the index that its
position names or empty. -/
structure Placed (dev : BSDLDevice) : Prop where
  /-- The number of cells. -/
  length_eq : dev.boundaryCells.length = dev.boundaryLength
  /-- The limit. -/
  length_le : dev.boundaryLength ≤ kMaxBsrBits
  /-- The places. -/
  at_position : ∀ {i : ℕ} {cell : BoundaryCell}, dev.boundaryCells[i]? = some cell → cell.position = i ∨ cell = {}

theorem placed_empty : Placed {} := ⟨rfl, Nat.zero_le _, fun h => by cases h⟩

/-- Setting a cell of a register whose cells are at their places. -/
theorem placed_set {cells : List BoundaryCell}
    (h : ∀ {i : ℕ} {cell : BoundaryCell}, cells[i]? = some cell → cell.position = i ∨ cell = {}) {new : BoundaryCell}
    {pos : ℕ} (hpos : new.position = pos) {i : ℕ} {cell : BoundaryCell} (hc : (cells.set pos new)[i]? = some cell) :
    cell.position = i ∨ cell = {} := by
  rw [List.getElem?_set] at hc
  split at hc
  next hi =>
    split at hc
    · cases hc; exact .inl (hi ▸ hpos)
    · cases hc
  · exact h hc

theorem Placed.storeCell {dev : BSDLDevice} (h : Placed dev) {cell : BoundaryCell} {pos : ℕ}
    (hpos : cell.position = pos) : Placed (storeCell cell pos dev) := by
  rw [BSDLParser.storeCell]
  split
  · refine ⟨?_, h.length_le, placed_set h.at_position hpos⟩
    rw [List.length_set]
    exact h.length_eq
  split
  next hmax =>
    refine ⟨?_, hmax, placed_set (fun hc => ?_) hpos⟩
    · rw [List.length_set, length_resizeCells]
    · exact (mem_resizeCells hc).elim h.at_position .inr
  · exact h

/-- Every change keeps the cells at their places. -/
theorem Placed.change {dev dev' : BSDLDevice} (h : Placed dev) (hc : Change dev dev') : Placed dev' := by
  cases hc with
  | boundaryLength hlen =>
    exact ⟨length_resizeCells _ _, hlen, fun hc => (mem_resizeCells hc).elim h.at_position .inr⟩
  | sizeCells => exact ⟨length_resizeCells _ _, h.length_le, fun hc => (mem_resizeCells hc).elim h.at_position .inr⟩
  | storeCell hpos => exact h.storeCell hpos
  | _ => exact ⟨h.length_eq, h.length_le, h.at_position⟩

theorem Placed.changes {dev dev' : BSDLDevice} (h : Placed dev) (hc : Changes dev dev') : Placed dev' := by
  induction hc with
  | refl => exact h
  | tail _ hc ih => exact ih.change hc

/-- Whatever the text is, the device that the parser returns has as many cells as its boundary
length says, within the limit, and each is at the index that its position names or is a gap
without a pin; so the cells with a pin are at positions below the boundary length. -/
theorem parseString_placed {source : Text} {dev : BSDLDevice} (h : parseString source = some dev) :
    dev.boundaryCells.length = dev.boundaryLength ∧ dev.boundaryLength ≤ kMaxBsrBits ∧
      (∀ (i : ℕ) (cell : BoundaryCell), dev.boundaryCells[i]? = some cell →
        cell.position = i ∨ (cell.position = -1 ∧ cell.hasPin = false)) ∧
      ∀ cell ∈ dev.boundaryCells, cell.hasPin = true → 0 ≤ cell.position ∧ cell.position < dev.boundaryLength := by
  have hp : Placed dev := placed_empty.changes (parseString_changes h)
  refine ⟨hp.length_eq, hp.length_le, fun i cell hc => ?_, fun cell hm hpin => ?_⟩
  · exact (hp.at_position hc).imp_right fun e => by rw [e]; exact ⟨rfl, rfl⟩
  · obtain ⟨i, hi, rfl⟩ := List.mem_iff_getElem.mp hm
    rcases hp.at_position (List.getElem?_eq_getElem hi) with he | he
    · rw [he, ← hp.length_eq]
      exact ⟨Int.natCast_nonneg i, Int.ofNat_lt.mpr hi⟩
    · rw [he] at hpin
      cases hpin

/-- A register whose cells come before its length, which cuts one off and leaves a gap. -/
def gapText : Text :=
  ("attribute BOUNDARY_REGISTER of x : entity is \"3 (BC_1, B, input, X), 0 (BC_1, A, input, X)\";\n" ++
    "attribute BOUNDARY_LENGTH of x : entity is 3;").toList

theorem gapText_placed : ∃ dev, parseString gapText = some dev ∧
    dev.boundaryCells.map BoundaryCell.position = [0, -1, -1] ∧ dev.boundaryCells.length = dev.boundaryLength := by
  obtain ⟨dev, h⟩ := Option.isSome_iff_exists.mp (show (parseString gapText).isSome from by decide +kernel)
  have hcells : (parseString gapText).map (fun d => d.boundaryCells.map BoundaryCell.position) = some [0, -1, -1] := by
    decide +kernel
  rw [h] at hcells
  exact ⟨dev, h, Option.some.inj hcells, (parseString_placed h).1⟩

end BSDLParser

end OwlTap.Bsdl
