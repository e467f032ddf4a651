import OwlTap.Base.Masks
import OwlTap.Ila.Trigger

/-!
# The trigger lanes of the ILA panel

A lane is a field of the sampled word with a condition for each of the two groups of the comparator.
`computeTriggerRegisters` puts the conditions of all lanes into the registers of the comparator.
Over it stands what the conditions say by the documentation of `TriggerCond`.
-/

namespace OwlTap.Gui

open OwlTap Ila

/-! ### The panel -/

/-- Per-signal-lane trigger condition selector. -/
inductive TriggerCond
  | none
  | eq
  | neq
  | rise
  | fall
  | either
  deriving DecidableEq, Repr

/-- Per-lane trigger configuration. -/
structure LaneTrigger where
  /-- Group A condition. -/
  cond : TriggerCond := .none
  /-- Group A value (Eq/Neq only). -/
  value : BitVec 32 := 0
  /-- Group B condition (None/Eq/Neq only). -/
  condB : TriggerCond := .none
  /-- Group B value (Eq/Neq only). -/
  valueB : BitVec 32 := 0
  deriving DecidableEq, Repr

/-- Describes a bit-field slice of the captured data word. -/
structure IlaSignalDef where
  /-- MSB index. -/
  hi : ℤ := 31
  /-- LSB index. -/
  lo : ℤ := 0
  deriving DecidableEq, Repr

namespace IlaSignalDef

/-- Number of bits. -/
def width (s : IlaSignalDef) : ℤ := s.hi - s.lo + 1

/-- Extract this field's value from a raw sample word. -/
def extract (s : IlaSignalDef) (sample : BitVec 32) : BitVec 32 :=
  let w := s.width
  if w ≤ 0 ∨ s.lo < 0 then 0
  else
    let mask : BitVec 32 := if 32 ≤ w then 0xFFFFFFFF else (1#32 <<< w.toNat) - 1
    (sample >>> s.lo.toNat) &&& mask

/-- The lane bitmask of the range `[hi:lo]`. -/
def laneBits (s : IlaSignalDef) : BitVec 32 :=
  if 32 ≤ s.width then 0xFFFFFFFF else ((1#32 <<< s.width.toNat) - 1) <<< s.lo.toNat

end IlaSignalDef

/-- The registers of the comparator. -/
structure TriggerRegisters where
  /-- Group A: the bits compared. -/
  mask : BitVec 32 := 0
  /-- Group A: their values. -/
  value : BitVec 32 := 0
  /-- Group A: the bits that may rise. -/
  riseMask : BitVec 32 := 0
  /-- Group A: the bits that may fall. -/
  fallMask : BitVec 32 := 0
  /-- Group B: the bits compared. -/
  mask2 : BitVec 32 := 0
  /-- Group B: their values. -/
  val2 : BitVec 32 := 0
  deriving DecidableEq, Repr

/-- What is used of the panel's state. -/
structure IlaPanel where
  /-- The lanes. -/
  signals : List IlaSignalDef
  /-- Their conditions; a lane without any has the default. -/
  laneTriggers : List LaneTrigger
  /-- Whether one group is enough. -/
  orMode : Bool := false
  deriving DecidableEq, Repr

namespace IlaPanel

/-- The lanes with their conditions. -/
def lanes (p : IlaPanel) : List (IlaSignalDef × LaneTrigger) :=
  p.signals.zipIdx.map fun (sig, i) => (sig, p.laneTriggers.getD i {})

/-- One pass of the loop in `computeTriggerRegisters`. -/
def addLane (r : TriggerRegisters) (lane : IlaSignalDef × LaneTrigger) : TriggerRegisters :=
  let (sig, lt) := lane
  if sig.width ≤ 0 ∨ sig.lo < 0 then r
  else
    let bits := sig.laneBits
    let r := match lt.cond with
      | .none => r
      | .eq => { r with mask := r.mask ||| bits, value := r.value ||| (lt.value <<< sig.lo.toNat) &&& bits }
      | .neq => { r with mask := r.mask ||| bits, value := r.value ||| ~~~(lt.value <<< sig.lo.toNat) &&& bits }
      | .rise => { r with riseMask := r.riseMask ||| bits }
      | .fall => { r with fallMask := r.fallMask ||| bits }
      | .either => { r with riseMask := r.riseMask ||| bits, fallMask := r.fallMask ||| bits }
    match lt.condB with
    | .none => r
    | .eq => { r with mask2 := r.mask2 ||| bits, val2 := r.val2 ||| (lt.valueB <<< sig.lo.toNat) &&& bits }
    | .neq => { r with mask2 := r.mask2 ||| bits, val2 := r.val2 ||| ~~~(lt.valueB <<< sig.lo.toNat) &&& bits }
    | _ => r

/-- The registers for the conditions of all lanes. -/
def computeTriggerRegisters (p : IlaPanel) : TriggerRegisters := p.lanes.foldl addLane {}

/-- The comparator loaded with these registers. -/
def triggerConfig (p : IlaPanel) : TriggerConfig 32 :=
  let r := p.computeTriggerRegisters
  ⟨r.mask, r.value, r.riseMask, r.fallMask, r.mask2, r.val2, p.orMode⟩

/-- The lanes lie in the word and do not overlap, and the second group has no edges. -/
structure WellFormed (p : IlaPanel) : Prop where
  /-- Inside the word. -/
  inside : ∀ s ∈ p.signals, 0 ≤ s.lo ∧ s.lo ≤ s.hi ∧ s.hi ≤ 31
  /-- Pairwise disjoint. -/
  disjoint : p.signals.Pairwise fun a b => a.hi < b.lo ∨ b.hi < a.lo
  /-- None, Eq or Neq. -/
  levels : ∀ lt ∈ p.laneTriggers, lt.condB = .none ∨ lt.condB = .eq ∨ lt.condB = .neq

end IlaPanel

/-! ### What the conditions say -/

/-- A lane with its condition in one of the groups. -/
structure LaneCond where
  /-- The lane. -/
  sig : IlaSignalDef
  /-- The condition. -/
  cond : TriggerCond
  /-- Its value. -/
  value : BitVec 32
  deriving DecidableEq, Repr

namespace LaneCond

/-- The value of the lane is this one, modulo the lane width. -/
def Reads (c : LaneCond) (value cur : BitVec 32) : Prop :=
  (c.sig.extract cur).toNat = value.toNat % 2 ^ c.sig.width.toNat

/-- The condition on the lane's value. -/
def Level (c : LaneCond) (cur : BitVec 32) : Prop :=
  (c.cond = .eq → c.Reads c.value cur) ∧ (c.cond = .neq → ¬c.Reads c.value cur)

/-- The lane has a condition on its edges. -/
def IsEdge (c : LaneCond) : Prop := c.cond = .rise ∨ c.cond = .fall ∨ c.cond = .either

/-- Some bit of the lane has a selected edge. -/
def Edge (c : LaneCond) (prev cur : BitVec 32) : Prop :=
  ∃ i : ℕ, i < 32 ∧ (c.sig.lo ≤ (i : ℤ) ∧ (i : ℤ) ≤ c.sig.hi) ∧
    ((c.cond = .rise ∨ c.cond = .either) ∧ prev.getLsbD i = false ∧ cur.getLsbD i = true ∨
      (c.cond = .fall ∨ c.cond = .either) ∧ prev.getLsbD i = true ∧ cur.getLsbD i = false)

instance (c : LaneCond) (value cur : BitVec 32) : Decidable (c.Reads value cur) := inferInstanceAs (Decidable (_ = _))

instance (c : LaneCond) (cur : BitVec 32) : Decidable (c.Level cur) := inferInstanceAs (Decidable (_ ∧ _))

instance (c : LaneCond) : Decidable c.IsEdge := inferInstanceAs (Decidable (_ ∨ _))

instance (c : LaneCond) (prev cur : BitVec 32) : Decidable (c.Edge prev cur) :=
  inferInstanceAs (Decidable (∃ i : ℕ, i < 32 ∧ _))

/-- The lane should differ from a value, and is neither this value nor its bitwise complement. -/
def Between (c : LaneCond) (cur : BitVec 32) : Prop :=
  c.cond = .neq ∧ ¬c.Reads c.value cur ∧ ¬c.Reads (~~~c.value) cur

instance (c : LaneCond) (cur : BitVec 32) : Decidable (c.Between cur) := inferInstanceAs (Decidable (_ ∧ _))

end LaneCond

/-- The lanes of a group are not all without a condition. -/
def Used (g : List LaneCond) : Prop := ∃ c ∈ g, c.cond ≠ .none

instance (g : List LaneCond) : Decidable (Used g) := inferInstanceAs (Decidable (∃ c ∈ g, c.cond ≠ .none))

/-- The conditions of a group: each on a value holds and, if there are some on edges, one of them. -/
def Holds (g : List LaneCond) (prev cur : BitVec 32) : Prop :=
  (∀ c ∈ g, c.Level cur) ∧ ((∃ c ∈ g, c.IsEdge) → ∃ c ∈ g, c.Edge prev cur)

instance (g : List LaneCond) (prev cur : BitVec 32) : Decidable (Holds g prev cur) := inferInstanceAs (Decidable (_ ∧ _))

/-- No lane of a group is between. -/
def Clear (g : List LaneCond) (cur : BitVec 32) : Prop := ∀ c ∈ g, ¬c.Between cur

namespace IlaPanel

/-- Group A. -/
def groupA (p : IlaPanel) : List LaneCond := p.lanes.map fun (sig, lt) => ⟨sig, lt.cond, lt.value⟩

/-- Group B. -/
def groupB (p : IlaPanel) : List LaneCond := p.lanes.map fun (sig, lt) => ⟨sig, lt.condB, lt.valueB⟩

/-- The conditions of the lanes: in OR mode one of the groups in use, otherwise each, and one is in use. -/
def Documented (p : IlaPanel) (prev cur : BitVec 32) : Prop :=
  if p.orMode then (Used p.groupA ∧ Holds p.groupA prev cur) ∨ (Used p.groupB ∧ Holds p.groupB prev cur)
  else (Used p.groupA → Holds p.groupA prev cur) ∧ (Used p.groupB → Holds p.groupB prev cur) ∧
    (Used p.groupA ∨ Used p.groupB)

instance (p : IlaPanel) (prev cur : BitVec 32) : Decidable (p.Documented prev cur) :=
  inferInstanceAs (Decidable (ite (p.orMode = true) (_ ∨ _) (_ ∧ _ ∧ _)))

/-- When the conditions hold, no lane is between: in OR mode in one of the groups that hold, otherwise in both. -/
def Decided (p : IlaPanel) (prev cur : BitVec 32) : Prop :=
  p.Documented prev cur →
    if p.orMode then
      (Used p.groupA ∧ Holds p.groupA prev cur ∧ Clear p.groupA cur) ∨
        (Used p.groupB ∧ Holds p.groupB prev cur ∧ Clear p.groupB cur)
    else Clear p.groupA cur ∧ Clear p.groupB cur

end IlaPanel

end OwlTap.Gui
