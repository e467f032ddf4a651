import OwlTap.Base.ChainStream

/-!
# A serial peripheral behind a JTAG port

A bridge puts a serial peripheral in the place of one device's data register: SHIFT-DR asserts chip
select, TDI drives MOSI, and MISO drives TDO. So MOSI carries what the registers behind the bridge
hold before it carries what is shifted in, and TDO what the registers ahead of it hold before it
carries MISO (`Bridge.run_scan`).
-/

namespace OwlTap

/-- A serial peripheral. -/
structure SpiDevice (φ : Type) where
  /-- Chip select is asserted. -/
  select : φ → φ
  /-- One clock with a bit on MOSI, and the bit on MISO. -/
  clock : φ → Bool → φ × Bool
  /-- Chip select is released. -/
  deselect : φ → φ

namespace SpiDevice

variable {φ : Type} (F : SpiDevice φ)

/-- The bits on MISO during a string of clocks. -/
def answers : φ → List Bool → List Bool
  | _, [] => []
  | s, x :: xs => (F.clock s x).2 :: answers (F.clock s x).1 xs

@[simp] theorem length_answers (s : φ) (xs : List Bool) : (F.answers s xs).length = xs.length := by
  induction xs generalizing s with
  | nil => rfl
  | cons x xs ih => rw [answers, List.length_cons, List.length_cons, ih]

end SpiDevice

/-- A chain with a bridge. -/
structure Bridge (φ : Type) where
  /-- The data registers of the devices nearer TDO, the nearest first. -/
  ahead : List (List Bool)
  /-- The peripheral. -/
  peripheral : φ
  /-- The data registers of the devices nearer TDI, the nearest last. -/
  behind : List (List Bool)
  /-- The bits on MOSI and on MISO, clock by clock, since chip select was asserted. -/
  frame : List (Bool × Bool) := []
  /-- What they were while it was asserted before, each time until it was released. -/
  frames : List (List (Bool × Bool)) := []

namespace Bridge

variable {φ : Type} (F : SpiDevice φ)

/-- The other devices are in BYPASS, and capture a 0. -/
def capture (b : Bridge φ) : Bridge φ :=
  { b with ahead := b.ahead.map fun _ => [false], behind := b.behind.map fun _ => [false] }

/-- Chip select is asserted. -/
def assert (b : Bridge φ) : Bridge φ := { b with peripheral := F.select b.peripheral, frame := [] }

/-- Chip select is released. -/
def release (b : Bridge φ) : Bridge φ :=
  { b with peripheral := F.deselect b.peripheral, frames := b.frames ++ [b.frame] }

/-- A clock in SHIFT-DR, and what leaves the chain. -/
def shift (b : Bridge φ) (tdi : Bool) : Bridge φ × Bool :=
  let (behind, mosi) := Series.shift b.behind tdi
  let (peripheral, miso) := F.clock b.peripheral mosi
  let (ahead, tdo) := Series.shift b.ahead miso
  ({ b with ahead, peripheral, behind, frame := b.frame ++ [(mosi, miso)] }, tdo)

/-- Clocks in SHIFT-DR, and what leaves the chain, in order. -/
def shifts : Bridge φ → List Bool → Bridge φ × List Bool
  | b, [] => (b, [])
  | b, x :: xs => ((shifts (b.shift F x).1 xs).1, (b.shift F x).2 :: (shifts (b.shift F x).1 xs).2)

end Bridge

/-- A chain with a bridge. TDO is pulled up while it is not driven. -/
def Target.bridge {φ : Type} (F : SpiDevice φ) : Target (Bridge φ) where
  clock b s c :=
    match s with
    | .captureDr => (if c.tms then b.capture else b.capture.assert F, true)
    | .exit2Dr => (if c.tms then b else b.assert F, true)
    | .shiftDr => (if c.tms then (b.shift F c.tdi).1.release F else (b.shift F c.tdi).1, (b.shift F c.tdi).2)
    | _ => (b, true)

namespace Bridge

variable {φ : Type} (F : SpiDevice φ)

/-- The bits on MOSI: what the registers behind hold, and then what is shifted in. -/
def mosi (b : Bridge φ) (xs : List Bool) : List Bool := (b.behind.flatten ++ xs).take xs.length

/-- The bits on MISO. -/
def miso (b : Bridge φ) (xs : List Bool) : List Bool := F.answers b.peripheral (b.mosi xs)

@[simp] theorem length_mosi (b : Bridge φ) (xs : List Bool) : (b.mosi xs).length = xs.length := by
  rw [mosi, List.length_take, List.length_append]
  omega

@[simp] theorem length_miso (b : Bridge φ) (xs : List Bool) : (b.miso F xs).length = xs.length := by
  rw [miso, SpiDevice.length_answers, length_mosi]

theorem mosi_eq (b : Bridge φ) (xs : List Bool) : b.mosi xs = (Series.shifts b.behind xs).2 :=
  (Series.outs_shifts b.behind xs).symm

theorem mosi_cons (b : Bridge φ) (x : Bool) (xs : List Bool) :
    b.mosi (x :: xs) = (Series.shift b.behind x).2 :: (b.shift F x).1.mosi xs := by
  rw [mosi_eq, mosi_eq, Series.shifts]
  rfl

theorem miso_cons (b : Bridge φ) (x : Bool) (xs : List Bool) :
    b.miso F (x :: xs) = (F.clock b.peripheral (Series.shift b.behind x).2).2 :: (b.shift F x).1.miso F xs := by
  rw [miso, mosi_cons F, SpiDevice.answers]
  rfl

/-- What leaves the chain is what the registers ahead hold, and then what was on MISO. -/
theorem outs_shifts (b : Bridge φ) (xs : List Bool) :
    (b.shifts F xs).2 = (b.ahead.flatten ++ b.miso F xs).take xs.length := by
  have h : (b.shifts F xs).2 = (Series.shifts b.ahead (b.miso F xs)).2 := by
    induction xs generalizing b with
    | nil => rfl
    | cons x xs ih =>
      rw [shifts, ih, miso_cons, Series.shifts]
      rfl
  rw [h, Series.outs_shifts, length_miso]

/-- The clocks are recorded. -/
theorem frame_shifts (b : Bridge φ) (xs : List Bool) :
    (b.shifts F xs).1.frame = b.frame ++ (b.mosi xs).zip (b.miso F xs) := by
  induction xs generalizing b with
  | nil => exact (List.append_nil _).symm
  | cons x xs ih =>
    rw [shifts, ih, mosi_cons F, miso_cons, List.zip_cons_cons, List.append_cons]
    rfl

@[simp] theorem frames_shifts (b : Bridge φ) (xs : List Bool) : (b.shifts F xs).1.frames = b.frames := by
  induction xs generalizing b with
  | nil => rfl
  | cons x xs ih => rw [shifts, ih]; rfl

/-- Clocks in SHIFT-DR, the last of which leaves it. -/
theorem run_shifts (b : Bridge φ) (xs : List Bool) (x : Bool) :
    ((⟨.shiftDr, b⟩ : Port (Bridge φ)).cycles (Target.bridge F) (xs.map (⟨false, ·⟩) ++ [⟨true, x⟩])).map Cycle.tdo =
        (b.shifts F (xs ++ [x])).2 ∧
      (⟨.shiftDr, b⟩ : Port (Bridge φ)).run (Target.bridge F) (xs.map (⟨false, ·⟩) ++ [⟨true, x⟩]) =
        ⟨.exit1Dr, (b.shifts F (xs ++ [x])).1.release F⟩ := by
  induction xs generalizing b with
  | nil => exact ⟨rfl, rfl⟩
  | cons y xs ih =>
    obtain ⟨hout, hrun⟩ := ih (b.shift F y).1
    have hclock : (⟨.shiftDr, b⟩ : Port (Bridge φ)).clock (Target.bridge F) ⟨false, y⟩ = ⟨.shiftDr, (b.shift F y).1⟩ := rfl
    refine ⟨?_, ?_⟩
    · rw [List.map_cons, List.cons_append, Port.cycles_cons, List.map_cons, hclock, hout]
      rfl
    · rw [List.map_cons, List.cons_append, Port.run_cons, hclock, hrun]
      rfl

/-- Cycles that neither capture, nor shift, nor assert chip select change nothing. -/
theorem run_quiet {p : Port (Bridge φ)} {cs : List Pins}
    (h : ∀ s ∈ p.state.visits (cs.map Pins.tms), s ≠ .captureDr ∧ s ≠ .exit2Dr ∧ s ≠ .shiftDr) :
    (p.run (Target.bridge F) cs).target = p.target := by
  induction cs generalizing p with
  | nil => rfl
  | cons c cs ih =>
    have hclock : (p.clock (Target.bridge F) c).target = p.target := by
      obtain ⟨h₁, h₂, h₃⟩ := h p.state List.mem_cons_self
      obtain ⟨s, b⟩ := p
      cases s <;> first | rfl | contradiction
    rw [Port.run_cons, ih fun s hs => h s (List.mem_cons_of_mem _ hs), hclock]

end Bridge

end OwlTap
