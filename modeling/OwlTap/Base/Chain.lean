import OwlTap.Base.ShiftRegister
import OwlTap.Base.Tap

/-!
# A chain of devices

IEEE 1149.1 devices share TCK and TMS, and each passes its TDO to the next one's TDI:
between CAPTURE and UPDATE the registers that are selected in them are one long shift
register. Device 0 is the one whose TDO the host sees.

What a device does with its registers (`TestLogic`) is left open; a chain of any
devices is a `Target`.
-/

namespace OwlTap

/-- The test logic of a kind of device with state `δ`. -/
structure TestLogic (δ : Type) where
  /-- The length of the instruction register. -/
  irWidth : δ → ℕ
  /-- What a register captures, least significant bit first: for the data register, the one
  that the instruction in force selects. -/
  capture : Register → δ → List Bool
  /-- The update of a register with the bits shifted into it. -/
  update : Register → δ → List Bool → δ
  /-- What TEST-LOGIC-RESET does. -/
  reset : δ → δ
  /-- The data register that the device presents after a reset: its IDCODE, or BYPASS. -/
  identity : δ → List Bool
  /-- The instruction register captures as many bits as it has. -/
  length_capture_ir : ∀ d, (capture .ir d).length = irWidth d
  /-- An update does not change the length of the instruction register. -/
  irWidth_update : ∀ r d bits, irWidth (update r d bits) = irWidth d
  /-- Nor does a reset. -/
  irWidth_reset : ∀ d, irWidth (reset d) = irWidth d
  /-- A reset selects the identity. -/
  capture_reset : ∀ d, capture .dr (reset d) = identity d
  /-- An update does not change the identity. -/
  identity_update : ∀ r d bits, identity (update r d bits) = identity d
  /-- Nor does a reset. -/
  identity_reset : ∀ d, identity (reset d) = identity d

/-- Two kinds of devices on one chain. -/
def TestLogic.sum {δ ε : Type} (L : TestLogic δ) (M : TestLogic ε) : TestLogic (δ ⊕ ε) where
  irWidth := Sum.elim L.irWidth M.irWidth
  capture r := Sum.elim (L.capture r) (M.capture r)
  update r d bits := d.map (L.update r · bits) (M.update r · bits)
  reset := Sum.map L.reset M.reset
  identity := Sum.elim L.identity M.identity
  length_capture_ir d := by
    cases d with
    | inl d => exact L.length_capture_ir d
    | inr d => exact M.length_capture_ir d
  irWidth_update r d bits := by
    cases d with
    | inl d => exact L.irWidth_update r d bits
    | inr d => exact M.irWidth_update r d bits
  irWidth_reset d := by
    cases d with
    | inl d => exact L.irWidth_reset d
    | inr d => exact M.irWidth_reset d
  capture_reset d := by
    cases d with
    | inl d => exact L.capture_reset d
    | inr d => exact M.capture_reset d
  identity_update r d bits := by
    cases d with
    | inl d => exact L.identity_update r d bits
    | inr d => exact M.identity_update r d bits
  identity_reset d := by
    cases d with
    | inl d => exact L.identity_reset d
    | inr d => exact M.identity_reset d

/-- A device on a chain: its state, and the bits of the register that is between TDI and TDO. -/
structure Device (δ : Type) where
  /-- The state of the device. -/
  core : δ
  /-- The register, the bit nearest TDO first. -/
  reg : List Bool

namespace Device

variable {δ : Type} (L : TestLogic δ)

/-- CAPTURE. -/
def capture (r : Register) (d : Device δ) : Device δ := { d with reg := L.capture r d.core }

/-- UPDATE. -/
def update (r : Register) (d : Device δ) : Device δ := { d with core := L.update r d.core d.reg }

/-- TEST-LOGIC-RESET. -/
def reset (d : Device δ) : Device δ := { d with core := L.reset d.core }

/-- The same devices with other bits in their registers. -/
def withRegs (ch : List (Device δ)) (rs : List (List Bool)) : List (Device δ) :=
  List.zipWith (fun d r => { d with reg := r }) ch rs

theorem map_reg_withRegs {ch : List (Device δ)} {rs : List (List Bool)} (h : rs.length = ch.length) :
    (withRegs ch rs).map reg = rs := by
  rw [withRegs, List.map_zipWith]
  induction ch generalizing rs with
  | nil => rw [List.length_eq_zero_iff.mp h]; rfl
  | cons d ch ih =>
    cases rs with
    | nil => simp at h
    | cons r rs => rw [List.zipWith_cons_cons, ih (by simpa using h)]

theorem map_core_withRegs {ch : List (Device δ)} {rs : List (List Bool)} (h : rs.length = ch.length) :
    (withRegs ch rs).map core = ch.map core := by
  rw [withRegs, List.map_zipWith]
  induction ch generalizing rs with
  | nil => rfl
  | cons d ch ih =>
    cases rs with
    | nil => simp at h
    | cons r rs => rw [List.zipWith_cons_cons, ih (by simpa using h), List.map_cons]

/-- Every device updates with the bits that are put into its register. -/
theorem map_core_update (r : Register) (ch : List (Device δ)) (rs : List (List Bool)) :
    ((withRegs ch rs).map (update L r)).map core = List.zipWith (L.update r) (ch.map core) rs := by
  rw [withRegs, List.map_zipWith, List.map_zipWith, List.zipWith_map_left]
  rfl

/-- An update does not change the registers. -/
theorem map_reg_update (r : Register) (ch : List (Device δ)) : (ch.map (update L r)).map reg = ch.map reg := by
  rw [List.map_map]; rfl

/-- Devices with the same states and the same bits are the same. -/
theorem list_ext {a b : List (Device δ)} (hc : a.map core = b.map core) (hr : a.map reg = b.map reg) : a = b := by
  induction a generalizing b with
  | nil => exact (List.map_eq_nil_iff.mp hc.symm).symm
  | cons x a ih =>
    cases b with
    | nil => simp at hc
    | cons y b =>
      obtain ⟨hcx, hca⟩ := List.cons.inj hc
      obtain ⟨hrx, hra⟩ := List.cons.inj hr
      obtain ⟨cx, rx⟩ := x
      obtain ⟨cy, ry⟩ := y
      obtain rfl : cx = cy := hcx
      obtain rfl : rx = ry := hrx
      rw [ih hca hra]

end Device

variable {δ : Type} (L : TestLogic δ)

/-- A chain of devices. TDO is pulled up while it is not driven. -/
def Target.chain : Target (List (Device δ)) where
  clock ch s c :=
    match s with
    | .testLogicReset => (ch.map (Device.reset L), true)
    | .captureDr => (ch.map (Device.capture L .dr), true)
    | .captureIr => (ch.map (Device.capture L .ir), true)
    | .shiftDr | .shiftIr =>
      (Device.withRegs ch (Series.shift (ch.map Device.reg) c.tdi).1, (Series.shift (ch.map Device.reg) c.tdi).2)
    | .updateDr => (ch.map (Device.update L .dr), true)
    | .updateIr => (ch.map (Device.update L .ir), true)
    | _ => (ch, true)

namespace Chain

/-- In a SHIFT state the registers shift in series, and the devices' states stay. -/
theorem clock_shift {p : Port (List (Device δ))} (hs : p.state.IsShift) (c : Pins) :
    (p.cycle (Target.chain L) c).tdo = (Series.shift (p.target.map Device.reg) c.tdi).2 ∧
      (p.clock (Target.chain L) c).target.map Device.reg = (Series.shift (p.target.map Device.reg) c.tdi).1 ∧
      (p.clock (Target.chain L) c).target.map Device.core = p.target.map Device.core := by
  have hclock : (Target.chain L).clock p.target p.state c =
      (Device.withRegs p.target (Series.shift (p.target.map Device.reg) c.tdi).1,
        (Series.shift (p.target.map Device.reg) c.tdi).2) := by
    rcases hs with h | h <;> rw [h] <;> rfl
  have hl : (Series.shift (p.target.map Device.reg) c.tdi).1.length = p.target.length := by simp
  refine ⟨by rw [Port.cycle, hclock], ?_, ?_⟩
  · rw [Port.clock, hclock, Device.map_reg_withRegs hl]
  · rw [Port.clock, hclock, Device.map_core_withRegs hl]

/-- A string of cycles in a SHIFT state shifts the registers in series. -/
theorem run_shift {p : Port (List (Device δ))} (cs : List Pins) (hs : p.state.IsShift)
    (hv : p.state.visits (cs.map Pins.tms) = List.replicate cs.length p.state) :
    ((p.cycles (Target.chain L) cs).map Cycle.tdo = (Series.shifts (p.target.map Device.reg) (cs.map Pins.tdi)).2) ∧
      (p.run (Target.chain L) cs).target.map Device.reg =
        (Series.shifts (p.target.map Device.reg) (cs.map Pins.tdi)).1 ∧
      (p.run (Target.chain L) cs).target.map Device.core = p.target.map Device.core := by
  induction cs generalizing p with
  | nil => exact ⟨rfl, rfl, rfl⟩
  | cons c cs ih =>
    obtain ⟨hout, hreg, hcore⟩ := clock_shift L hs c
    cases cs with
    | nil => exact ⟨by rw [Port.cycles_cons, List.map_cons, hout]; rfl, hreg, hcore⟩
    | cons c' cs =>
      have htail : (p.clock (Target.chain L) c).state.visits ((c' :: cs).map Pins.tms) =
          List.replicate (c' :: cs).length p.state := (List.cons.inj hv).2
      have hstate : (p.clock (Target.chain L) c).state = p.state := (List.cons.inj htail).1
      obtain ⟨houts, hregs, hcores⟩ := ih (p := p.clock (Target.chain L) c) (by rwa [hstate])
        (by rw [htail, hstate])
      refine ⟨?_, ?_, hcores.trans hcore⟩
      · rw [Port.cycles_cons, List.map_cons, houts, hreg, hout]; rfl
      · rw [Port.run_cons, hregs, hreg]; rfl

/-! ### Lengths -/

/-- The states between CAPTURE-IR and UPDATE-IR, in which the instruction registers are in the chain. -/
def InIr (s : TapState) : Prop := s = .shiftIr ∨ s = .exit1Ir ∨ s = .pauseIr ∨ s = .exit2Ir ∨ s = .updateIr

instance (s : TapState) : Decidable (InIr s) := inferInstanceAs (Decidable (_ ∨ _))

/-- Between CAPTURE-IR and UPDATE-IR every register is as long as its instruction register. -/
def Consistent (p : Port (List (Device δ))) : Prop :=
  InIr p.state → p.target.map (fun d => d.reg.length) = p.target.map (fun d => L.irWidth d.core)

/-- What updates and resets do not change about a device, no TCK cycle changes. -/
theorem map_core_clock {β : Type} {f : δ → β} (hu : ∀ r d bits, f (L.update r d bits) = f d)
    (hr : ∀ d, f (L.reset d) = f d) (p : Port (List (Device δ))) (c : Pins) :
    (p.clock (Target.chain L) c).target.map (fun d => f d.core) = p.target.map fun d => f d.core := by
  have hupdate : ∀ r, (p.target.map (Device.update L r)).map (fun d => f d.core) =
      p.target.map fun d => f d.core := fun r => by
    rw [List.map_map]
    exact List.map_congr_left fun d _ => hu r d.core d.reg
  by_cases hs : p.state.IsShift
  · obtain ⟨-, -, hcore⟩ := clock_shift L hs c
    have h := congrArg (List.map f) hcore
    rwa [List.map_map, List.map_map] at h
  · obtain ⟨s, ch⟩ := p
    cases s with
    | shiftDr => exact absurd (.inl rfl) hs
    | shiftIr => exact absurd (.inr rfl) hs
    | updateDr => exact hupdate .dr
    | updateIr => exact hupdate .ir
    | testLogicReset =>
      refine Eq.trans List.map_map (List.map_congr_left fun d _ => ?_)
      exact hr d.core
    | captureDr | captureIr => exact List.map_map
    | _ => rfl

/-- Nor does a string of them. -/
theorem map_core_run {β : Type} {f : δ → β} (hu : ∀ r d bits, f (L.update r d bits) = f d)
    (hr : ∀ d, f (L.reset d) = f d) (p : Port (List (Device δ))) (cs : List Pins) :
    (p.run (Target.chain L) cs).target.map (fun d => f d.core) = p.target.map fun d => f d.core := by
  induction cs generalizing p with
  | nil => rfl
  | cons c cs ih => rw [Port.run_cons, ih, map_core_clock L hu hr]

theorem irWidths_run (p : Port (List (Device δ))) (cs : List Pins) :
    (p.run (Target.chain L) cs).target.map (fun d => L.irWidth d.core) =
      p.target.map fun d => L.irWidth d.core :=
  map_core_run L L.irWidth_update L.irWidth_reset p cs

theorem identities_run (p : Port (List (Device δ))) (cs : List Pins) :
    (p.run (Target.chain L) cs).target.map (fun d => L.identity d.core) =
      p.target.map fun d => L.identity d.core :=
  map_core_run L L.identity_update L.identity_reset p cs

theorem inIr_next {s : TapState} {tms : Bool} (h : InIr (s.next tms)) :
    s = .captureIr ∨ s = .shiftIr ∨ s = .exit1Ir ∨ s = .pauseIr ∨ s = .exit2Ir := by
  revert s tms; decide

/-- Every TCK cycle keeps the chain consistent. -/
theorem Consistent.clock {p : Port (List (Device δ))} (h : Consistent L p) (c : Pins) :
    Consistent L (p.clock (Target.chain L) c) := by
  intro hin
  rw [map_core_clock L L.irWidth_update L.irWidth_reset]
  obtain ⟨s, ch⟩ := p
  rcases inIr_next hin with rfl | rfl | hs
  · refine Eq.trans List.map_map (List.map_congr_left fun d _ => ?_)
    exact L.length_capture_ir d.core
  · obtain ⟨-, hreg, -⟩ := clock_shift L (p := ⟨.shiftIr, ch⟩) (.inr rfl) c
    have hl := congrArg (List.map List.length) hreg
    rw [Series.map_length_shift, List.map_map, List.map_map] at hl
    exact hl.trans (h (.inl rfl))
  · rcases hs with rfl | rfl | rfl
    · exact h (.inr (.inl rfl))
    · exact h (.inr (.inr (.inl rfl)))
    · exact h (.inr (.inr (.inr (.inl rfl))))

/-- So does every string of them. -/
theorem Consistent.run {p : Port (List (Device δ))} (h : Consistent L p) (cs : List Pins) :
    Consistent L (p.run (Target.chain L) cs) := by
  induction cs generalizing p with
  | nil => exact h
  | cons c cs ih => exact ih (h.clock L c)

end Chain

end OwlTap
