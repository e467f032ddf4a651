import Mathlib.Algebra.Order.Ring.Int
import Mathlib.Data.Finset.Insert
import Mathlib.Data.Fintype.Basic
import Mathlib.Data.List.Basic

/-!
# The test access port of IEEE 1149.1

The 16-state TAP controller, which every device on a chain runs in step because
they share TCK and TMS, and whatever is connected behind it: a `Target` is told at
each TCK cycle which state the controller is in and what TMS and TDI are, and says
what it drives on TDO.

A `Cycle` is one TCK cycle as a logic analyser on the connector records it.
-/

namespace OwlTap

/-- The states of the TAP controller. -/
inductive TapState where
  | testLogicReset | runTestIdle
  | selectDrScan | captureDr | shiftDr | exit1Dr | pauseDr | exit2Dr | updateDr
  | selectIrScan | captureIr | shiftIr | exit1Ir | pauseIr | exit2Ir | updateIr
  deriving DecidableEq, Repr

namespace TapState

instance : Fintype TapState where
  elems := {testLogicReset, runTestIdle, selectDrScan, captureDr, shiftDr, exit1Dr, pauseDr, exit2Dr,
    updateDr, selectIrScan, captureIr, shiftIr, exit1Ir, pauseIr, exit2Ir, updateIr}
  complete s := by cases s <;> decide

/-- The state after a TCK cycle with the given TMS (IEEE 1149.1, the TAP controller state diagram). -/
def next : TapState → Bool → TapState
  | testLogicReset, false => runTestIdle
  | testLogicReset, true => testLogicReset
  | runTestIdle, false => runTestIdle
  | runTestIdle, true => selectDrScan
  | selectDrScan, false => captureDr
  | selectDrScan, true => selectIrScan
  | captureDr, false => shiftDr
  | captureDr, true => exit1Dr
  | shiftDr, false => shiftDr
  | shiftDr, true => exit1Dr
  | exit1Dr, false => pauseDr
  | exit1Dr, true => updateDr
  | pauseDr, false => pauseDr
  | pauseDr, true => exit2Dr
  | exit2Dr, false => shiftDr
  | exit2Dr, true => updateDr
  | updateDr, false => runTestIdle
  | updateDr, true => selectDrScan
  | selectIrScan, false => captureIr
  | selectIrScan, true => testLogicReset
  | captureIr, false => shiftIr
  | captureIr, true => exit1Ir
  | shiftIr, false => shiftIr
  | shiftIr, true => exit1Ir
  | exit1Ir, false => pauseIr
  | exit1Ir, true => updateIr
  | pauseIr, false => pauseIr
  | pauseIr, true => exit2Ir
  | exit2Ir, false => shiftIr
  | exit2Ir, true => updateIr
  | updateIr, false => runTestIdle
  | updateIr, true => selectDrScan

/-- The state after a string of TMS values. -/
def run (s : TapState) (tms : List Bool) : TapState := tms.foldl next s

/-- The state during each cycle of a string of TMS values. -/
def visits : TapState → List Bool → List TapState
  | _, [] => []
  | s, b :: tms => s :: visits (s.next b) tms

@[simp] theorem run_nil (s : TapState) : s.run [] = s := rfl

@[simp] theorem run_cons (s : TapState) (b : Bool) (tms : List Bool) :
    s.run (b :: tms) = (s.next b).run tms := rfl

theorem run_append (s : TapState) (a b : List Bool) : s.run (a ++ b) = (s.run a).run b :=
  List.foldl_append

theorem visits_append (s : TapState) (a b : List Bool) :
    s.visits (a ++ b) = s.visits a ++ (s.run a).visits b := by
  induction a generalizing s with
  | nil => rfl
  | cons x a ih => simp [visits, ih]

@[simp] theorem length_visits (s : TapState) (tms : List Bool) : (s.visits tms).length = tms.length := by
  induction tms generalizing s with
  | nil => rfl
  | cons b tms ih => simp [visits, ih]

/-- Five cycles with TMS high reach TEST-LOGIC-RESET from anywhere. -/
theorem run_five_ones (s : TapState) : s.run [true, true, true, true, true] = testLogicReset := by
  revert s; decide

/-- The states that hold while TMS is low: RUN-TEST/IDLE, the shifts and the pauses. -/
def Stays (s : TapState) : Prop := s.next false = s

instance (s : TapState) : Decidable s.Stays := inferInstanceAs (Decidable (_ = _))

theorem Stays.run_replicate {s : TapState} (h : s.Stays) (k : ℕ) :
    s.run (List.replicate k false) = s := by
  induction k with
  | zero => rfl
  | succ k ih => rw [List.replicate_succ, run_cons, h, ih]

theorem Stays.visits_replicate {s : TapState} (h : s.Stays) (k : ℕ) :
    s.visits (List.replicate k false) = List.replicate k s := by
  induction k with
  | zero => rfl
  | succ k ih => rw [List.replicate_succ, visits, h, ih, List.replicate_succ]

/-- The two states in which a register shifts. -/
def IsShift (s : TapState) : Prop := s = shiftDr ∨ s = shiftIr

instance (s : TapState) : Decidable s.IsShift := inferInstanceAs (Decidable (_ ∨ _))

theorem IsShift.stays {s : TapState} (h : s.IsShift) : s.Stays := by
  rcases h with rfl | rfl <;> rfl

end TapState

/-- The two registers of a device that the TAP controller gives access to. -/
inductive Register where
  | dr | ir
  deriving DecidableEq, Repr

namespace Register

/-- The state in which the register captures. -/
def capture : Register → TapState
  | dr => .captureDr
  | ir => .captureIr

/-- The state in which the register shifts. -/
def shift : Register → TapState
  | dr => .shiftDr
  | ir => .shiftIr

/-- The state that follows the last shift. -/
def exit1 : Register → TapState
  | dr => .exit1Dr
  | ir => .exit1Ir

/-- The state in which the register's content takes effect. -/
def update : Register → TapState
  | dr => .updateDr
  | ir => .updateIr

theorem isShift_shift (r : Register) : r.shift.IsShift := by
  cases r
  · exact .inl rfl
  · exact .inr rfl

theorem not_isShift_exit1 (r : Register) : ¬r.exit1.IsShift := by cases r <;> decide

end Register

/-! ### What is behind the port -/

/-- What the host drives in one TCK cycle. -/
structure Pins where
  /-- Test mode select. -/
  tms : Bool
  /-- Test data in. -/
  tdi : Bool
  deriving DecidableEq, Repr

/-- One TCK cycle on the connector: the state the controllers are in, and the three pins. -/
structure Cycle where
  /-- The state during the cycle. -/
  state : TapState
  /-- Test mode select. -/
  tms : Bool
  /-- Test data in. -/
  tdi : Bool
  /-- Test data out. -/
  tdo : Bool
  deriving DecidableEq, Repr

/-- Whatever is connected: its reaction to one TCK cycle, and what it drives on TDO. -/
structure Target (σ : Type) where
  /-- One TCK cycle in the given state with the given pins. -/
  clock : σ → TapState → Pins → σ × Bool

/-- Nothing but a wire from TDI to TDO. -/
def Target.wire : Target Unit := ⟨fun s _ c => (s, c.tdi)⟩

/-- The connected hardware: the state of its TAP controllers, and the rest of it. -/
structure Port (σ : Type) where
  /-- The state of the TAP controllers. -/
  state : TapState
  /-- The rest. -/
  target : σ

namespace Port

variable {σ : Type} (T : Target σ)

/-- The cycle that the given pins make. -/
def cycle (p : Port σ) (c : Pins) : Cycle :=
  ⟨p.state, c.tms, c.tdi, (T.clock p.target p.state c).2⟩

/-- The hardware after one TCK cycle. -/
def clock (p : Port σ) (c : Pins) : Port σ :=
  ⟨p.state.next c.tms, (T.clock p.target p.state c).1⟩

/-- The hardware after a string of TCK cycles. -/
def run (p : Port σ) (cs : List Pins) : Port σ := cs.foldl (clock T) p

/-- The cycles that a string of pins makes. -/
def cycles : Port σ → List Pins → List Cycle
  | _, [] => []
  | p, c :: cs => p.cycle T c :: cycles (p.clock T c) cs

@[simp] theorem run_nil (p : Port σ) : p.run T [] = p := rfl

@[simp] theorem run_cons (p : Port σ) (c : Pins) (cs : List Pins) :
    p.run T (c :: cs) = (p.clock T c).run T cs := rfl

theorem run_append (p : Port σ) (a b : List Pins) : p.run T (a ++ b) = (p.run T a).run T b :=
  List.foldl_append

@[simp] theorem cycles_nil (p : Port σ) : p.cycles T [] = [] := rfl

@[simp] theorem cycles_cons (p : Port σ) (c : Pins) (cs : List Pins) :
    p.cycles T (c :: cs) = p.cycle T c :: (p.clock T c).cycles T cs := rfl

theorem cycles_append (p : Port σ) (a b : List Pins) :
    p.cycles T (a ++ b) = p.cycles T a ++ (p.run T a).cycles T b := by
  induction a generalizing p with
  | nil => rfl
  | cons c a ih => simp [ih]

@[simp] theorem length_cycles (p : Port σ) (cs : List Pins) : (p.cycles T cs).length = cs.length := by
  induction cs generalizing p with
  | nil => rfl
  | cons c cs ih => simp [ih]

@[simp] theorem state_run (p : Port σ) (cs : List Pins) :
    (p.run T cs).state = p.state.run (cs.map Pins.tms) := by
  induction cs generalizing p with
  | nil => rfl
  | cons c cs ih => rw [run_cons, ih]; rfl

theorem map_state_cycles (p : Port σ) (cs : List Pins) :
    (p.cycles T cs).map Cycle.state = p.state.visits (cs.map Pins.tms) := by
  induction cs generalizing p with
  | nil => rfl
  | cons c cs ih => rw [cycles_cons, List.map_cons, ih]; rfl

theorem map_tdi_cycles (p : Port σ) (cs : List Pins) :
    (p.cycles T cs).map Cycle.tdi = cs.map Pins.tdi := by
  induction cs generalizing p with
  | nil => rfl
  | cons c cs ih => rw [cycles_cons, List.map_cons, ih]; rfl

end Port

end OwlTap
