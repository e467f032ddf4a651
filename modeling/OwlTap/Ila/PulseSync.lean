import Mathlib.Data.Fintype.Pi
import OwlTap.Ila.Bscane2Top

/-!
# Control pulses between the clock domains

A bit of CTRL is a pulse of one TCK cycle, which flips a toggle; the sample clock domain
takes the toggle through three stages and sees a pulse where two of them differ. Either
domain has its own reset. The interleaving of the clock edges is open, and a stage that
samples the toggle while it changes gets the old or the new value.

What the sample clock domain will see, if no more TCK edges come, is in the stages
(`ControlPath.inFlight`); a TCK edge that flips the toggles adds its pulses to that, and no
other edge changes it, unless a toggle is 1 when TEST-LOGIC-RESET clears it.
-/

namespace OwlTap.Ila

/-- Which of the four pulses there are in a cycle. -/
abbrev Pulses := CtrlBit → Bool

/-- No pulse. -/
def Pulses.none : Pulses := fun _ => false

/-- `bscane2_pulse_sync`: a toggle, and the stages that it goes through. -/
structure PulseSync where
  /-- The toggle, in the source domain. -/
  toggleSrc : Bool
  /-- The first stage. -/
  sync0 : Bool
  /-- The second stage. -/
  sync1 : Bool
  /-- The third stage. -/
  sync2 : Bool
  deriving DecidableEq, Repr

namespace PulseSync

/-- After both resets. -/
def reset : PulseSync := ⟨false, false, false, false⟩

/-- The output. -/
def dstPulse (s : PulseSync) : Bool := s.sync1 ^^ s.sync2

/-- The toggle after an edge of the source clock. -/
def toggleNext (inReset srcPulse : Bool) (s : PulseSync) : Bool :=
  if inReset then false else if srcPulse then !s.toggleSrc else s.toggleSrc

/-- An edge of the destination clock: the first stage takes what it sees of the toggle. -/
def dst (toggle : Bool) (s : PulseSync) : PulseSync := { s with sync0 := toggle, sync1 := s.sync0, sync2 := s.sync1 }

end PulseSync

/-- The path of the control pulses: the TCK domain and the four synchronisers. -/
structure ControlPath (dataW addrW : ℕ) where
  /-- The TCK domain. -/
  port : AccessPort dataW addrW
  /-- The synchronisers. -/
  sync : CtrlBit → PulseSync

/-- A clock edge, or one of each clock at the same time. -/
inductive Edge (dataW addrW : ℕ) where
  /-- An edge of TCK. -/
  | tck (c : Pins) (side : SampleSide dataW addrW)
  /-- An edge of the sample clock. -/
  | sample
  /-- Both; a first stage that is told to gets the new value of its toggle. -/
  | both (c : Pins) (side : SampleSide dataW addrW) (sel : CtrlBit → Bool)

namespace Edge

variable {dataW addrW : ℕ}

/-- The pins at the edge, if it is one of TCK. -/
def pins : Edge dataW addrW → Option Pins
  | tck c _ => some c
  | sample => none
  | both c _ _ => some c

/-- It is an edge of the sample clock. -/
def isSample : Edge dataW addrW → Bool
  | tck _ _ => false
  | sample => true
  | both _ _ _ => true

end Edge

namespace ControlPath

variable {dataW addrW : ℕ} (P : IlaParams)

/-- After the resets of both domains. -/
def reset : ControlPath dataW addrW := ⟨.reset, fun _ => .reset⟩

/-- The toggles after a TCK edge: TEST-LOGIC-RESET clears them at once. -/
def toggles (c : Pins) (s : ControlPath dataW addrW) (k : CtrlBit) : Bool :=
  (s.sync k).toggleNext
    (decide (s.port.bscan.state = .testLogicReset ∨ s.port.bscan.state.next c.tms = .testLogicReset)) (s.port.ctrl k)

/-- One edge. -/
def step (s : ControlPath dataW addrW) : Edge dataW addrW → ControlPath dataW addrW
  | .tck c side => ⟨s.port.clock P side c, fun k => { s.sync k with toggleSrc := s.toggles c k }⟩
  | .sample => ⟨s.port, fun k => (s.sync k).dst (s.sync k).toggleSrc⟩
  | .both c side sel =>
    ⟨s.port.clock P side c, fun k =>
      { (s.sync k).dst (if sel k then s.toggles c k else (s.sync k).toggleSrc) with toggleSrc := s.toggles c k }⟩

/-- The state after a run. -/
def run (s : ControlPath dataW addrW) (es : List (Edge dataW addrW)) : ControlPath dataW addrW := es.foldl (step P) s

/-- The pulses that the sample clock domain sees at its edges. -/
def seen : ControlPath dataW addrW → List (Edge dataW addrW) → List Pulses
  | _, [] => []
  | s, e :: es => (if e.isSample then [fun k => (s.sync k).dstPulse] else []) ++ seen (s.step P e) es

/-- Those of the pulses that there are. -/
def asked (v : Pulses) : List Pulses := if v = Pulses.none then [] else [v]

/-- The pulses that an UPDATE of CTRL asks for at the edge. -/
def updated (s : ControlPath dataW addrW) (e : Edge dataW addrW) : Pulses := fun k =>
  e.pins.isSome && s.port.bscan.update P.jtagChain && ctrlOf s.port.drShift k

/-- What the updates of CTRL ask for in a run, but for those without a bit set. -/
def requests : ControlPath dataW addrW → List (Edge dataW addrW) → List Pulses
  | _, [] => []
  | s, e :: es => asked (s.updated P e) ++ requests (s.step P e) es

/-- The pulses in a few cycles are those of one request: each that it asks for once. -/
def IsGroup (u : Pulses) (g : List Pulses) : Prop := ∀ k, (g.map fun v => v k).count true = if u k then 1 else 0

/-- The pulses seen are those of the requests, each once, and request by request. -/
inductive Delivers : List Pulses → List Pulses → Prop
  /-- Nothing yet. -/
  | nil : Delivers [] []
  /-- A cycle without a pulse. -/
  | quiet {us vs : List Pulses} : Delivers us vs → Delivers us (vs ++ [Pulses.none])
  /-- The pulses of the next request. -/
  | group {us vs : List Pulses} {u : Pulses} {g : List Pulses} :
    Delivers us vs → IsGroup u g → Delivers (us ++ [u]) (vs ++ g)

/-- There are as many pulses of each kind as were asked for. -/
theorem Delivers.count {us vs : List Pulses} (h : Delivers us vs) (k : CtrlBit) :
    (vs.map fun v => v k).count true = (us.map fun v => v k).count true := by
  induction h with
  | nil => rfl
  | quiet _ ih =>
    rw [List.map_append, List.count_append, ih]
    rfl
  | @group us vs u g _ hg ih =>
    rw [List.map_append, List.count_append, ih, hg k, List.map_append, List.count_append]
    cases hu : u k <;> simp [hu]

/-! ### Conditions on a run -/

/-- Between two marked edges of a run there are at least `m` edges of the sample clock; `n` is how
many there have been since the last one. -/
def Spaced (m : ℕ) (Mark : ControlPath dataW addrW → Edge dataW addrW → Bool) :
    ControlPath dataW addrW → ℕ → List (Edge dataW addrW) → Prop
  | _, _, [] => True
  | s, n, e :: es => (Mark s e = true → m ≤ n) ∧
    Spaced m Mark (s.step P e) (if Mark s e then 0 else if e.isSample then n + 1 else n) es

/-- The edge takes the TAP into TEST-LOGIC-RESET. -/
def enters (s : ControlPath dataW addrW) (e : Edge dataW addrW) : Bool :=
  e.pins.any fun c => decide (s.port.bscan.state ≠ .testLogicReset ∧ s.port.bscan.state.next c.tms = .testLogicReset)

/-- The edge is an update of CTRL, or a TAP reset. -/
def updatesOrEnters (s : ControlPath dataW addrW) (e : Edge dataW addrW) : Bool :=
  (e.pins.isSome && s.port.bscan.update P.jtagChain && frameOpcode s.port.drShift == Opcode.ctrl) || s.enters e

/-- The edge takes the pulses of an update to the synchronisers: the TCK edge after the update. -/
def handsOver (s : ControlPath dataW addrW) (e : Edge dataW addrW) : Bool :=
  e.pins.isSome && decide (s.port.ctrl ≠ Pulses.none)

/-- Whenever the TAP goes into TEST-LOGIC-RESET, each toggle is 0. -/
def ResetsEven : ControlPath dataW addrW → List (Edge dataW addrW) → Prop
  | _, [] => True
  | s, e :: es => (s.enters e = true → ∀ k, (s.sync k).toggleSrc = false) ∧ ResetsEven (s.step P e) es

instance decidableSpaced (m : ℕ) (Mark : ControlPath dataW addrW → Edge dataW addrW → Bool) :
    (s : ControlPath dataW addrW) → (n : ℕ) → (es : List (Edge dataW addrW)) → Decidable (Spaced P m Mark s n es)
  | _, _, [] => isTrue trivial
  | s, n, e :: es =>
    let _ := decidableSpaced m Mark (s.step P e) (if Mark s e then 0 else if e.isSample then n + 1 else n) es
    inferInstanceAs (Decidable (_ ∧ _))

instance decidableResetsEven : (s : ControlPath dataW addrW) → (es : List (Edge dataW addrW)) →
    Decidable (ResetsEven P s es)
  | _, [] => isTrue trivial
  | s, e :: es =>
    let _ := decidableResetsEven (s.step P e) es
    inferInstanceAs (Decidable (_ ∧ _))

/-! ### What is on its way -/

/-- What the sample clock domain will see at its next three edges, if there are no others. -/
def inFlight (s : ControlPath dataW addrW) : List Pulses :=
  [fun k => (s.sync k).dstPulse, fun k => (s.sync k).sync0 ^^ (s.sync k).sync1,
    fun k => (s.sync k).toggleSrc ^^ (s.sync k).sync0]

/-- The first stages have caught up with the toggles. -/
def Settled (s : ControlPath dataW addrW) : Prop := ∀ k, (s.sync k).sync0 = (s.sync k).toggleSrc

theorem isGroup_singleton (u : Pulses) : IsGroup u [u] := fun k => by cases hu : u k <;> simp [hu]

/-- The pulses of a request may come in two cycles. -/
theorem isGroup_split (u sel : Pulses) : IsGroup u [fun k => sel k && u k, fun k => !sel k && u k] := fun k => by
  cases hu : u k <;> cases hs : sel k <;> simp [hu, hs]

/-- After a number of requests, with some pulses seen and the others on their way. -/
structure Inv (s : ControlPath dataW addrW) (n : ℕ) (us vs : List Pulses) : Prop where
  /-- In TEST-LOGIC-RESET everything is 0. -/
  cleared : s.port.bscan.state = .testLogicReset → ∀ k, (s.sync k).toggleSrc = false ∧ s.port.ctrl k = false
  /-- There are control pulses just after UPDATE-DR only. -/
  fresh : s.port.ctrl ≠ Pulses.none → s.port.bscan.state = .runTestIdle ∨ s.port.bscan.state = .selectDrScan
  /-- An edge of the sample clock lets the first stages catch up. -/
  settled : 1 ≤ n → s.Settled
  /-- What is on its way completes the requests. -/
  delivers : Delivers us (vs ++ s.inFlight)
  /-- A cycle less of it does if the first stages have caught up. -/
  delivers_settled : s.Settled → Delivers us (vs ++ s.inFlight.dropLast)

/-- The control pulses after a TCK edge are those of the update at the edge. -/
theorem ctrl_clock (side : SampleSide dataW addrW) (c : Pins) (s : ControlPath dataW addrW) :
    (s.port.clock P side c).ctrl = fun k => s.port.bscan.update P.jtagChain && ctrlOf s.port.drShift k := by
  rw [AccessPort.clock]
  split
  · next h =>
    have hno : s.port.bscan.update P.jtagChain = false := by
      have hstate : s.port.bscan.state ≠ .updateDr := fun hu => by
        rcases h with h | h
        · rw [hu] at h
          exact absurd h (by decide)
        · rw [hu] at h
          revert h
          cases c.tms <;> decide
      simp [Bscane2.update, hstate]
    simp [AccessPort.clear, hno]
  · rfl

theorem state_clock (side : SampleSide dataW addrW) (c : Pins) (s : ControlPath dataW addrW) :
    (s.port.clock P side c).bscan.state = s.port.bscan.state.next c.tms := by
  rw [AccessPort.clock]
  split <;> rfl

/-- Control pulses come out of UPDATE-DR. -/
theorem fresh_clock {side : SampleSide dataW addrW} {c : Pins} {s : ControlPath dataW addrW}
    (h : (s.port.clock P side c).ctrl ≠ Pulses.none) :
    (s.port.clock P side c).bscan.state = .runTestIdle ∨ (s.port.clock P side c).bscan.state = .selectDrScan := by
  have hu : s.port.bscan.state = .updateDr := by
    by_contra hne
    refine h ?_
    rw [ctrl_clock]
    funext k
    simp [Bscane2.update, hne, Pulses.none]
  rw [state_clock, hu]
  cases c.tms
  · exact .inl rfl
  · exact .inr rfl

/-- At a TCK edge the toggles flip with the control pulses, if the reset does not find one at 1. -/
theorem Inv.toggles {s : ControlPath dataW addrW} {n : ℕ} {us vs : List Pulses} (h : Inv s n us vs) {c : Pins}
    (hreset : s.port.bscan.state ≠ .testLogicReset → s.port.bscan.state.next c.tms = .testLogicReset →
      ∀ k, (s.sync k).toggleSrc = false) (k : CtrlBit) :
    s.toggles c k = ((s.sync k).toggleSrc ^^ s.port.ctrl k) := by
  by_cases hs : s.port.bscan.state = .testLogicReset
  · obtain ⟨ht, hc⟩ := h.cleared hs k
    simp [ControlPath.toggles, PulseSync.toggleNext, hs, ht, hc]
  · by_cases hn : s.port.bscan.state.next c.tms = .testLogicReset
    · have hc : s.port.ctrl k = false := by
        have hnone : s.port.ctrl = Pulses.none := by
          by_contra hne
          rcases h.fresh hne with hf | hf <;> rw [hf] at hn <;> revert hn <;> cases c.tms <;> decide
        rw [hnone]; rfl
      simp [ControlPath.toggles, PulseSync.toggleNext, hn, hreset hs hn k, hc]
    · cases hc : s.port.ctrl k <;> simp [ControlPath.toggles, PulseSync.toggleNext, hs, hn, hc]


/-! ### One edge -/

/-- The control pulses that an edge takes to the synchronisers. -/
def handed (s : ControlPath dataW addrW) (e : Edge dataW addrW) : List Pulses :=
  if e.pins.isSome then asked s.port.ctrl else []

/-- What is seen at an edge. -/
def seenAt (s : ControlPath dataW addrW) (e : Edge dataW addrW) : List Pulses :=
  if e.isSample then [fun k => (s.sync k).dstPulse] else []

theorem inv_reset : Inv (reset : ControlPath dataW addrW) 1 [] [] := by
  have hnone : (reset : ControlPath dataW addrW).inFlight = [Pulses.none, Pulses.none, Pulses.none] := rfl
  refine ⟨fun _ k => ⟨rfl, rfl⟩, fun h => absurd rfl h, fun _ k => rfl, ?_, fun _ => ?_⟩
  · rw [hnone]
    exact .quiet (.quiet (.quiet .nil))
  · rw [hnone]
    exact .quiet (.quiet .nil)

/-- An edge of the sample clock. -/
theorem Inv.sample {s : ControlPath dataW addrW} {n m : ℕ} {us vs : List Pulses} (h : Inv s n us vs) :
    Inv (s.step P .sample) m us (vs ++ [fun k => (s.sync k).dstPulse]) := by
  have hflight : (s.step P .sample).inFlight = [fun k => (s.sync k).sync0 ^^ (s.sync k).sync1,
      fun k => (s.sync k).toggleSrc ^^ (s.sync k).sync0, Pulses.none] := by
    simp only [inFlight, step, PulseSync.dst, PulseSync.dstPulse, Bool.xor_self]
    rfl
  refine ⟨h.cleared, h.fresh, fun _ k => rfl, ?_, fun _ => ?_⟩
  · have := h.delivers.quiet
    rw [hflight]
    simpa [inFlight] using this
  · have := h.delivers
    rw [hflight]
    simpa [inFlight] using this

/-- A TCK edge that leads to TEST-LOGIC-RESET clears the toggles and the control pulses. -/
theorem cleared_clock (side : SampleSide dataW addrW) (c : Pins) (s : ControlPath dataW addrW)
    (hs : (s.port.clock P side c).bscan.state = .testLogicReset) (k : CtrlBit) :
    s.toggles c k = false ∧ (s.port.clock P side c).ctrl k = false := by
  have hin : s.port.bscan.state = .testLogicReset ∨ s.port.bscan.state.next c.tms = .testLogicReset :=
    .inr (by rwa [state_clock] at hs)
  constructor
  · rw [ControlPath.toggles, PulseSync.toggleNext, if_pos (by simpa using hin)]
  · rw [AccessPort.clock, if_pos hin]
    rfl

/-- A TCK edge without control pulses. -/
theorem Inv.tck_quiet {s : ControlPath dataW addrW} {n : ℕ} {us vs : List Pulses} (h : Inv s n us vs)
    (side : SampleSide dataW addrW) (c : Pins) (hc : s.port.ctrl = Pulses.none)
    (hreset : s.port.bscan.state ≠ .testLogicReset → s.port.bscan.state.next c.tms = .testLogicReset →
      ∀ k, (s.sync k).toggleSrc = false) :
    Inv (s.step P (.tck c side)) n us vs := by
  have htoggles : ∀ k, s.toggles c k = (s.sync k).toggleSrc := fun k => by
    rw [h.toggles hreset, hc, Pulses.none, Bool.xor_false]
  have hsync : (s.step P (.tck c side)).sync = s.sync := by
    funext k
    simp only [step, htoggles]
  have hflight : (s.step P (.tck c side)).inFlight = s.inFlight := by
    simp only [inFlight, hsync]
  refine ⟨?_, fun hne => fresh_clock P hne, fun hn k => ?_, ?_, fun hset => ?_⟩
  · exact cleared_clock P side c s
  · rw [hsync]
    exact h.settled hn k
  · rw [hflight]
    exact h.delivers
  · rw [hflight]
    exact h.delivers_settled fun k => by rw [← hsync]; exact hset k

/-- A TCK edge that takes control pulses to the synchronisers. -/
theorem Inv.tck_handsOver {s : ControlPath dataW addrW} {n : ℕ} {us vs : List Pulses} (h : Inv s n us vs) (hn : 1 ≤ n)
    (side : SampleSide dataW addrW) (c : Pins) (hc : s.port.ctrl ≠ Pulses.none)
    (hreset : s.port.bscan.state ≠ .testLogicReset → s.port.bscan.state.next c.tms = .testLogicReset →
      ∀ k, (s.sync k).toggleSrc = false) :
    Inv (s.step P (.tck c side)) 0 (us ++ [s.port.ctrl]) vs := by
  have hset := h.settled hn
  have hlast : ∀ k, (s.toggles c k ^^ (s.sync k).sync0) = s.port.ctrl k := fun k => by
    rw [h.toggles hreset, hset k]
    cases (s.sync k).toggleSrc <;> cases s.port.ctrl k <;> rfl
  have hflight : (s.step P (.tck c side)).inFlight = s.inFlight.dropLast ++ [s.port.ctrl] := by
    have : (fun k => s.toggles c k ^^ (s.sync k).sync0) = s.port.ctrl := funext hlast
    simp only [inFlight, step, PulseSync.dstPulse, this]
    rfl
  refine ⟨?_, fun hne => fresh_clock P hne, fun h0 => absurd h0 (by decide), ?_, fun hset' => absurd ?_ hc⟩
  · exact cleared_clock P side c s
  · rw [hflight, ← List.append_assoc]
    exact (h.delivers_settled hset).group (isGroup_singleton _)
  · funext k
    have hk : (s.sync k).sync0 = s.toggles c k := hset' k
    rw [← hlast k, hk, Bool.xor_self]
    rfl

/-- Edges of both clocks without control pulses. -/
theorem Inv.both_quiet {s : ControlPath dataW addrW} {n m : ℕ} {us vs : List Pulses} (h : Inv s n us vs)
    (side : SampleSide dataW addrW) (c : Pins) (sel : CtrlBit → Bool) (hc : s.port.ctrl = Pulses.none)
    (hreset : s.port.bscan.state ≠ .testLogicReset → s.port.bscan.state.next c.tms = .testLogicReset →
      ∀ k, (s.sync k).toggleSrc = false) :
    Inv (s.step P (.both c side sel)) m us (vs ++ [fun k => (s.sync k).dstPulse]) := by
  have htoggles : ∀ k, s.toggles c k = (s.sync k).toggleSrc := fun k => by
    rw [h.toggles hreset, hc, Pulses.none, Bool.xor_false]
  have hboth : s.step P (.both c side sel) = (s.step P .sample).step P (.tck c side) := by
    have hsample : ∀ k, ControlPath.toggles c ⟨s.port, fun k => (s.sync k).dst (s.sync k).toggleSrc⟩ k =
        (s.sync k).toggleSrc := htoggles
    simp only [step, htoggles, hsample, ite_self]
  rw [hboth]
  exact (h.sample P).tck_quiet P side c hc hreset

/-- Edges of both clocks, of which that of TCK takes control pulses to the synchronisers. -/
theorem Inv.both_handsOver {s : ControlPath dataW addrW} {n : ℕ} {us vs : List Pulses} (h : Inv s n us vs) (hn : 1 ≤ n)
    (side : SampleSide dataW addrW) (c : Pins) (sel : CtrlBit → Bool)
    (hreset : s.port.bscan.state ≠ .testLogicReset → s.port.bscan.state.next c.tms = .testLogicReset →
      ∀ k, (s.sync k).toggleSrc = false) :
    Inv (s.step P (.both c side sel)) 0 (us ++ [s.port.ctrl]) (vs ++ [fun k => (s.sync k).dstPulse]) := by
  have hset := h.settled hn
  -- the pulses are seen in two groups, as the first stages resolve
  have hflight : (s.step P (.both c side sel)).inFlight = [fun k => (s.sync k).sync0 ^^ (s.sync k).sync1,
      fun k => sel k && s.port.ctrl k, fun k => !sel k && s.port.ctrl k] := by
    simp only [inFlight, step, PulseSync.dst, PulseSync.dstPulse, h.toggles hreset]
    congr 2
    · funext k
      rw [hset k]
      cases sel k <;> cases (s.sync k).toggleSrc <;> cases s.port.ctrl k <;> rfl
    · congr 1
      funext k
      cases sel k <;> cases (s.sync k).toggleSrc <;> cases s.port.ctrl k <;> rfl
  have hbefore := h.delivers_settled hset
  refine ⟨cleared_clock P side c s, fun hne => fresh_clock P hne, fun h0 => absurd h0 (by decide), ?_, fun hset' => ?_⟩
  · rw [hflight]
    have := hbefore.group (isGroup_split s.port.ctrl sel)
    simpa [inFlight] using this
  · have hone : (fun k => sel k && s.port.ctrl k) = s.port.ctrl := by
      funext k
      have hk : (if sel k then s.toggles c k else (s.sync k).toggleSrc) = s.toggles c k := hset' k
      rw [h.toggles hreset] at hk
      revert hk
      cases sel k <;> cases (s.sync k).toggleSrc <;> cases s.port.ctrl k <;> simp
    rw [hflight, hone]
    have := hbefore.group (isGroup_singleton s.port.ctrl)
    simpa [inFlight] using this

/-- What an edge keeps of the invariant, with what it takes to the synchronisers and what is seen at it. -/
theorem Inv.step {s : ControlPath dataW addrW} {n : ℕ} {us vs : List Pulses} (h : Inv s n us vs) (e : Edge dataW addrW)
    (hspaced : s.handsOver e = true → 1 ≤ n) (heven : s.enters e = true → ∀ k, (s.sync k).toggleSrc = false) :
    Inv (s.step P e) (if s.handsOver e then 0 else if e.isSample then n + 1 else n) (us ++ s.handed e)
      (vs ++ s.seenAt e) := by
  cases e with
  | sample =>
    have hno : s.handsOver (.sample : Edge dataW addrW) = false := rfl
    rw [hno, show us ++ s.handed (.sample : Edge dataW addrW) = us from List.append_nil us]
    exact h.sample P
  | tck c side =>
    have heven : s.port.bscan.state ≠ .testLogicReset → s.port.bscan.state.next c.tms = .testLogicReset →
        ∀ k, (s.sync k).toggleSrc = false := fun h₁ h₂ => heven (by simp [enters, Edge.pins, h₁, h₂])
    rw [show vs ++ s.seenAt (.tck c side) = vs from List.append_nil vs]
    by_cases hc : s.port.ctrl = Pulses.none
    · have hno : s.handsOver (.tck c side) = false := by simp [handsOver, hc]
      have hnone : s.handed (.tck c side) = [] := by simp [handed, asked, Edge.pins, hc]
      rw [hno, hnone, List.append_nil]
      exact h.tck_quiet P side c hc heven
    · have hyes : s.handsOver (.tck c side) = true := by simp [handsOver, Edge.pins, hc]
      have hone : s.handed (.tck c side) = [s.port.ctrl] := by simp [handed, asked, Edge.pins, hc]
      rw [hyes, hone]
      exact h.tck_handsOver P (hspaced hyes) side c hc heven
  | both c side sel =>
    have heven : s.port.bscan.state ≠ .testLogicReset → s.port.bscan.state.next c.tms = .testLogicReset →
        ∀ k, (s.sync k).toggleSrc = false := fun h₁ h₂ => heven (by simp [enters, Edge.pins, h₁, h₂])
    rw [show vs ++ s.seenAt (.both c side sel) = vs ++ [fun k => (s.sync k).dstPulse] from rfl]
    by_cases hc : s.port.ctrl = Pulses.none
    · have hno : s.handsOver (.both c side sel) = false := by simp [handsOver, hc]
      have hnone : s.handed (.both c side sel) = [] := by simp [handed, asked, Edge.pins, hc]
      rw [hno, hnone, List.append_nil]
      exact h.both_quiet P side c sel hc heven
    · have hyes : s.handsOver (.both c side sel) = true := by simp [handsOver, Edge.pins, hc]
      have hone : s.handed (.both c side sel) = [s.port.ctrl] := by simp [handed, asked, Edge.pins, hc]
      rw [hyes, hone]
      exact h.both_handsOver P (hspaced hyes) side c sel heven

/-- After an edge the control pulses are those of the update at it, or the old ones if it is not of TCK. -/
theorem asked_ctrl_step (s : ControlPath dataW addrW) (e : Edge dataW addrW) :
    asked s.port.ctrl ++ asked (s.updated P e) = s.handed e ++ asked (s.step P e).port.ctrl := by
  have hport : ∀ (c : Pins) (side : SampleSide dataW addrW) (e : Edge dataW addrW), e.pins = some c →
      s.updated P e = (s.port.clock P side c).ctrl := fun c side e he => by
    rw [ctrl_clock]
    funext k
    simp [updated, he]
  cases e with
  | sample =>
    have hnone : s.updated P (.sample : Edge dataW addrW) = Pulses.none := rfl
    rw [hnone, show asked Pulses.none = [] from rfl, List.append_nil]
    rfl
  | tck c side => rw [hport c side _ rfl]; rfl
  | both c side sel => rw [hport c side _ rfl]; rfl

/-! ### Runs -/

/-- What a run keeps. -/
theorem Inv.run {s : ControlPath dataW addrW} {n : ℕ} {us vs : List Pulses} (h : Inv s n us vs)
    (es : List (Edge dataW addrW)) (hspaced : Spaced P 1 handsOver s n es) (heven : ResetsEven P s es) :
    ∃ m served, asked s.port.ctrl ++ requests P s es = served ++ asked (s.run P es).port.ctrl ∧
      Inv (s.run P es) m (us ++ served) (vs ++ seen P s es) := by
  induction es generalizing s n us vs with
  | nil =>
    refine ⟨n, [], List.append_nil _, ?_⟩
    rw [List.append_nil, seen, List.append_nil]
    exact h
  | cons e es ih =>
    obtain ⟨m, served, hserved, hinv⟩ := ih (h.step P e hspaced.1 heven.1) hspaced.2 heven.2
    refine ⟨m, s.handed e ++ served, ?_, ?_⟩
    · rw [requests, ← List.append_assoc, asked_ctrl_step, List.append_assoc, hserved, ← List.append_assoc]
      rfl
    · rw [List.append_assoc, List.append_assoc] at hinv
      exact hinv

theorem seen_append (s : ControlPath dataW addrW) (a b : List (Edge dataW addrW)) :
    seen P s (a ++ b) = seen P s a ++ seen P (s.run P a) b := by
  induction a generalizing s with
  | nil => rfl
  | cons e a ih =>
    rw [List.cons_append, seen, ih, seen, List.append_assoc]
    rfl

/-- Three edges of the sample clock see what is on its way. -/
theorem seen_samples (s : ControlPath dataW addrW) : seen P s (List.replicate 3 .sample) = s.inFlight := by
  simp only [List.replicate, seen, step, Edge.isSample, inFlight, PulseSync.dst, PulseSync.dstPulse]
  rfl

/-- **Control pulses arrive once.** From the reset of both domains, in a run in which each toggle is
0 whenever the TAP goes into TEST-LOGIC-RESET, and an edge of the sample clock comes between two
handovers, the sample clock domain sees the pulses that the updates of CTRL ask for, each once and in
order: all but the last one's when its handover, the next TCK edge, has not come yet, and at the latest
at its next three edges. -/
theorem pulses_once (es : List (Edge dataW addrW)) (heven : ResetsEven P reset es)
    (hspaced : Spaced P 1 handsOver reset 1 es) :
    ∃ served, requests P reset es = served ++ asked ((reset : ControlPath dataW addrW).run P es).port.ctrl ∧
      Delivers served (seen P reset (es ++ List.replicate 3 .sample)) := by
  obtain ⟨m, served, hserved, hinv⟩ := inv_reset.run P es hspaced heven
  refine ⟨served, hserved, ?_⟩
  rw [seen_append, seen_samples]
  exact hinv.delivers

/-! ### A run -/

/-- TCK edges. -/
def tcks (cs : List Pins) : List (Edge 32 2) := cs.map fun c => .tck c ⟨fun _ => 0, ⟨false, false, false⟩⟩

/-- From TEST-LOGIC-RESET: USER1 is loaded, and CTRL written with the given bits. -/
def ctrlScan (data : List Bool) : List Pins :=
  [⟨false, false⟩, ⟨true, false⟩, ⟨true, false⟩, ⟨false, false⟩, ⟨false, false⟩,
    ⟨false, false⟩, ⟨false, true⟩, ⟨false, false⟩, ⟨false, false⟩, ⟨false, false⟩, ⟨true, false⟩,
    ⟨true, false⟩, ⟨false, false⟩, ⟨true, false⟩, ⟨false, false⟩, ⟨false, false⟩] ++
    (toBits Opcode.ctrl ++ data ++ List.replicate (31 - data.length) false).map (fun b => ⟨false, b⟩) ++
    [⟨true, false⟩, ⟨true, false⟩, ⟨false, false⟩]

/-- One ARM, which is seen; and then the TAP is reset. -/
def armThenReset : List (Edge 32 2) :=
  tcks (ctrlScan [true] ++ [⟨false, false⟩]) ++ List.replicate 3 .sample ++
    tcks [⟨true, false⟩, ⟨true, false⟩, ⟨true, false⟩]

theorem pulses_once_arm : ∃ served, requests {} reset (tcks (ctrlScan [true] ++ [⟨false, false⟩])) = served ++
      asked ((reset : ControlPath 32 2).run {} (tcks (ctrlScan [true] ++ [⟨false, false⟩]))).port.ctrl ∧
    Delivers served (seen {} reset (tcks (ctrlScan [true] ++ [⟨false, false⟩]) ++ List.replicate 3 .sample)) :=
  pulses_once {} _ (by decide +kernel) (by decide +kernel)

/-- The reset of the TAP clears the toggle of ARM, which the sample clock domain takes for a pulse. -/
theorem spurious_arm :
    Spaced {} 3 (updatesOrEnters {}) reset 3 armThenReset ∧
      (requests {} reset armThenReset).map (fun v => v .arm) = [true] ∧
      (seen {} reset (armThenReset ++ List.replicate 3 .sample)).map (fun v => v .arm) =
        [false, false, true, false, false, true] ∧
      ((reset : ControlPath 32 2).run {} armThenReset).port.ctrl = Pulses.none ∧
      ¬Delivers (requests {} reset armThenReset) (seen {} reset (armThenReset ++ List.replicate 3 .sample)) := by
  have hreq : (requests {} reset armThenReset).map (fun v => v .arm) = [true] := by decide +kernel
  have hseen : (seen {} reset (armThenReset ++ List.replicate 3 .sample)).map (fun v => v .arm) =
      [false, false, true, false, false, true] := by decide +kernel
  refine ⟨by decide +kernel, hreq, hseen, by decide +kernel, fun h => ?_⟩
  have := h.count .arm
  rw [hreq, hseen] at this
  exact absurd this (by decide)

end ControlPath

end OwlTap.Ila
