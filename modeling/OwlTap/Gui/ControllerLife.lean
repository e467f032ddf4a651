import OwlTap.Gui.DaemonController

/-!
# The life of the daemon process controller

The state of the daemon says whether its threads and handles are still to be released, except in
two cases: after an error, and after the daemon has said that it has stopped. `start` does not
release them in the first case, and neither `start` nor `stop` does in the second. As long as
neither happens, the controller is safe (`controller_safe_iff`).
-/

namespace OwlTap.Gui

open OwlTap

namespace Controller

/-! ### What is to hold -/

/-- No thread is lost, no handle is lost, `stop` releases everything, and the ports are the daemon's. -/
structure Safe (c : Controller) : Prop where
  /-- No thread object has been assigned or destroyed while it was joinable. -/
  joined : c.terminated = false
  /-- No handle has been overwritten before it was closed. -/
  closed : c.overwritten = false
  /-- When `stop` has returned both reader threads have been joined, all handles are closed and the state is off. -/
  stopped : c.caller = .returned → c.readerThread = .empty ∧ c.stderrThread = .empty ∧ c.processHandle = none ∧
    c.stdoutRd = none ∧ c.stderrRd = none ∧ c.status.state = .off
  /-- The ports of a daemon that runs are those of its ready event. -/
  ports : c.status.state = .running → c.ready = some (c.status.mcpPort, c.status.guiPort)

/-- `start` does not get to store its handles when it has found an error, or a state that the daemon's stopped event has set to
off, and `stop` does not find such a state. -/
def Regular (c : Controller) : ControllerAction → Prop
  | .store => c.caller ≠ .created true
  | .stop _ => ¬(c.status.state = .off ∧ c.offByEvent = true)
  | _ => True

instance (c : Controller) (a : ControllerAction) : Decidable (c.Regular a) := by
  cases a <;> unfold Regular <;> infer_instance

/-! ### The resources -/

/-- Every handle is open. -/
def Open (c : Controller) : Prop := c.processHandle ≠ none ∧ c.stdoutRd ≠ none ∧ c.stderrRd ≠ none

/-- Nothing is to be released. -/
structure Clean (c : Controller) : Prop where
  reader : c.readerThread = .empty
  stderr : c.stderrThread = .empty
  process : c.processHandle = none
  stdout : c.stdoutRd = none
  stderrRd : c.stderrRd = none
  state : c.status.state = .off
  event : c.offByEvent = false

/-- Both threads and all handles are to be released. -/
structure Full (c : Controller) : Prop where
  reader : c.readerThread ≠ .empty
  stderr : c.stderrThread ≠ .empty
  handles : c.Open
  event : c.status.state = .off → c.offByEvent = true

/-- What `Clean` and `Full` look at. -/
def view (c : Controller) : (Thread × Thread) × (Option ℕ × Option ℕ × Option ℕ) × DaemonState × Bool :=
  ((c.readerThread, c.stderrThread), (c.processHandle, c.stdoutRd, c.stderrRd), c.status.state, c.offByEvent)

theorem Clean.congr {c c' : Controller} (h : c.Clean) (hv : c'.view = c.view) : c'.Clean := by
  simp only [view, Prod.mk.injEq] at hv
  obtain ⟨⟨hr, he⟩, ⟨hp, ho, hs⟩, hst, hev⟩ := hv
  exact ⟨hr.trans h.reader, he.trans h.stderr, hp.trans h.process, ho.trans h.stdout, hs.trans h.stderrRd,
    hst.trans h.state, hev.trans h.event⟩

theorem Full.congr {c c' : Controller} (h : c.Full) (hv : c'.view = c.view) : c'.Full := by
  simp only [view, Prod.mk.injEq] at hv
  obtain ⟨⟨hr, he⟩, ⟨hp, ho, hs⟩, hst, hev⟩ := hv
  obtain ⟨hreader, hstderr, ⟨hprocess, hstdout, hrd⟩, hevent⟩ := h
  refine ⟨hr ▸ hreader, he ▸ hstderr, ⟨hp ▸ hprocess, ho ▸ hstdout, hs ▸ hrd⟩, ?_⟩
  rw [hst, hev]
  exact hevent

/-- What is to be released, by where the caller is. -/
def Fits (c : Controller) : Prop :=
  match c.caller with
  | .idle => c.Clean ∨ c.Full
  | .checked dirty | .created dirty => if dirty then c.Full else c.Clean
  | .stored => c.readerThread = .empty ∧ c.stderrThread = .empty ∧ c.Open ∧ c.status.state = .starting
  | .assigned =>
    c.readerThread ≠ .empty ∧ c.stderrThread = .empty ∧ c.Open ∧ (c.status.state = .off → c.offByEvent = true)
  | .joining => c.Full
  | .joinedReader => c.readerThread = .empty ∧ c.stderrThread ≠ .empty
  | .joined => c.readerThread = .empty ∧ c.stderrThread = .empty
  | .returned | .destroyed => c.Clean

/-- What holds in every state of a regular run. -/
structure Inv (c : Controller) : Prop where
  joined : c.terminated = false
  closed : c.overwritten = false
  fits : c.Fits
  /-- The state is stopping only in `stop`. -/
  stopping : c.status.state = .stopping → c.caller = .joining ∨ c.caller = .joinedReader ∨ c.caller = .joined
  ports : c.status.state = .running → c.ready = some (c.status.mcpPort, c.status.guiPort)

theorem Fits.congr {c c' : Controller} (h : c.Fits) (hv : c'.view = c.view) (hcaller : c'.caller = c.caller) : c'.Fits := by
  have hv' := hv
  simp only [view, Prod.mk.injEq] at hv'
  obtain ⟨⟨hr, he⟩, ⟨hp, ho, hs⟩, hst, hev⟩ := hv'
  have hopen : c.Open → c'.Open := fun ⟨hp', ho', hs'⟩ => ⟨hp ▸ hp', ho ▸ ho', hs ▸ hs'⟩
  unfold Fits at h ⊢
  rw [hcaller]
  cases hc : c.caller <;> rw [hc] at h
  case idle => exact h.imp (·.congr hv) (·.congr hv)
  case checked dirty | created dirty =>
    cases dirty
    · exact Clean.congr h hv
    · exact Full.congr h hv
  case stored => exact ⟨hr.trans h.1, he.trans h.2.1, hopen h.2.2.1, hst.trans h.2.2.2⟩
  case assigned =>
    refine ⟨hr ▸ h.1, he.trans h.2.1, hopen h.2.2.1, ?_⟩
    rw [hst, hev]
    exact h.2.2.2
  case joining => exact Full.congr h hv
  case joinedReader => exact ⟨hr.trans h.1, he ▸ h.2⟩
  case joined => exact ⟨hr.trans h.1, he.trans h.2⟩
  case returned | destroyed => exact Clean.congr h hv

theorem inv_init : Inv {} where
  joined := rfl
  closed := rfl
  fits := .inl ⟨rfl, rfl, rfl, rfl, rfl, rfl, rfl⟩
  stopping := nofun
  ports := nofun

variable {c c' : Controller}

theorem Inv.safe (h : Inv c) : Safe c where
  joined := h.joined
  closed := h.closed
  stopped hr := by
    have hfits := h.fits
    unfold Fits at hfits
    rw [hr] at hfits
    exact ⟨hfits.reader, hfits.stderr, hfits.process, hfits.stdout, hfits.stderrRd, hfits.state⟩
  ports := h.ports

/-- A caller that is in no call has everything to release or nothing. -/
theorem Inv.of_free (h : Inv c) (hfree : c.Free) : c.status.state ≠ .stopping ∧ (c.Clean ∨ c.Full) := by
  have hfits := h.fits
  unfold Fits at hfits
  rcases hfree with ⟨hcaller | hcaller, -⟩
  · refine ⟨fun e => ?_, by rwa [hcaller] at hfits⟩
    have := h.stopping e
    rw [hcaller] at this
    simp at this
  · rw [hcaller] at hfits
    refine ⟨fun e => ?_, .inl hfits⟩
    rw [hfits.state] at e
    cases e

/-! ### The readers -/

/-- What the readers may do to the controller. -/
structure Reads (c c' : Controller) : Prop where
  caller : c'.caller = c.caller
  terminated : c'.terminated = c.terminated
  overwritten : c'.overwritten = c.overwritten
  reader : c'.readerThread = .empty ↔ c.readerThread = .empty
  stderr : c'.stderrThread = .empty ↔ c.stderrThread = .empty
  handles : c'.Open ↔ c.Open
  /-- A state that becomes off becomes so by an event. -/
  off : c'.status.state = .off → c'.offByEvent = true ∨ c.status.state = .off ∧ c'.offByEvent = c.offByEvent
  stopping : c'.status.state = .stopping → c.status.state = .stopping
  ports : (c.status.state = .running → c.ready = some (c.status.mcpPort, c.status.guiPort)) →
    c'.status.state = .running → c'.ready = some (c'.status.mcpPort, c'.status.guiPort)

theorem reads_setError (msg : String) (c : Controller) : Reads c (c.setError msg) := by
  unfold setError
  split
  · exact ⟨rfl, rfl, rfl, .rfl, .rfl, .rfl, nofun, nofun, nofun⟩
  · exact ⟨rfl, rfl, rfl, .rfl, .rfl, .rfl, fun h => .inr ⟨h, rfl⟩, id, id⟩

theorem reads_onLine (line : Option Json) (c : Controller) : Reads c (c.onLine line) := by
  unfold onLine
  split
  · exact ⟨rfl, rfl, rfl, .rfl, .rfl, .rfl, nofun, nofun, fun _ _ => rfl⟩
  · exact reads_setError _ c
  · unfold setOff
    split
    · exact ⟨rfl, rfl, rfl, .rfl, .rfl, .rfl, fun _ => .inl rfl, nofun, nofun⟩
    · exact ⟨rfl, rfl, rfl, .rfl, .rfl, .rfl, fun h => .inr ⟨h, rfl⟩, id, id⟩
  · exact ⟨rfl, rfl, rfl, .rfl, .rfl, .rfl, fun h => .inr ⟨h, rfl⟩, id, id⟩

/-- While a reader runs there is something to release, whatever it reads. -/
theorem Inv.reads (h : Inv c) (hr : Reads c c') (hlive : c.readerThread = .empty → c.stderrThread ≠ .empty) : Inv c' := by
  have hfits := h.fits
  have hclean : ¬c.Clean := fun hc => hlive hc.reader hc.stderr
  have hfull : c.Full → c'.Full := fun hf =>
    ⟨fun e => hf.reader (hr.reader.mp e), fun e => hf.stderr (hr.stderr.mp e), hr.handles.mpr hf.handles, fun e => by
      rcases hr.off e with e' | ⟨e', hsame⟩
      · exact e'
      · rw [hsame]
        exact hf.event e'⟩
  refine ⟨hr.terminated.trans h.joined, hr.overwritten.trans h.closed, ?_, fun e => ?_, hr.ports h.ports⟩
  · unfold Fits at hfits ⊢
    rw [hr.caller]
    cases hcaller : c.caller <;> rw [hcaller] at hfits
    case idle => exact .inr (hfull (hfits.resolve_left hclean))
    case checked dirty | created dirty =>
      cases dirty
      · exact absurd hfits hclean
      · exact hfull hfits
    case stored => exact absurd hfits.2.1 (hlive hfits.1)
    case assigned =>
      refine ⟨fun e => hfits.1 (hr.reader.mp e), hr.stderr.mpr hfits.2.1, hr.handles.mpr hfits.2.2.1, fun e => ?_⟩
      rcases hr.off e with e' | ⟨e', hsame⟩
      · exact e'
      · rw [hsame]
        exact hfits.2.2.2 e'
    case joining => exact hfull hfits
    case joinedReader => exact ⟨hr.reader.mpr hfits.1, fun e => hfits.2 (hr.stderr.mp e)⟩
    case joined => exact absurd hfits.2 (hlive hfits.1)
    case returned | destroyed => exact absurd hfits hclean
  · rw [hr.caller]
    exact h.stopping (hr.stopping e)

theorem Inv.stepChild (h : Inv c) {a : ControllerAction} (ha : c.stepChild a = some c') : Inv c' := by
  unfold Controller.stepChild at ha
  split at ha
  · split at ha
    · cases ha
    · obtain rfl := Option.some.inj ha
      exact ⟨h.joined, h.closed, h.fits.congr rfl rfl, h.stopping, h.ports⟩
  · split at ha
    case isTrue hlive =>
      obtain rfl := Option.some.inj ha
      exact h.reads (reads_onLine _ c) fun e => absurd (hlive.symm.trans e) nofun
    case isFalse => cases ha
  · split at ha
    case isTrue hlive =>
      obtain rfl := Option.some.inj ha
      have hreader : c.readerThread ≠ .empty := fun e => absurd (hlive.1.symm.trans e) nofun
      have hr := reads_setError "daemon exited unexpectedly" c
      exact h.reads ⟨hr.caller, hr.terminated, hr.overwritten, iff_of_false nofun hreader, hr.stderr, hr.handles, hr.off,
        hr.stopping, hr.ports⟩ fun e => absurd e hreader
    case isFalse => cases ha
  · split at ha
    case isTrue hlive =>
      obtain rfl := Option.some.inj ha
      have hstderr : c.stderrThread ≠ .empty := fun e => absurd (hlive.1.symm.trans e) nofun
      exact h.reads ⟨rfl, rfl, rfl, .rfl, iff_of_false nofun hstderr, .rfl, fun e => .inr ⟨e, rfl⟩, id, id⟩ fun _ => hstderr
    case isFalse => cases ha
  · cases ha

/-! ### The caller -/

/-- What `start` does to a controller that has nothing to release. -/
theorem Inv.stepStart (h : Inv c) {a : ControllerAction} (hreg : c.Regular a) (ha : c.stepStart a = some c') : Inv c' := by
  have hfits := h.fits
  unfold Controller.stepStart at ha
  split at ha
  · split at ha
    · cases ha
    case isFalse hfree =>
    obtain ⟨hstate, hall⟩ := h.of_free (not_not.mp hfree)
    split at ha
    · obtain rfl := Option.some.inj ha
      exact ⟨h.joined, h.closed, hall.imp (·.congr rfl) (·.congr rfl), fun e => absurd e hstate, h.ports⟩
    · obtain rfl := Option.some.inj ha
      refine ⟨h.joined, h.closed, ?_, fun e => absurd e hstate, h.ports⟩
      show if c.dirty = true then Full _ else Clean _
      rcases hall with hclean | hfull
      · have : c.dirty = false := by
          unfold dirty
          rw [hclean.state, hclean.event]
          rfl
        rw [this]
        exact hclean.congr rfl
      · have : c.dirty = true := by
          unfold dirty
          by_cases hoff : c.status.state = .off
          · rw [hfull.event hoff, Bool.or_true]
          · rw [decide_eq_true hoff, Bool.true_or]
        rw [this]
        exact hfull.congr rfl
  · split at ha
    case h_1 ok _ dirty hcaller =>
      obtain rfl := Option.some.inj ha
      unfold Fits at hfits
      rw [hcaller] at hfits
      have hstate : c.status.state ≠ .stopping := fun e => by
        have := h.stopping e
        rw [hcaller] at this
        simp at this
      refine ⟨h.joined, h.closed, ?_, fun e => absurd e hstate, h.ports⟩
      cases ok <;> cases dirty
      · exact .inl (Clean.congr hfits rfl)
      · exact .inr (Full.congr hfits rfl)
      · exact Clean.congr hfits rfl
      · exact Full.congr hfits rfl
    · cases ha
  · split at ha
    case h_1 dirty hcaller =>
      obtain rfl := Option.some.inj ha
      unfold Fits at hfits
      rw [hcaller] at hfits
      cases dirty with
      | true => exact absurd hcaller hreg
      | false =>
        refine ⟨h.joined, ?_, ⟨hfits.reader, hfits.stderr, ⟨nofun, nofun, nofun⟩, rfl⟩, nofun, nofun⟩
        show (c.overwritten || c.processHandle.isSome || c.stdoutRd.isSome || c.stderrRd.isSome) = false
        rw [h.closed, hfits.process, hfits.stdout, hfits.stderrRd]
        rfl
    · cases ha
  · split at ha
    · cases ha
    case isFalse hcaller =>
    have hcaller : c.caller = .stored := not_not.mp hcaller
    unfold Fits at hfits
    rw [hcaller] at hfits
    rw [if_neg (fun hj => hj hfits.1)] at ha
    obtain rfl := Option.some.inj ha
    have hstate : c.status.state = .starting := hfits.2.2.2
    refine ⟨h.joined, h.closed, ⟨nofun, hfits.2.1, hfits.2.2.1, fun e => ?_⟩, fun e => ?_, h.ports⟩
    · cases hstate.symm.trans e
    · cases hstate.symm.trans e
  · split at ha
    · cases ha
    case isFalse hcaller =>
    have hcaller : c.caller = .assigned := not_not.mp hcaller
    unfold Fits at hfits
    rw [hcaller] at hfits
    rw [if_neg (fun hj => hj hfits.2.1)] at ha
    obtain rfl := Option.some.inj ha
    refine ⟨h.joined, h.closed, .inr ⟨hfits.1, nofun, hfits.2.2.1, hfits.2.2.2⟩, fun e => ?_, h.ports⟩
    have := h.stopping e
    rw [hcaller] at this
    simp at this
  · cases ha

/-- `stop` releases everything. -/
theorem Inv.stepStop (h : Inv c) {a : ControllerAction} (hreg : c.Regular a) (ha : c.stepStop a = some c') : Inv c' := by
  have hfits := h.fits
  unfold Controller.stepStop at ha
  split at ha
  · split at ha
    · cases ha
    case isFalse hfree =>
    obtain ⟨hstate, hall⟩ := h.of_free (not_not.mp hfree)
    split at ha
    case isTrue hoff =>
      have hoff : c.status.state = .off := hoff.resolve_right hstate
      obtain rfl := Option.some.inj ha
      have hclean : c.Clean := hall.resolve_right fun hf => hreg ⟨hoff, hf.event hoff⟩
      exact ⟨h.joined, h.closed, hclean.congr rfl, fun e => absurd e hstate, h.ports⟩
    case isFalse hon =>
      obtain rfl := Option.some.inj ha
      have hfull : c.Full := hall.resolve_left fun hc => hon (.inl hc.state)
      exact ⟨h.joined, h.closed, ⟨hfull.reader, hfull.stderr, hfull.handles, nofun⟩, fun _ => .inl rfl, nofun⟩
  · split at ha
    · cases ha
    case isFalse hcaller =>
    have hcaller : c.caller = .joining := not_not.mp (not_or.mp hcaller).1
    obtain rfl := Option.some.inj ha
    unfold Fits at hfits
    rw [hcaller] at hfits
    exact ⟨h.joined, h.closed, ⟨rfl, hfits.stderr⟩, fun _ => .inr (.inl rfl), h.ports⟩
  · split at ha
    · cases ha
    case isFalse hcaller =>
    have hcaller : c.caller = .joinedReader := not_not.mp (not_or.mp hcaller).1
    obtain rfl := Option.some.inj ha
    unfold Fits at hfits
    rw [hcaller] at hfits
    exact ⟨h.joined, h.closed, ⟨hfits.1, rfl⟩, fun _ => .inr (.inr rfl), h.ports⟩
  · split at ha
    · cases ha
    case isFalse hcaller =>
    have hcaller : c.caller = .joined := not_not.mp hcaller
    obtain rfl := Option.some.inj ha
    unfold Fits at hfits
    rw [hcaller] at hfits
    exact ⟨h.joined, h.closed, ⟨hfits.1, hfits.2, rfl, rfl, rfl, rfl, rfl⟩, nofun, nofun⟩
  · split at ha
    · cases ha
    case isFalse hcaller =>
    have hcaller : c.caller = .returned := not_not.mp (not_or.mp hcaller).1
    unfold Fits at hfits
    rw [hcaller] at hfits
    rw [if_neg (fun hj => hj.elim (fun e => e hfits.reader) fun e => e hfits.stderr)] at ha
    obtain rfl := Option.some.inj ha
    refine ⟨h.joined, h.closed, Clean.congr hfits rfl, fun e => ?_, h.ports⟩
    cases hfits.state.symm.trans e
  · cases ha

theorem Inv.step (h : Inv c) {a : ControllerAction} (hreg : c.Regular a) (ha : c.step a = some c') : Inv c' := by
  unfold Controller.step at ha
  split at ha
  · cases ha
  · split at ha
    · exact h.stepStart hreg ha
    · exact h.stepStart hreg ha
    · exact h.stepStart hreg ha
    · exact h.stepStart hreg ha
    · exact h.stepStart hreg ha
    · exact h.stepStop hreg ha
    · exact h.stepStop hreg ha
    · exact h.stepStop hreg ha
    · exact h.stepStop hreg ha
    · exact h.stepStop hreg ha
    · exact h.stepChild ha
    · exact h.stepChild ha
    · exact h.stepChild ha
    · exact h.stepChild ha

/-! ### Runs -/

theorem Inv.of_steps {as : List ControllerAction} (h : steps Controller.step {} as = some c)
    (hreg : Along Controller.step Regular {} as) : Inv c :=
  along_invariant (fun _ _ _ ha hr hc => hc.step hr ha) h hreg inv_init

/-- A step that is not regular loses a thread or a handle. -/
theorem Inv.not_safe (h : Inv c) {a : ControllerAction} (hreg : ¬c.Regular a) (ha : c.step a = some c') : ¬Safe c' := by
  have hfits := h.fits
  intro hsafe
  unfold Controller.step at ha
  rw [if_neg (by rw [h.joined]; exact nofun)] at ha
  cases a with
  | store =>
    have hcaller : c.caller = .created true := not_not.mp hreg
    unfold Fits at hfits
    simp only [Controller.stepStart, hcaller] at ha hfits
    obtain rfl := Option.some.inj ha
    have hprocess : c.processHandle.isSome = true := Option.isSome_iff_ne_none.mpr (Full.handles hfits).1
    have hclosed : (c.overwritten || c.processHandle.isSome || c.stdoutRd.isSome || c.stderrRd.isSome) = false :=
      hsafe.closed
    rw [hprocess] at hclosed
    simp at hclosed
  | stop destroying =>
    obtain ⟨hoff, hevent⟩ := not_not.mp hreg
    simp only [Controller.stepStop] at ha
    split at ha
    · cases ha
    case isFalse hfree =>
    rw [if_pos (.inl hoff)] at ha
    obtain rfl := Option.some.inj ha
    rcases (h.of_free (not_not.mp hfree)).2 with hclean | hfull
    · exact absurd (hclean.event.symm.trans hevent) nofun
    · exact hfull.reader (hsafe.stopped rfl).1
  | start | create | assignReader | assignStderr | joinReader | joinStderr | close | destruct | exit | line | readerEof
  | stderrEof => exact hreg trivial

/-- The controller has been safe in every state of a run just when every step of it was regular: whenever `start` has stored its
handles it had found the state off, and not because the daemon has said that it has stopped, and `stop`, called by the
destructor or not, has not found a state that is off because of that. -/
theorem controller_safe_iff {as : List ControllerAction} (h : steps Controller.step {} as = some c) :
    (∀ bs cs t, as = bs ++ cs → steps Controller.step {} bs = some t → t.Safe) ↔
      Along Controller.step Regular {} as := by
  constructor
  · refine steps_induction (P := fun as _ => (∀ bs cs t, as = bs ++ cs →
      steps Controller.step {} bs = some t → t.Safe) → Along Controller.step Regular {} as) (fun _ => trivial) ?_ h
    intro as t a u ht ih ha hsafe
    have hreg : Along Controller.step Regular {} as := ih fun bs cs t hsplit => hsafe bs (cs ++ [a]) t (by
      rw [hsplit, List.append_assoc])
    refine along_concat.mpr ⟨hreg, fun t' ht' => ?_⟩
    obtain rfl := Option.some.inj (ht.symm.trans ht')
    by_contra hno
    exact (Inv.of_steps ht hreg).not_safe hno ha (hsafe (as ++ [a]) [] u (List.append_nil _).symm
      (steps_concat.mpr ⟨t, ht, ha⟩))
  · rintro hreg bs cs t rfl ht
    exact (Inv.of_steps ht hreg.left).safe

/-! ### Three lives -/

/-- The daemon is started, and gets ready. -/
def started : List ControllerAction :=
  [.start, .create true, .store, .assignReader, .assignStderr,
    .line (some (.obj [("event", .str "ready"), ("mcp_port", .int 8765), ("gui_port", .int 8766)]))]

/-- It exits, and both readers come to the end. -/
def ended : List ControllerAction := [.exit, .readerEof, .stderrEof]

/-- A daemon that is stopped, and then the controller is destroyed. -/
theorem stopped_daemon_safe : ∃ c, steps Controller.step {} (started ++ [.stop false] ++ ended ++
      [.joinReader, .joinStderr, .close, .stop true, .destruct]) = some c ∧ c.caller = .destroyed ∧
    ∀ bs cs t, started ++ [.stop false] ++ ended ++ [.joinReader, .joinStderr, .close, .stop true, .destruct] = bs ++ cs →
      steps Controller.step {} bs = some t → t.Safe := by
  obtain ⟨c, hc⟩ : ∃ c, steps Controller.step {} (started ++ [.stop false] ++ ended ++
    [.joinReader, .joinStderr, .close, .stop true, .destruct]) = some c := ⟨_, rfl⟩
  have hcaller : (steps Controller.step {} (started ++ [.stop false] ++ ended ++
    [.joinReader, .joinStderr, .close, .stop true, .destruct])).map (·.caller) = some .destroyed := by decide +kernel
  rw [hc] at hcaller
  exact ⟨c, hc, Option.some.inj hcaller, (controller_safe_iff hc).mpr (by decide +kernel)⟩

/-- Whether handles have been lost, and whether the program has been terminated. -/
def lost (as : List ControllerAction) : Option (Bool × Bool) :=
  (steps Controller.step {} as).map fun c => (c.overwritten, c.terminated)

/-- A daemon that crashes and is started again, and one that stops by itself before the controller is destroyed. -/
theorem restart_not_safe :
    (∃ c, steps Controller.step {} (started ++ ended ++ [.start, .create true, .store, .assignReader]) = some c ∧
      c.overwritten = true ∧ c.terminated = true ∧ ¬Safe c) ∧
    (∃ c, steps Controller.step {}
        (started ++ [.line (some (.obj [("event", .str "stopped")]))] ++ ended ++ [.stop true, .destruct]) = some c ∧
      c.terminated = true ∧ ¬Safe c) := by
  constructor
  · have hlost : lost (started ++ ended ++ [.start, .create true, .store, .assignReader]) = some (true, true) := by
      decide +kernel
    obtain ⟨c, hc, hval⟩ := Option.map_eq_some_iff.mp hlost
    obtain ⟨ho, ht⟩ := Prod.mk.inj hval
    exact ⟨c, hc, ho, ht, fun hsafe => absurd (hsafe.joined.symm.trans ht) nofun⟩
  · have hlost : lost (started ++ [.line (some (.obj [("event", .str "stopped")]))] ++ ended ++ [.stop true, .destruct]) =
        some (false, true) := by decide +kernel
    obtain ⟨c, hc, hval⟩ := Option.map_eq_some_iff.mp hlost
    obtain ⟨-, ht⟩ := Prod.mk.inj hval
    exact ⟨c, hc, ht, fun hsafe => absurd (hsafe.joined.symm.trans ht) nofun⟩

end Controller

end OwlTap.Gui
