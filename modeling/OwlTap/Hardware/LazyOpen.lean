import OwlTap.Hardware.HardwareExecutor

/-!
# What the controller knows when a task begins

The state that the controller keeps survives the closing of the device, and nothing looks at
the TAP when it is opened again. So a task finds the controller knowing where the TAP is as
long as nobody else has moved it since (`task_starts_tracked`), and not otherwise.
-/

namespace OwlTap.Hardware

open OwlTap Ftdi Jtag

variable {σ : Type} {T : Target σ}

/-- The TAP is where it was when the device was last closed, and does not shift there. -/
def HardwareContext.Parked (ctx : HardwareContext σ) : Prop := ctx.port.state = ctx.left ∧ ¬ctx.left.IsShift

instance (ctx : HardwareContext σ) : Decidable ctx.Parked := inferInstanceAs (Decidable (_ ∧ _))

/-- A job's task begins. -/
def Turn.Starts (t : Turn σ) : Prop :=
  match t.action, t.after.worker with
  | .take .., .executing _ => True
  | _, _ => False

instance (t : Turn σ) : Decidable t.Starts := by unfold Turn.Starts; split <;> infer_instance

/-- The step keeps clear of the defects: the device is opened with the TAP where it was left, and the calls
of a task are such that the link stays in step. -/
def Turn.Clear (T : Target σ) (t : Turn σ) : Prop :=
  match t.action with
  | .start w outcomes | .take w outcomes =>
    t.before.context.isOpen = false →
      (t.before.context.setTap (t.before.context.tap.withOutcomes outcomes)).Opens T w → t.before.context.Parked
  | .call call outcomes =>
    ∀ e : Event σ, e.before = t.before.context.tap → e.call = call → e.outcomes = outcomes → e.Delivered ∧ e.Clear
  | _ => True

namespace HardwareExecutor

/-- While the device is open, the controller knows where the TAP is; while it is closed, the controller
believes the TAP to be where it was left. Tasks run with the device open, and in a running executor. -/
structure Tracked (x : HardwareExecutor σ) : Prop where
  /-- While the device is open. -/
  opened : x.context.isOpen = true → x.context.tap.Synced
  /-- While it is closed. -/
  closed : x.context.isOpen = false → x.context.tap.state = x.context.left
  /-- While a task runs. -/
  executing : ∀ handle, x.worker = .executing handle → x.context.isOpen = true
  /-- While there is a worker. -/
  running : x.worker ≠ .absent → x.running = true

theorem tracked_new (config : AppConfig) (link : Link σ) (timeout : ℕ) : (new config link timeout).Tracked :=
  ⟨nofun, fun _ => rfl, nofun, fun h => absurd rfl h⟩

/-- A step that leaves the context alone. -/
theorem Tracked.of_context {x y : HardwareExecutor σ} (h : x.Tracked) (hc : y.context = x.context)
    (he : ∀ handle, y.worker = .executing handle → x.worker = .executing handle ∨ x.context.isOpen = true)
    (hr : y.worker ≠ .absent → y.running = true) : y.Tracked := by
  refine ⟨?_, ?_, fun handle hw => ?_, hr⟩
  · rw [hc]; exact h.opened
  · rw [hc]; exact h.closed
  · rw [hc]
    rcases he handle hw with hw | hopen
    · exact h.executing handle hw
    · exact hopen

theorem Tracked.setJob {x : HardwareExecutor σ} (h : x.Tracked) (handle : ℕ) (f : HardwareJob → HardwareJob) :
    (x.setJob handle f).Tracked := h.of_context rfl (fun _ hw => .inl hw) h.running

/-- Closing. -/
theorem Tracked.close {x y : HardwareExecutor σ} (h : x.Tracked) (hc : y.context = x.context.close)
    (hw : ∀ handle, y.worker ≠ .executing handle) (hr : y.worker ≠ .absent → y.running = true) : y.Tracked := by
  refine ⟨?_, ?_, fun handle he => absurd he (hw handle), hr⟩
  · rw [hc]; exact nofun
  · intro _
    rw [hc]
    show x.context.tap.state = if x.context.isOpen then x.context.port.state else x.context.left
    cases hopen : x.context.isOpen with
    | true => exact (h.opened hopen).state.symm
    | false => exact h.closed hopen

/-- Opening, with the TAP where it was left if it succeeds. -/
theorem Tracked.openContext {x : HardwareExecutor σ} (h : x.Tracked) (hopen : x.context.isOpen = false)
    (hw : ∀ handle, x.worker ≠ .executing handle) {w : D2xx} {outcomes : List Outcome} {err : String}
    {y : HardwareExecutor σ}
    (hp : (x.context.setTap (x.context.tap.withOutcomes outcomes)).Opens T w → x.context.Parked)
    (e : x.openContext T w outcomes = some (err, y)) :
    y.Tracked ∧ (err = "" → y.context.isOpen = true) ∧ y.worker = x.worker ∧ y.running = x.running := by
  obtain ⟨⟨err', context⟩, hopens, he⟩ := Option.map_eq_some_iff.mp e
  obtain ⟨rfl, rfl⟩ := Prod.mk.inj he
  obtain ⟨err, d, e', hport, hok, hfail⟩ := HardwareContext.open_spec (T := T)
    (show (x.context.setTap (x.context.tap.withOutcomes outcomes)).isOpen = false from hopen) w
  obtain ⟨rfl, rfl⟩ := Prod.mk.inj (Option.some.inj (e'.symm.trans hopens))
  by_cases herr : err = ""
  · subst herr
    obtain ⟨hleft, hshift⟩ := hp ⟨_, hopens⟩
    have hstate : d.link.port.state = x.context.tap.state := by
      rw [hport, h.closed hopen]
      exact hleft
    refine ⟨⟨fun _ => .of_waits (hok rfl) hstate fun hs => ?_, fun hc => ?_, fun handle he => absurd he (hw handle),
      h.running⟩, fun _ => (hok rfl).isOpen, rfl, rfl⟩
    · exact absurd (h.closed hopen ▸ hs) hshift
    · exact absurd ((hok rfl).isOpen.symm.trans hc) (by decide)
  · have hclosed := hfail herr
    refine ⟨⟨fun hc => ?_, fun _ => h.closed hopen, fun handle he => absurd he (hw handle), h.running⟩,
      fun h => absurd h herr, rfl, rfl⟩
    exact absurd (hclosed.symm.trans hc) (by decide)

/-- Opening what is open. -/
theorem Tracked.openContext_open {x : HardwareExecutor σ} (h : x.Tracked) (hopen : x.context.isOpen = true)
    {w : D2xx} {outcomes : List Outcome} {err : String} {y : HardwareExecutor σ}
    (e : x.openContext T w outcomes = some (err, y)) : y.Tracked := by
  obtain ⟨⟨err', context⟩, hopens, he⟩ := Option.map_eq_some_iff.mp e
  obtain ⟨rfl, rfl⟩ := Prod.mk.inj he
  rw [HardwareContext.open, if_pos (show (x.context.setTap (x.context.tap.withOutcomes outcomes)).isOpen = true from hopen)] at hopens
  obtain ⟨-, rfl⟩ := Prod.mk.inj (Option.some.inj hopens)
  exact ⟨fun _ => (h.opened hopen).withOutcomes outcomes, fun hc => absurd (hopen.symm.trans hc) (by decide),
    fun _ _ => hopen, h.running⟩

/-- Beginning a job. -/
theorem Tracked.begin {x : HardwareExecutor σ} (h : x.Tracked) {handle : ℕ} (hw : x.worker = .waiting) {w : D2xx}
    {outcomes : List Outcome} {y : HardwareExecutor σ}
    (hp : x.context.isOpen = false →
      (x.context.setTap (x.context.tap.withOutcomes outcomes)).Opens T w → x.context.Parked)
    (e : x.begin T handle w outcomes = some y) : y.Tracked := by
  have hrunning : x.running = true := h.running (by rw [hw]; exact nofun)
  rw [HardwareExecutor.begin] at e
  simp only at e
  split at e
  case isTrue hopen =>
    obtain rfl := Option.some.inj e
    exact h.of_context rfl (fun _ _ => .inr hopen) fun _ => hrunning
  case isFalse hclosed =>
    obtain ⟨⟨openErr, z⟩, hz, rfl⟩ := Option.map_eq_some_iff.mp e
    obtain ⟨hz', hok, -, hrun⟩ := (h.setJob handle _).openContext (Bool.eq_false_iff.mpr hclosed)
      (fun handle' => by rw [show (x.setJob handle _).worker = x.worker from rfl, hw]; exact nofun)
      (hp (Bool.eq_false_iff.mpr hclosed)) hz
    simp only
    split
    case isTrue => exact hz'.setJob handle _
    case isFalse hempty => exact hz'.of_context rfl (fun _ _ => .inr (hok (not_not.mp hempty))) fun _ => hrun.trans hrunning

/-- A step that keeps clear of the defects. -/
theorem Tracked.step {t : Turn σ} (h : t.before.Tracked) (hc : t.Clear T)
    (e : t.before.step T t.action = some t.after) : t.after.Tracked := by
  obtain ⟨x, action, y⟩ := t
  simp only at h hc e ⊢
  cases action with
  | start w outcomes =>
    rw [HardwareExecutor.step] at e
    split at e
    case isTrue =>
      obtain rfl := Option.some.inj e
      exact h
    case isFalse hstopped =>
      have hworker : x.worker = .absent := by
        by_contra hw
        exact hstopped (h.running hw)
      obtain ⟨⟨err, z⟩, hz, rfl⟩ := Option.map_eq_some_iff.mp e
      have hz' : z.Tracked := by
        cases hopen : x.context.isOpen with
        | true => exact h.openContext_open hopen hz
        | false => exact (h.openContext hopen (fun _ hw => nomatch hworker.symm.trans hw) (hc hopen) hz).1
      simp only
      split
      · exact hz'
      · exact hz'.of_context rfl (fun _ he => nomatch he) fun _ => rfl
  | startWorker =>
    rw [HardwareExecutor.step] at e
    split at e
    · obtain rfl := Option.some.inj e
      exact h
    · obtain rfl := Option.some.inj e
      exact h.of_context rfl (fun _ he => nomatch he) fun _ => rfl
  | submit id label =>
    rw [HardwareExecutor.step] at e
    split at e
    · obtain rfl := Option.some.inj e
      exact h.of_context rfl (fun _ hw => .inl hw) h.running
    · obtain rfl := Option.some.inj e
      exact h
  | tryCancel id =>
    rw [HardwareExecutor.step] at e
    split at e
    · obtain rfl := Option.some.inj e
      exact h
    · obtain rfl := Option.some.inj e
      exact h.setJob _ _
  | shutdown =>
    rw [HardwareExecutor.step] at e
    split at e
    · obtain rfl := Option.some.inj e
      exact h.of_context rfl (fun _ hw => .inl hw) h.running
    · obtain rfl := Option.some.inj e
      exact h
  | joined =>
    rw [HardwareExecutor.step] at e
    split at e
    case isTrue hg =>
      obtain rfl := Option.some.inj e
      exact h.close rfl (fun handle hw => nomatch hg.2.2.symm.trans hw) fun hw => absurd hg.2.2 hw
    case isFalse => cases e
  | idle =>
    rw [HardwareExecutor.step] at e
    split at e
    case isTrue hg =>
      obtain rfl := Option.some.inj e
      split
      · exact h.close rfl (fun handle hw => nomatch hg.1.symm.trans hw) h.running
      · exact h
    case isFalse => cases e
  | take w outcomes =>
    rw [HardwareExecutor.step] at e
    split at e
    case h_1 handle queue hw hq =>
      simp only at e
      have h' : ({ x with queue } : HardwareExecutor σ).Tracked := h.of_context rfl (fun _ hw => .inl hw) h.running
      split at e
      · obtain rfl := Option.some.inj e
        exact h'.setJob handle _
      · exact h'.begin hw hc e
    case h_2 => cases e
  | call call outcomes =>
    rw [HardwareExecutor.step] at e
    split at e
    case h_1 handle hw =>
      obtain ⟨⟨⟨ok, tdo⟩, tap⟩, hexec, rfl⟩ := Option.map_eq_some_iff.mp e
      obtain ⟨hdel, hclear⟩ := hc ⟨x.context.tap, call, outcomes, ok, tdo, tap⟩ rfl rfl rfl
      obtain ⟨-, hs⟩ := Event.sound (h.opened (h.executing handle hw)) hdel hclear hexec
      have hopen : tap.device.isOpen = true := hs.waits.isOpen
      exact ⟨fun _ => hs, fun hf => absurd (hopen.symm.trans hf) (by decide), fun _ _ => hopen, h.running⟩
    case h_2 => cases e
  | finish ending =>
    rw [HardwareExecutor.step] at e
    split at e
    case h_1 handle hw =>
      obtain rfl := Option.some.inj e
      exact h.of_context rfl (fun _ he => nomatch he) fun _ => h.running (by rw [hw]; exact nofun)
    case h_2 => cases e
  | exit =>
    rw [HardwareExecutor.step] at e
    split at e
    · obtain rfl := Option.some.inj e
      exact h.of_context rfl (fun _ he => nomatch he) fun ha => absurd rfl ha
    · cases e
  | foreign pins =>
    rw [HardwareExecutor.step] at e
    split at e
    · cases e
    case isFalse hclosed =>
      obtain rfl := Option.some.inj e
      exact ⟨fun ho => absurd ho hclosed, fun hf => h.closed hf, h.executing, h.running⟩

end HardwareExecutor

theorem tracked_of_turns {x : HardwareExecutor σ} {turns : List (Turn σ)} (hx : x.Tracked) (h : Turns T x turns)
    (hc : ∀ t ∈ turns, t.Clear T) : ∀ t ∈ turns, t.after.Tracked := by
  induction h with
  | nil => simp
  | @cons t turns hstep _ ih =>
    rw [List.forall_mem_cons] at hc ⊢
    have ht := hx.step hc.1 hstep
    exact ⟨ht, ih ht hc.2⟩

/-- **The state survives the close.** In a run of the executor, from hardware in any state, in which nobody moves the
TAP between a close and the next open, and the calls of the tasks keep the link in step, every task begins with the
controller's state the hardware's. -/
theorem task_starts_tracked {config : AppConfig} {link : Link σ} {timeout : ℕ} {turns : List (Turn σ)}
    (h : Turns T (.new config link timeout) turns) (hc : ∀ t ∈ turns, t.Clear T) :
    ∀ t ∈ turns, t.Starts → t.after.context.tap.state = t.after.context.port.state := by
  intro t ht hstarts
  have htracked := tracked_of_turns (HardwareExecutor.tracked_new config link timeout) h hc t ht
  obtain ⟨handle, hworker⟩ : ∃ handle, t.after.worker = .executing handle := by
    unfold Turn.Starts at hstarts
    split at hstarts
    case h_1 handle _ hw => exact ⟨handle, hw⟩
    case h_2 => exact hstarts.elim
  exact (htracked.opened (htracked.executing handle hworker)).state.symm

/-! ### Two tasks -/

/-- A wire, with its TAP in reset. -/
def wireLink : Link Unit := ⟨⟨.ready, false, false⟩, 0, [], ⟨.testLogicReset, ()⟩, []⟩

/-- A driver with one chip. -/
def oneChip : D2xx := ⟨true, [⟨0x04036010, "210279A42FD8", "Digilent Adept USB Device A"⟩], 0, 0, 0, (0, 0), (0, 0)⟩

/-- A daemon runs a task that resets the TAP, closes the device when nothing more comes, and runs another task
later; in between another process clocks the hardware. -/
def twoTasks (foreign : List Pins) : List Action :=
  [.startWorker, .submit "a" "detect", .take oneChip [], .call (.op .reset) [], .finish (.returned "{}"), .idle,
    .foreign foreign, .submit "b" "read_pin", .take oneChip []]

/-- The run. -/
def twoTasksRun (foreign : List Pins) : Option (List (Turn Unit)) :=
  (HardwareExecutor.new {} wireLink 30000).perform .wire (twoTasks foreign)

/-- The states that the tasks of a run find: the controller's, and the hardware's. -/
def found (turns : List (Turn Unit)) : List (TapState × TapState) :=
  (turns.filter fun t => t.Starts).map fun t => (t.after.context.tap.state, t.after.context.port.state)

/-- When nobody moves the TAP, both tasks find it where the controller believes it to be. -/
theorem two_tasks_tracked :
    ∃ turns, twoTasksRun [] = some turns ∧ (turns.filter fun t => t.Starts).length = 2 ∧
      ∀ t ∈ turns, t.Starts → t.after.context.tap.state = t.after.context.port.state := by
  have hrun : (twoTasksRun []).map (fun turns => ((turns.filter fun t => t.Starts).length,
      turns.map fun t => decide (t.before.context.isOpen = true ∨ t.before.context.Parked))) =
      some (2, List.replicate 9 true) := by decide +kernel
  obtain ⟨turns, hturns, hrun⟩ := Option.map_eq_some_iff.mp hrun
  obtain ⟨hlen, hparked⟩ := Prod.mk.inj hrun
  have hclear : ∀ t ∈ turns, t.Clear .wire := by
    intro t ht
    have hp : t.before.context.isOpen = true ∨ t.before.context.Parked := by
      have := List.mem_map_of_mem (f := fun t : Turn Unit => decide (t.before.context.isOpen = true ∨
        t.before.context.Parked)) ht
      rw [hparked] at this
      exact of_decide_eq_true (List.eq_of_mem_replicate this)
    have ha : t.action ∈ twoTasks [] := by
      rw [← HardwareExecutor.map_action_perform hturns]
      exact List.mem_map_of_mem ht
    obtain ⟨before, action, after⟩ := t
    cases action with
    | start w outcomes | take w outcomes =>
      intro hclosed _
      rcases hp with hopen | hp
      · exact absurd (hopen.symm.trans hclosed) (by decide)
      · exact hp
    | call call outcomes =>
      obtain ⟨rfl, rfl⟩ : call = .op .reset ∧ outcomes = [] := by simpa [twoTasks] using ha
      rintro ⟨c, call, os, ok, tdo, c'⟩ - rfl rfl
      have hd : (c.withOutcomes []).device.Delivers := fun o ho => nomatch ho
      exact ⟨hd.noCut, trivial, .of_delivers hd _⟩
    | _ => trivial
  exact ⟨turns, hturns, hlen, task_starts_tracked (.of_perform hturns) hclear⟩

/-- When another process moves it to SHIFT-DR while the device is closed, the second task begins with the
controller believing the TAP to be in RUN-TEST/IDLE. -/
theorem two_tasks_lose_track :
    ∃ turns, Turns .wire (.new {} wireLink 30000) turns ∧ ∃ t ∈ turns, t.Starts ∧
      t.after.context.tap.state = .runTestIdle ∧ t.after.context.port.state = .shiftDr := by
  have hrun : (twoTasksRun [⟨true, false⟩, ⟨false, false⟩, ⟨false, false⟩]).map found =
      some [(.testLogicReset, .testLogicReset), (.runTestIdle, .shiftDr)] := by decide +kernel
  obtain ⟨turns, hturns, hfound⟩ := Option.map_eq_some_iff.mp hrun
  have hmem : (TapState.runTestIdle, TapState.shiftDr) ∈ found turns := by
    rw [hfound]
    exact List.mem_cons_of_mem _ List.mem_cons_self
  obtain ⟨t, ht, hstates⟩ := List.mem_map.mp hmem
  obtain ⟨ht, hstarts⟩ := List.mem_filter.mp ht
  obtain ⟨htap, hport⟩ := Prod.mk.inj hstates
  exact ⟨turns, .of_perform hturns, t, ht, of_decide_eq_true hstarts, htap, hport⟩

end OwlTap.Hardware
