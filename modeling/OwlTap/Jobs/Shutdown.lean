import OwlTap.Jobs.LifeCycle

/-!
# Shutting down

`submit` looks whether the executor is running, and puts its job in the queue later, under another
lock. `shutdown` clears `running` only when the worker has left its loop, which it leaves when it
finds the queue empty. A job that is put in the queue after that stays there; when none is, all
jobs are over at the end (`shutdown_settles_iff`).
-/

namespace OwlTap.Jobs

open OwlTap.Hardware (JobState)

/-- A job is put in the queue only while the worker is in its loop. -/
def BeforeExit (x : HardwareExecutor) : Action → Prop
  | .enqueue _ => x.worker ≠ .left
  | _ => True

/-- What only a worker that has left lets happen. -/
structure Leaving (x : HardwareExecutor) : Prop where
  /-- Until then the executor is running. -/
  running : x.worker ≠ .left → x.running = true
  /-- It has not been joined. -/
  joined : x.worker ≠ .left → x.shutdownCall ≠ .joined
  /-- The call of `shutdown` has not returned. -/
  returned : x.worker ≠ .left → x.shutdownCall ≠ .returned

/-- The worker does not come back. -/
theorem Moves.left {x y : HardwareExecutor} {a : Action} (h : Moves x a y) (hw : x.worker = .left) :
    y.worker = .left := by
  cases h with
  | pop hw' => exact absurd (hw.symm.trans hw') nofun
  | work hw' =>
    rw [hw] at hw'
    cases hw'
  | leave => rfl
  | submit | register | enqueue | requestCancel | tryCancel | unknown | shutdown | join => exact hw

theorem Leaving.step {x y : HardwareExecutor} {a : Action} (hx : Leaving x) (ha : x.step a = some y) : Leaving y := by
  have hmoves := Moves.of_step ha
  by_cases hw : x.worker = .left
  · have hleft := hmoves.left hw
    exact ⟨fun h => absurd hleft h, fun h => absurd hleft h, fun h => absurd hleft h⟩
  have hrunning := hx.running hw
  have hjoined := hx.joined hw
  have hreturned := hx.returned hw
  cases hmoves with
  | shutdown hcall hleft hret hrun =>
    refine ⟨fun _ => ?_, fun _ => hleft, fun _ e => ?_⟩
    · rcases hrun with e | ⟨e, -⟩
      · exact e.trans hrunning
      · exact absurd e hjoined
    · rcases hret e with e | e
      · exact absurd (e.symm.trans hrunning) nofun
      · exact hjoined e
  | join hw' => exact absurd hw' hw
  | submit | register | enqueue | requestCancel | tryCancel | unknown | pop | work | leave =>
    exact ⟨fun _ => hrunning, fun _ => hjoined, fun _ => hreturned⟩

/-- The queue of a worker that has left is empty when no job was put there after it left. -/
theorem queue_eq_nil_iff {as : List Action} {x : HardwareExecutor}
    (h : steps HardwareExecutor.step .fresh as = some x) :
    (x.worker ≠ .left → Along HardwareExecutor.step BeforeExit .fresh as) ∧
      (x.worker = .left → (x.queue = [] ↔ Along HardwareExecutor.step BeforeExit .fresh as)) := by
  refine steps_induction (P := fun as x => (x.worker ≠ .left → Along HardwareExecutor.step BeforeExit .fresh as) ∧
    (x.worker = .left → (x.queue = [] ↔ Along HardwareExecutor.step BeforeExit .fresh as)))
    ⟨fun _ => trivial, fun h => absurd (show Worker.waiting = .left from h) nofun⟩ ?_ h
  rintro as x a y hx ⟨hin, hout⟩ ha
  have hmoves := Moves.of_step ha
  have hlast : Along HardwareExecutor.step BeforeExit .fresh (as ++ [a]) ↔
      Along HardwareExecutor.step BeforeExit .fresh as ∧ BeforeExit x a := by
    rw [along_concat, hx]
    simp only [Option.some.injEq, forall_eq']
  rw [hlast]
  by_cases hw : x.worker = .left
  · have hleft := hmoves.left hw
    refine ⟨fun hno => absurd hleft hno, fun _ => ?_⟩
    cases hmoves with
    | enqueue =>
      refine iff_of_false (fun e => ?_) fun h => h.2 hw
      exact absurd (List.append_eq_nil_iff.mp e).2 (List.cons_ne_nil _ _)
    | pop hw' => exact absurd (hw.symm.trans hw') nofun
    | work hw' =>
      rw [hw] at hw'
      cases hw'
    | shutdown hcall =>
      rcases hcall with rfl | rfl | rfl <;> exact (hout hw).trans (and_iff_left trivial).symm
    | submit | register | requestCancel | tryCancel | unknown | leave | join =>
      exact (hout hw).trans (and_iff_left trivial).symm
  · have hbefore : BeforeExit x a := by
      cases a with
      | enqueue => exact hw
      | submit | register | requestCancel | tryCancel | pop | work | leave | shutdown | setStopFlag | join
      | clearRunning => trivial
    refine ⟨fun _ => ⟨hin hw, hbefore⟩, fun hleft => iff_of_true ?_ ⟨hin hw, hbefore⟩⟩
    cases hmoves with
    | leave hw' hq => exact hq
    | pop => cases hleft
    | @work a h job job' worker hw' hjob hwork =>
      have hcurrent : h ∈ x.worker.current := by
        rw [Worker.current, hw']
        exact List.mem_singleton_self h
      exact absurd hleft (Worker.work_spec hw' hwork ((Inv.of_steps hx).inHand hjob hcurrent)).stays
    | join hw' => exact absurd hw' hw
    | submit | register | enqueue | requestCancel | tryCancel | unknown | shutdown => exact absurd hleft hw

/-- When `shutdown` has returned, the jobs that `submit` has returned are all over just when no job was put in the queue
after the worker had left its loop. -/
theorem shutdown_settles_iff {as : List Action} {x : HardwareExecutor}
    (h : steps HardwareExecutor.step .fresh as = some x) (hshutdown : x.shutdownCall = .returned) :
    (∀ handle, .returned handle ∈ x.submits → ∃ s, x.stateOf handle = some s ∧ Terminal s) ↔
      Along HardwareExecutor.step BeforeExit .fresh as := by
  have hx := Inv.of_steps h
  have hleaving : Leaving x := steps_invariant (fun _ _ _ ha hs => Leaving.step hs ha) h
    ⟨fun _ => rfl, nofun, nofun⟩
  have hw : x.worker = .left := by
    by_contra hw
    exact hleaving.returned hw hshutdown
  rw [← (queue_eq_nil_iff h).2 hw]
  have hplaces := hx.places
  rw [hw, show Worker.left.current = [] from rfl, List.append_nil] at hplaces
  constructor
  · intro hover
    rw [List.eq_nil_iff_forall_not_mem]
    intro handle hmem
    have hmem' : handle ∈ x.enqueued := hplaces ▸ List.mem_append_right _ hmem
    obtain ⟨s, hs, hterminal⟩ := hover handle ((hx.returned handle).mpr hmem')
    obtain ⟨job, hj, rfl⟩ := stateOf_eq_some.mp hs
    have hnodup := hx.nodup
    rw [hplaces] at hnodup
    have hahead := hx.ahead hj fun hbehind => by
      rw [hw, show Worker.left.current = [] from rfl, List.append_nil] at hbehind
      exact (List.nodup_append.mp hnodup).2.2 handle hbehind handle hmem rfl
    rw [hahead] at hterminal
    exact hterminal
  · intro hq handle hmem
    rw [hq, List.append_nil] at hplaces
    have hmem' := (hx.returned handle).mp hmem
    obtain ⟨job, hj⟩ : ∃ job, x.jobs[handle]? = some job := ⟨_, List.getElem?_eq_getElem (hx.known handle hmem')⟩
    refine ⟨job.state, stateOf_eq_some.mpr ⟨job, hj, rfl⟩, ?_⟩
    rcases hx.behind hj (hplaces ▸ hmem') with e | ⟨e, -⟩ | ⟨e, -⟩
    · rw [e]; trivial
    · rw [e]; trivial
    · rw [e]; trivial

/-- A job submitted before the executor is shut down. -/
def sampleShutdown : List Action :=
  [.submit "a", .register 0 "1", .enqueue 0, .shutdown, .setStopFlag, .pop, .work .check, .work .begin,
    .work (.finish (.returned .null)), .work .check, .work .store, .work .settle, .leave, .join, .clearRunning]

theorem sample_shutdown : ∃ x, steps HardwareExecutor.step .fresh sampleShutdown = some x ∧
    Along HardwareExecutor.step BeforeExit .fresh sampleShutdown ∧
      (∀ handle, .returned handle ∈ x.submits → ∃ s, x.stateOf handle = some s ∧ Terminal s) := by
  obtain ⟨x, hx⟩ : ∃ x, steps HardwareExecutor.step .fresh sampleShutdown = some x := ⟨_, rfl⟩
  have hreturned : (steps HardwareExecutor.step .fresh sampleShutdown).map (·.shutdownCall) = some .returned := rfl
  have hsubmits : (steps HardwareExecutor.step .fresh sampleShutdown).map (·.submits) = some [.returned 0] := rfl
  have hstate : (steps HardwareExecutor.step .fresh sampleShutdown).bind (·.stateOf 0) = some .complete := rfl
  rw [hx] at hreturned hsubmits hstate
  have hover : ∀ handle, .returned handle ∈ x.submits → ∃ s, x.stateOf handle = some s ∧ Terminal s := by
    intro handle hmem
    rw [show x.submits = [.returned 0] from Option.some.inj hsubmits, List.mem_singleton] at hmem
    obtain rfl := SubmitCall.returned.inj hmem
    exact ⟨.complete, hstate, trivial⟩
  exact ⟨x, hx, (shutdown_settles_iff hx (Option.some.inj hreturned)).mp hover, hover⟩

/-- A client has found the executor running before another shuts it down. -/
def lateSubmit : List Action :=
  [.submit "a", .shutdown, .setStopFlag, .leave, .register 0 "1", .enqueue 0, .join, .clearRunning]

/-- Its job is never run. -/
theorem late_job_queued : ∃ x, steps HardwareExecutor.step .fresh lateSubmit = some x ∧ x.shutdownCall = .returned ∧
    x.submits = [.returned 0] ∧ ¬∃ s, x.stateOf 0 = some s ∧ Terminal s := by
  obtain ⟨x, hx⟩ : ∃ x, steps HardwareExecutor.step .fresh lateSubmit = some x := ⟨_, rfl⟩
  have hreturned : (steps HardwareExecutor.step .fresh lateSubmit).map (·.shutdownCall) = some .returned := rfl
  have hsubmits : (steps HardwareExecutor.step .fresh lateSubmit).map (·.submits) = some [.returned 0] := rfl
  have hstate : (steps HardwareExecutor.step .fresh lateSubmit).bind (·.stateOf 0) = some .queued := rfl
  rw [hx] at hreturned hsubmits hstate
  refine ⟨x, hx, Option.some.inj hreturned, Option.some.inj hsubmits, ?_⟩
  rintro ⟨s, hs, hterminal⟩
  obtain rfl := Option.some.inj (hs.symm.trans hstate)
  exact hterminal

end OwlTap.Jobs
