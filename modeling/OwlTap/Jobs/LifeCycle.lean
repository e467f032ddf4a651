import OwlTap.Jobs.ExecutorInvariant

/-!
# The life of a job

A job's state changes only while the worker has it in hand, and only forward, so what clients see
of it is a path from queued to a state in which it is over (`seen_path`). A job whose cancellation
is requested while it is in the queue is never begun (`Doomed`).
-/

namespace OwlTap.Jobs

open OwlTap.Hardware (JobState)

/-! ### What becomes of a job -/

/-- A job keeps its id and its flag, and its state stays or changes to one that may follow. -/
theorem Moves.job {x y : HardwareExecutor} {a : Action} (hx : Inv x) (h : Moves x a y) {i : ℕ} {job : HardwareJob}
    (hj : x.jobs[i]? = some job) :
    ∃ job', y.jobs[i]? = some job' ∧ job'.id = job.id ∧ (job.cancelRequested = true → job'.cancelRequested = true) ∧
      (job'.state = job.state ∨ Follows job.state job'.state) := by
  have hcancel : ∀ handle, ∃ job', (x.requestCancel handle).jobs[i]? = some job' ∧ job'.id = job.id ∧
      (job.cancelRequested = true → job'.cancelRequested = true) ∧
      (job'.state = job.state ∨ Follows job.state job'.state) := by
    intro handle
    refine ⟨if handle = i then job.requestCancel else job, ?_, ?_⟩
    · rw [HardwareExecutor.requestCancel, List.getElem?_modify, hj]
      rfl
    · split
      · exact ⟨rfl, fun _ => rfl, .inl rfl⟩
      · exact ⟨rfl, id, .inl rfl⟩
  cases h with
  | register hcall hid =>
    exact ⟨job, by rw [List.getElem?_append_left (List.getElem?_eq_some_iff.mp hj).1, hj], rfl, id, .inl rfl⟩
  | requestCancel handle => exact hcancel handle
  | tryCancel _ handle => exact hcancel handle
  | @work a h job₀ job' worker hw hjob hwork =>
    have hcurrent : h ∈ x.worker.current := by
      rw [Worker.current, hw]
      exact List.mem_singleton_self h
    by_cases e : h = i
    · subst e
      obtain rfl := Option.some.inj (hjob.symm.trans hj)
      have hspec := Worker.work_spec hw hwork (hx.inHand hjob hcurrent)
      exact ⟨job', List.getElem?_set_self (List.getElem?_eq_some_iff.mp hjob).1, hspec.id,
        fun hc => hspec.cancelRequested.trans hc, hspec.state⟩
    · exact ⟨job, by rw [List.getElem?_set_ne e, hj], rfl, id, .inl rfl⟩
  | submit | enqueue | unknown | pop | leave | shutdown | join => exact ⟨job, hj, rfl, id, .inl rfl⟩

/-- A new job is queued. -/
theorem Moves.new_job {x y : HardwareExecutor} {a : Action} (h : Moves x a y) {i : ℕ} {job : HardwareJob}
    (hno : x.jobs[i]? = none) (hj : y.jobs[i]? = some job) : job.state = .queued := by
  have hcancel : ∀ handle, (x.requestCancel handle).jobs[i]? ≠ some job := by
    intro handle e
    rw [HardwareExecutor.requestCancel, List.getElem?_modify, hno] at e
    cases e
  cases h with
  | register hcall hid =>
    rcases getElem?_concat_eq_some hj with hj | ⟨-, rfl⟩
    · exact absurd (hno.symm.trans hj) nofun
    · rfl
  | requestCancel handle => exact absurd hj (hcancel handle)
  | tryCancel _ handle => exact absurd hj (hcancel handle)
  | work hw hjob hwork =>
    rcases getElem?_set_eq_some hj with ⟨rfl, -⟩ | ⟨-, hj⟩
    · exact absurd (hno.symm.trans hjob) nofun
    · exact absurd (hno.symm.trans hj) nofun
  | submit | enqueue | unknown | pop | leave | shutdown | join => exact absurd (hno.symm.trans hj) nofun

/-- A job that is over is one that the worker is through with. -/
theorem Inv.settled_of_terminal {x : HardwareExecutor} (hx : Inv x) {i : ℕ} {job : HardwareJob}
    (hj : x.jobs[i]? = some job) (hterminal : Terminal job.state) : job.Settled := by
  by_cases hbehind : i ∈ x.settled
  · exact hx.behind hj hbehind
  · exfalso
    by_cases hhand : i ∈ x.worker.current
    · have hhas := hx.inHand hj hhand
      have hstate : job.state = .queued ∨ job.state = .running := by
        cases hw : x.worker
        all_goals rw [hw] at hhas hhand
        case waiting | left => cases hhand
        case taken | starting => exact .inl hhas
        case skipping => exact .inl hhas.1
        case executing | cancelling => exact .inr hhas
        case returned | storing | completing | failing | reporting => exact .inr hhas.1
      rcases hstate with e | e <;> rw [e] at hterminal <;> exact hterminal
    · have hahead := hx.ahead hj fun hmem => (List.mem_append.mp hmem).elim hbehind hhand
      rw [hahead] at hterminal
      exact hterminal

/-! ### Finding a job by its id -/

/-- A job is registered under its id. -/
def Registered (x : HardwareExecutor) : Prop :=
  ∀ id handle, x.jobRegistry.lookup id = some handle ↔ (x.jobs.map HardwareJob.id)[handle]? = some id

/-- Only a job that is made is registered. -/
theorem Registered.step {x y : HardwareExecutor} {a : Action} (hx : Inv x) (h : Registered x)
    (ha : x.step a = some y) : Registered y := by
  have hcancel : ∀ handle, Registered (x.requestCancel handle) := by
    intro handle id h'
    have hids : (x.requestCancel handle).jobs.map HardwareJob.id = x.jobs.map HardwareJob.id := by
      refine List.ext_getElem? fun i => ?_
      rw [HardwareExecutor.requestCancel, List.getElem?_map, List.getElem?_map, List.getElem?_modify]
      cases x.jobs[i]? with
      | none => rfl
      | some job =>
        simp only [Option.map_eq_map, Option.map_some]
        split
        · rfl
        · rfl
    rw [hids]
    exact h id h'
  cases Moves.of_step ha with
  | @register call label id hcall hid =>
    intro id' handle
    have hmap : (x.jobs ++ [({ id, label } : HardwareJob)]).map HardwareJob.id = x.jobs.map HardwareJob.id ++ [id] :=
      List.map_append
    have hlen : x.jobs.length = (x.jobs.map HardwareJob.id).length := by rw [List.length_map]
    rw [hmap]
    by_cases e : id' = id
    · subst e
      rw [AList.lookup_insert, Option.some.injEq]
      constructor
      · rintro rfl
        rw [hlen]
        exact List.getElem?_concat_length
      · intro hj
        rcases getElem?_concat_eq_some hj with hj | ⟨e, -⟩
        · obtain ⟨job, hmem, e⟩ := List.mem_map.mp (List.mem_of_getElem? hj)
          exact absurd e (hid job hmem)
        · exact hlen.trans e.symm
    · rw [AList.lookup_insert_ne e, h id' handle]
      constructor
      · intro hj
        rw [List.getElem?_append_left (List.getElem?_eq_some_iff.mp hj).1, hj]
      · intro hj
        exact (getElem?_concat_eq_some hj).resolve_right fun e' => e e'.2
  | requestCancel handle => exact hcancel handle
  | tryCancel _ handle => exact hcancel handle
  | @work a h' job job' worker hw hjob hwork =>
    have hcurrent : h' ∈ x.worker.current := by
      rw [Worker.current, hw]
      exact List.mem_singleton_self h'
    have hids : (x.jobs.set h' job').map HardwareJob.id = x.jobs.map HardwareJob.id := by
      refine List.ext_getElem? fun i => ?_
      rw [List.getElem?_map, List.getElem?_map]
      by_cases e : h' = i
      · subst e
        rw [List.getElem?_set_self (List.getElem?_eq_some_iff.mp hjob).1, hjob, Option.map_some, Option.map_some,
          (Worker.work_spec hw hwork (hx.inHand hjob hcurrent)).id]
      · rw [List.getElem?_set_ne e]
    intro id handle
    rw [hids]
    exact h id handle
  | submit | enqueue | unknown | pop | leave | shutdown | join => exact h

/-- What is found by an id is the job with this id. -/
theorem poll_eq_some {as : List Action} {x : HardwareExecutor} (h : steps HardwareExecutor.step .fresh as = some x)
    {id : String} {snap : Snapshot} :
    x.poll id = some snap ↔ ∃ handle, x.snapshot handle = some snap ∧ snap.id = id := by
  have hreg : Registered x := by
    refine (steps_invariant (P := fun x => Inv x ∧ Registered x) ?_ h ⟨Inv.fresh, fun id handle => ?_⟩).2
    · exact fun _ _ _ ha hz => ⟨hz.1.step ha, hz.2.step hz.1 ha⟩
    · exact iff_of_false nofun nofun
  have hsnap : ∀ {handle : ℕ} {job : HardwareJob}, x.jobs[handle]? = some job → x.snapshot handle = some job.snapshot := by
    intro handle job hj
    rw [HardwareExecutor.snapshot, hj]
    rfl
  rw [HardwareExecutor.poll, Option.bind_eq_some_iff]
  constructor
  · rintro ⟨handle, hlookup, hs⟩
    refine ⟨handle, hs, ?_⟩
    obtain ⟨job, hj, rfl⟩ := Option.map_eq_some_iff.mp (List.getElem?_map ▸ (hreg id handle).mp hlookup)
    rw [hsnap hj] at hs
    obtain rfl := Option.some.inj hs
    rfl
  · rintro ⟨handle, hs, rfl⟩
    refine ⟨handle, (hreg _ handle).mpr ?_, hs⟩
    obtain ⟨job, hj, rfl⟩ := Option.map_eq_some_iff.mp hs
    rw [List.getElem?_map, hj]
    rfl

/-! ### What clients see -/

/-- The states that a job goes through: queued, running and one in which it is over, or queued and cancelled. -/
def LifePath (states : List JobState) : Prop :=
  (∃ last, Terminal last ∧ states <+: [.queued, .running, last]) ∨ states <+: [.queued, .cancelled]

/-- The state of a job, as a client sees it. -/
def HardwareExecutor.stateOf (x : HardwareExecutor) (handle : ℕ) : Option JobState :=
  (x.snapshot handle).map Snapshot.state

/-- The different states of a job that can be seen, one after the other, during a run. -/
def seen (handle : ℕ) (as : List Action) : List JobState :=
  ((trace HardwareExecutor.step .fresh as).filterMap (·.stateOf handle)).destutter (· ≠ ·)

theorem LifePath.nil : LifePath [] := .inr List.nil_prefix

theorem LifePath.queued : LifePath [.queued] := .inr ⟨[.cancelled], rfl⟩

/-- A state that may follow. -/
theorem LifePath.follow {states : List JobState} {s s' : JobState} (h : LifePath states)
    (hlast : states.getLast? = some s) (hf : Follows s s') : LifePath (states ++ [s']) := by
  have hover : ∀ {last : JobState}, Terminal last → ¬Follows last s' := by
    intro last hterminal hfollows
    cases last <;> first | exact hterminal | exact hfollows
  rcases h with ⟨last, hterminal, hp⟩ | hp
  · rw [List.prefix_cons_iff] at hp
    rcases hp with rfl | ⟨t, rfl, hp⟩
    · cases hlast
    rw [List.prefix_cons_iff] at hp
    rcases hp with rfl | ⟨t, rfl, hp⟩
    · obtain rfl : JobState.queued = s := Option.some.inj hlast
      cases s' with
      | running => exact .inl ⟨.complete, trivial, ⟨[.complete], rfl⟩⟩
      | cancelled => exact .inr (List.prefix_refl _)
      | queued | complete | failed => exact hf.elim
    rw [List.prefix_cons_iff] at hp
    rcases hp with rfl | ⟨t, rfl, hp⟩
    · obtain rfl : JobState.running = s := Option.some.inj hlast
      refine .inl ⟨s', ?_, List.prefix_refl _⟩
      cases s' with
      | complete | failed | cancelled => trivial
      | queued | running => exact hf.elim
    · obtain rfl := List.prefix_nil.mp hp
      obtain rfl : last = s := Option.some.inj hlast
      exact absurd hf (hover hterminal)
  · rw [List.prefix_cons_iff] at hp
    rcases hp with rfl | ⟨t, rfl, hp⟩
    · cases hlast
    rw [List.prefix_cons_iff] at hp
    rcases hp with rfl | ⟨t, rfl, hp⟩
    · obtain rfl : JobState.queued = s := Option.some.inj hlast
      cases s' with
      | running => exact .inl ⟨.complete, trivial, ⟨[.complete], rfl⟩⟩
      | cancelled => exact .inr (List.prefix_refl _)
      | queued | complete | failed => exact hf.elim
    · obtain rfl := List.prefix_nil.mp hp
      obtain rfl : JobState.cancelled = s := Option.some.inj hlast
      exact absurd hf (hover (show Terminal .cancelled from trivial))

theorem stateOf_eq_some {x : HardwareExecutor} {handle : ℕ} {s : JobState} :
    x.stateOf handle = some s ↔ ∃ job, x.jobs[handle]? = some job ∧ job.state = s := by
  rw [HardwareExecutor.stateOf, HardwareExecutor.snapshot, Option.map_map, Option.map_eq_some_iff]
  rfl

/-- What is seen of a job is a path, of which the last is its state. -/
theorem seen_path (handle : ℕ) {as : List Action} {x : HardwareExecutor}
    (h : steps HardwareExecutor.step .fresh as = some x) :
    LifePath (seen handle as) ∧ (seen handle as).getLast? = x.stateOf handle := by
  refine (steps_induction (P := fun as x => Inv x ∧ LifePath (seen handle as) ∧
    (seen handle as).getLast? = x.stateOf handle) ⟨Inv.fresh, LifePath.nil, rfl⟩ ?_ h).2
  rintro as x a y hx ⟨hinv, hpath, hlast⟩ ha
  refine ⟨hinv.step ha, ?_⟩
  have hmoves := Moves.of_step ha
  rw [seen] at hpath hlast
  rw [seen, trace_concat hx ha, List.filterMap_append]
  set states := (trace HardwareExecutor.step .fresh as).filterMap (·.stateOf handle)
  cases hy : y.stateOf handle with
  | none =>
    -- the job is not there, and was not before
    have hno : x.stateOf handle = none := by
      by_contra hne
      obtain ⟨s, hs⟩ := Option.ne_none_iff_exists'.mp hne
      obtain ⟨job, hj, -⟩ := stateOf_eq_some.mp hs
      obtain ⟨job', hj', -⟩ := hmoves.job hinv hj
      rw [stateOf_eq_some.mpr ⟨job', hj', rfl⟩] at hy
      cases hy
    simp only [List.filterMap_cons, List.filterMap_nil, hy, List.append_nil]
    exact ⟨hpath, hlast.trans hno⟩
  | some s' =>
    obtain ⟨job', hj', rfl⟩ := stateOf_eq_some.mp hy
    simp only [List.filterMap_cons, List.filterMap_nil, hy]
    rw [getLast?_destutter, List.getLast?_concat, destutter_concat]
    refine ⟨?_, rfl⟩
    split
    case isTrue => exact hpath
    case isFalse hnew =>
      cases hj : x.jobs[handle]? with
      | none =>
        have hnone : x.stateOf handle = none := by
          rw [HardwareExecutor.stateOf, HardwareExecutor.snapshot, hj]
          rfl
        rw [List.getLast?_eq_none_iff.mp (hlast.trans hnone), hmoves.new_job hj hj']
        exact LifePath.queued
      | some job =>
        obtain ⟨job'', hj'', -, -, hstate⟩ := hmoves.job hinv hj
        obtain rfl := Option.some.inj (hj'.symm.trans hj'')
        have hs : x.stateOf handle = some job.state := stateOf_eq_some.mpr ⟨job, hj, rfl⟩
        refine hpath.follow (hlast.trans hs) (hstate.resolve_left fun e => hnew ?_)
        rw [← getLast?_destutter, hlast, hs, e]

/-- A state in which a job is over never changes. -/
theorem terminal_stays {x y : HardwareExecutor} {as : List Action} (hy : Inv y)
    (h : steps HardwareExecutor.step y as = some x) {handle : ℕ} {s : JobState} (hs : Terminal s)
    (hj : y.stateOf handle = some s) : x.stateOf handle = some s := by
  refine (steps_invariant (P := fun z => Inv z ∧ z.stateOf handle = some s) ?_ h ⟨hy, hj⟩).2
  rintro z a w ha ⟨hz, hzs⟩
  refine ⟨hz.step ha, ?_⟩
  obtain ⟨job, hjob, rfl⟩ := stateOf_eq_some.mp hzs
  obtain ⟨job', hj', -, -, hstate⟩ := (Moves.of_step ha).job hz hjob
  refine stateOf_eq_some.mpr ⟨job', hj', hstate.resolve_right fun hf => ?_⟩
  revert hs hf
  cases job.state <;> first | exact fun hs _ => hs.elim | exact fun _ hf => hf.elim

/-! ### Jobs cancelled in the queue -/

/-- A job that is not going to be run: its cancellation has been requested, it has not been begun, and the worker has
still to look at it, or is through with it. -/
def Doomed (handle : ℕ) (x : HardwareExecutor) : Prop :=
  (∃ job, x.jobs[handle]? = some job ∧ job.cancelRequested = true) ∧ handle ∉ x.started ∧
    (handle ∈ x.queue ∨ x.worker = .taken handle ∨ x.worker = .skipping handle ∨ handle ∈ x.settled)

theorem Worker.begun_sublist (w : Worker) : w.begun.Sublist w.current := by
  cases w with
  | waiting | left | executing | returned | cancelling | storing | completing | failing | reporting =>
    exact List.Sublist.refl _
  | taken | skipping | starting => exact List.nil_sublist _

/-- A job in the queue has not been begun. -/
theorem Inv.not_started_of_mem_queue {x : HardwareExecutor} (hx : Inv x) {h : ℕ} (hmem : h ∈ x.queue) :
    h ∉ x.started := by
  intro hstarted
  have hplace : h ∈ x.settled ++ x.worker.current :=
    ((List.Sublist.refl x.settled).append x.worker.begun_sublist).subset (hx.order.subset hstarted)
  have hnodup := hx.nodup
  rw [hx.places] at hnodup
  exact (List.nodup_append.mp hnodup).2.2 h hplace h hmem rfl

/-- Every step leaves a doomed job doomed. -/
theorem Doomed.step {x y : HardwareExecutor} {a : Action} (hx : Inv x) {handle : ℕ} (h : Doomed handle x)
    (ha : x.step a = some y) : Doomed handle y := by
  have hmoves := Moves.of_step ha
  obtain ⟨⟨job, hj, hc⟩, hstarted, hplace⟩ := h
  obtain ⟨job', hj', -, hc', -⟩ := hmoves.job hx hj
  refine ⟨⟨job', hj', hc' hc⟩, ?_⟩
  cases hmoves with
  | enqueue hcall => exact ⟨hstarted, hplace.imp_left (List.mem_append_left _)⟩
  | @pop h queue hw hq =>
    refine ⟨hstarted, ?_⟩
    rw [hq, hw, List.mem_cons] at hplace
    rcases hplace with (rfl | hmem) | h | h | hmem
    · exact .inr (.inl rfl)
    · exact .inl hmem
    · cases h
    · cases h
    · exact .inr (.inr (.inr hmem))
  | @work a h job₀ job₁ worker hw hjob hwork =>
    have hcurrent : x.worker.current = [h] := by rw [Worker.current, hw]; rfl
    have hnodup := hx.nodup
    rw [hx.places, hcurrent] at hnodup
    -- another job is in hand, which may be begun
    have hother : handle ≠ h → handle ∉ x.started ++ a.begins h := by
      intro hne hmem
      rcases List.mem_append.mp hmem with hmem | hmem
      · exact hstarted hmem
      · cases a with
        | begin => exact hne (List.mem_singleton.mp hmem)
        | check | progress | finish | store | settle => cases hmem
    rcases hplace with hmem | htaken | hskipping | hmem
    · refine ⟨hother fun e => ?_, .inl hmem⟩
      exact (List.nodup_append.mp hnodup).2.2 h (List.mem_append_right _ (List.mem_singleton_self h)) h (e ▸ hmem) rfl
    · -- it is in hand, and the worker looks at its flag
      rw [htaken] at hw hwork
      obtain rfl : handle = h := Option.some.inj hw
      obtain rfl := Option.some.inj (hjob.symm.trans hj)
      cases a with
      | check =>
        obtain ⟨rfl, -⟩ := Prod.mk.inj (Option.some.inj hwork)
        refine ⟨?_, .inr (.inr (.inl (if_pos hc)))⟩
        show handle ∉ x.started ++ []
        rwa [List.append_nil]
      | begin | progress | finish | store | settle => cases hwork
    · rw [hskipping] at hw hwork
      obtain rfl : handle = h := Option.some.inj hw
      cases a with
      | settle =>
        refine ⟨?_, .inr (.inr (.inr (List.mem_append_right _ (List.mem_singleton_self _))))⟩
        show handle ∉ x.started ++ []
        rwa [List.append_nil]
      | check | begin | progress | finish | store => cases hwork
    · refine ⟨hother fun e => ?_, .inr (.inr (.inr (List.mem_append_left _ hmem)))⟩
      rw [List.append_assoc] at hnodup
      exact (List.nodup_append.mp hnodup).2.2 handle hmem handle (e ▸ List.mem_cons_self) rfl
  | leave hw hq =>
    rw [hq, hw] at hplace
    rcases hplace with hmem | h | h | hmem
    · cases hmem
    · cases h
    · cases h
    · exact ⟨hstarted, .inr (.inr (.inr hmem))⟩
  | submit | register | requestCancel | tryCancel | unknown | shutdown | join => exact ⟨hstarted, hplace⟩

/-! ### The life cycle -/

/-- After any interleaving of the clients' calls with the worker's sections: no job has been begun twice, and the jobs
have been begun in the order in which they were put in the queue; what has been seen of a job is a path; a state in which a
job is over has not changed since; a complete job has the result that its task returned, and a failed one its error; and
a job whose cancellation was requested in the queue has not been begun. -/
theorem life_cycle {as : List Action} {x : HardwareExecutor} (h : steps HardwareExecutor.step .fresh as = some x) :
    (x.started.Nodup ∧ x.started.Sublist x.enqueued) ∧
    (∀ handle, LifePath (seen handle as)) ∧
    (∀ bs cs y handle s, as = bs ++ cs → steps HardwareExecutor.step .fresh bs = some y → y.stateOf handle = some s →
      Terminal s → x.stateOf handle = some s) ∧
    (∀ (handle : ℕ) (job : HardwareJob), x.jobs[handle]? = some job →
      (job.snapshot.state = .complete → job.ended = some (.returned job.snapshot.result)) ∧
      (job.snapshot.state = .failed → ∃ ending, job.ended = some ending ∧ ending.error = some job.snapshot.error)) ∧
    (∀ bs cs y handle (job : HardwareJob), as = bs ++ cs → steps HardwareExecutor.step .fresh bs = some y →
      handle ∈ y.queue → y.jobs[handle]? = some job → job.cancelRequested = true → handle ∉ x.started) := by
  have hx := Inv.of_steps h
  have horder : x.started.Sublist x.enqueued := by
    rw [hx.places]
    exact (hx.order.trans ((List.Sublist.refl _).append x.worker.begun_sublist)).trans (List.sublist_append_left _ _)
  refine ⟨⟨horder.nodup hx.nodup, horder⟩, fun handle => (seen_path handle h).1, ?_, ?_, ?_⟩
  · rintro bs cs y handle s rfl hy hs hterminal
    obtain ⟨y', hy', hrest⟩ := steps_split h
    obtain rfl := Option.some.inj (hy.symm.trans hy')
    exact terminal_stays (Inv.of_steps hy) hrest hterminal hs
  · intro handle job hj
    constructor
    · intro hcomplete
      rcases hx.settled_of_terminal hj (by rw [show job.state = .complete from hcomplete]; trivial) with e | e | e
      · exact absurd (e.symm.trans hcomplete) nofun
      · exact e.2
      · exact absurd (e.1.symm.trans hcomplete) nofun
    · intro hfailed
      rcases hx.settled_of_terminal hj (by rw [show job.state = .failed from hfailed]; trivial) with e | e | e
      · exact absurd (e.symm.trans hfailed) nofun
      · exact absurd (e.1.symm.trans hfailed) nofun
      · exact e.2
  · rintro bs cs y handle job rfl hy hmem hj hc
    obtain ⟨y', hy', hrest⟩ := steps_split h
    obtain rfl := Option.some.inj (hy.symm.trans hy')
    have hinv := Inv.of_steps hy
    have hdoomed : Doomed handle y := ⟨⟨job, hj, hc⟩, hinv.not_started_of_mem_queue hmem, .inl hmem⟩
    have hend := steps_invariant (P := fun z => Inv z ∧ Doomed handle z)
      (fun _ _ _ ha hz => ⟨hz.1.step ha, hz.2.step hz.1 ha⟩) hrest ⟨hinv, hdoomed⟩
    exact hend.2.2.1

/-- A client submits two jobs and cancels the second while the first is being run. -/
def sampleActions : List Action :=
  [.submit "a", .register 0 "1", .enqueue 0, .submit "b", .register 1 "2", .enqueue 1, .pop, .work .check, .work .begin,
    .tryCancel "2", .work (.finish (.returned (.int 7))), .work .check, .work .store, .work .settle, .pop, .work .check,
    .work .settle]

theorem sample_life_cycle : ∃ x, steps HardwareExecutor.step .fresh sampleActions = some x ∧ x.started.Nodup ∧
    LifePath (seen 0 sampleActions) ∧ seen 0 sampleActions = [.queued, .running, .complete] ∧
    seen 1 sampleActions = [.queued, .cancelled] := by
  have hrun : ∃ x, steps HardwareExecutor.step .fresh sampleActions = some x := ⟨_, rfl⟩
  obtain ⟨x, hx⟩ := hrun
  obtain ⟨⟨hnodup, -⟩, hpath, -⟩ := life_cycle hx
  exact ⟨x, hx, hnodup, hpath 0, by decide, by decide⟩

end OwlTap.Jobs
