import OwlTap.Jobs.HardwareExecutor

/-!
# Where the jobs are

Whatever the clients and the worker do, and in whatever order, the jobs that have been put in the
queue are in one of three places: the worker is through with them, it has one in hand, and the
others are still in the queue, in the order in which they were put there (`Inv`). `Moves` says what
each step does, and `Worker.Section` what the worker does with the job in hand.
-/

namespace OwlTap.Jobs

open OwlTap.Hardware (JobState)

/-! ### What a job may be -/

/-- A job in this state is over. -/
def Terminal : JobState → Prop
  | .complete | .failed | .cancelled => True
  | .queued | .running => False

/-- What a state can change to. -/
def Follows : JobState → JobState → Prop
  | .queued, .running | .queued, .cancelled => True
  | .running, .complete | .running, .failed | .running, .cancelled => True
  | _, _ => False

/-- A job that the worker is through with: cancelled, or with the result or the error of its task. -/
def HardwareJob.Settled (job : HardwareJob) : Prop :=
  job.state = .cancelled ∨ (job.state = .complete ∧ job.ended = some (.returned job.result)) ∨
    (job.state = .failed ∧ ∃ ending, job.ended = some ending ∧ ending.error = some job.error)

namespace Worker

/-- The job that it has in hand. -/
def current (w : Worker) : List ℕ := w.handle?.toList

/-- The job in hand, if its task has been begun. -/
def begun : Worker → List ℕ
  | executing h | returned h _ | cancelling h | storing h _ | completing h | failing h _ | reporting h => [h]
  | _ => []

/-- What the job in hand is like. -/
def Has : Worker → HardwareJob → Prop
  | waiting, _ | left, _ => True
  | taken _, job | starting _, job => job.state = .queued
  | skipping _, job => job.state = .queued ∧ job.cancelRequested = true
  | executing _, job | cancelling _, job => job.state = .running
  | returned _ result, job | storing _ result, job => job.state = .running ∧ job.ended = some (.returned result)
  | completing _, job => job.state = .running ∧ job.ended = some (.returned job.result)
  | failing _ what, job => job.state = .running ∧ ∃ ending, job.ended = some ending ∧ ending.error = some what
  | reporting _, job => job.state = .running ∧ ∃ ending, job.ended = some ending ∧ ending.error = some job.error

/-- What a section of the worker's does with the job in hand. -/
structure Section (h : ℕ) (a : WorkerAction) (w : Worker) (job : HardwareJob) (w' : Worker) (job' : HardwareJob) :
    Prop where
  /-- The worker stays in its loop. -/
  stays : w' ≠ .left
  /-- The job stays in hand, or the worker is through with it. -/
  current : w.current = a.settles h ++ w'.current
  /-- When the task is begun it has not been begun before. -/
  begun : (w.begun ++ a.begins h).Sublist (a.settles h ++ w'.begun)
  /-- The job is as it has to be. -/
  has : w'.Has job'
  /-- The worker is through with a job that is over. -/
  settled : a.settles h ≠ [] → job'.Settled
  /-- The id stays. -/
  id : job'.id = job.id
  /-- The flag stays. -/
  cancelRequested : job'.cancelRequested = job.cancelRequested
  /-- The state stays, or changes to one that may follow. -/
  state : job'.state = job.state ∨ Follows job.state job'.state

theorem work_spec {w w' : Worker} {a : WorkerAction} {job job' : HardwareJob} {h : ℕ} (hw : w.handle? = some h)
    (hwork : w.work a job = some (w', job')) (hhas : w.Has job) : Section h a w job w' job' := by
  fun_cases work w a job
  case case14 => simp only [work, reduceCtorEq] at hwork
  all_goals
    obtain rfl := Option.some.inj hw
    obtain ⟨rfl, rfl⟩ := Prod.mk.inj (Option.some.inj hwork)
  case case1 h =>
    by_cases hc : job.cancelRequested = true
    · rw [if_pos hc]
      exact ⟨nofun, rfl, List.nil_sublist _, ⟨hhas, hc⟩, fun hne => absurd rfl hne, rfl, rfl, .inl rfl⟩
    · rw [if_neg hc]
      exact ⟨nofun, rfl, List.nil_sublist _, hhas, fun hne => absurd rfl hne, rfl, rfl, .inl rfl⟩
  case case2 h =>
    exact ⟨nofun, rfl, List.nil_sublist _, trivial, fun _ => .inl rfl, rfl, rfl, .inr (by rw [hhas.1]; trivial)⟩
  case case3 h =>
    exact ⟨nofun, rfl, List.Sublist.refl _, rfl, fun hne => absurd rfl hne, rfl, rfl, .inr (by rw [hhas]; trivial)⟩
  case case4 h p =>
    exact ⟨nofun, rfl, List.Sublist.refl _, hhas, fun hne => absurd rfl hne, rfl, rfl, .inl rfl⟩
  case case5 h result =>
    exact ⟨nofun, rfl, List.Sublist.refl _, ⟨hhas, rfl⟩, fun hne => absurd rfl hne, rfl, rfl, .inl rfl⟩
  case case6 h what =>
    exact ⟨nofun, rfl, List.Sublist.refl _, ⟨hhas, _, rfl, rfl⟩, fun hne => absurd rfl hne, rfl, rfl, .inl rfl⟩
  case case7 h =>
    exact ⟨nofun, rfl, List.Sublist.refl _, ⟨hhas, _, rfl, rfl⟩, fun hne => absurd rfl hne, rfl, rfl, .inl rfl⟩
  case case8 h result =>
    by_cases hc : job.cancelRequested = true
    · rw [if_pos hc]
      exact ⟨nofun, rfl, List.Sublist.refl _, hhas.1, fun hne => absurd rfl hne, rfl, rfl, .inl rfl⟩
    · rw [if_neg hc]
      exact ⟨nofun, rfl, List.Sublist.refl _, hhas, fun hne => absurd rfl hne, rfl, rfl, .inl rfl⟩
  case case9 h =>
    exact ⟨nofun, rfl, List.Sublist.refl _, trivial, fun _ => .inl rfl, rfl, rfl,
      .inr (by rw [show job.state = .running from hhas]; trivial)⟩
  case case10 h result =>
    exact ⟨nofun, rfl, List.Sublist.refl _, hhas, fun hne => absurd rfl hne, rfl, rfl, .inl rfl⟩
  case case11 h =>
    exact ⟨nofun, rfl, List.Sublist.refl _, trivial, fun _ => .inr (.inl ⟨rfl, hhas.2⟩), rfl, rfl,
      .inr (by rw [hhas.1]; trivial)⟩
  case case12 h what =>
    exact ⟨nofun, rfl, List.Sublist.refl _, hhas, fun hne => absurd rfl hne, rfl, rfl, .inl rfl⟩
  case case13 h =>
    exact ⟨nofun, rfl, List.Sublist.refl _, trivial, fun _ => .inr (.inr ⟨rfl, hhas.2⟩), rfl, rfl,
      .inr (by rw [hhas.1]; trivial)⟩

end Worker

/-! ### What a step can do -/

/-- What a step does, and what it needs. -/
inductive Moves (x : HardwareExecutor) : Action → HardwareExecutor → Prop where
  | submit {label : String} {call : SubmitCall} (hcall : call = .checked label ∨ call = .refused) :
    Moves x (.submit label) { x with submits := x.submits ++ [call] }
  | register {call : ℕ} {label id : String} (hcall : x.submits[call]? = some (.checked label))
      (hid : ∀ job ∈ x.jobs, job.id ≠ id) :
    Moves x (.register call id) { x with
      jobs := x.jobs ++ [{ id, label }]
      jobRegistry := x.jobRegistry.insert id x.jobs.length
      submits := x.submits.set call (.registered x.jobs.length) }
  | enqueue {call handle : ℕ} (hcall : x.submits[call]? = some (.registered handle)) :
    Moves x (.enqueue call) { x with
      queue := x.queue ++ [handle]
      submits := x.submits.set call (.returned handle)
      enqueued := x.enqueued ++ [handle] }
  | requestCancel (handle : ℕ) : Moves x (.requestCancel handle) (x.requestCancel handle)
  | tryCancel (id : String) (handle : ℕ) : Moves x (.tryCancel id) (x.requestCancel handle)
  | unknown (id : String) : Moves x (.tryCancel id) x
  | pop {handle : ℕ} {queue : List ℕ} (hw : x.worker = .waiting) (hq : x.queue = handle :: queue) :
    Moves x .pop { x with queue, worker := .taken handle }
  | work {a : WorkerAction} {h : ℕ} {job job' : HardwareJob} {worker : Worker} (hw : x.worker.handle? = some h)
      (hjob : x.jobs[h]? = some job) (hwork : x.worker.work a job = some (worker, job')) :
    Moves x (.work a) { x with
      worker
      jobs := x.jobs.set h job'
      started := x.started ++ a.begins h
      settled := x.settled ++ a.settles h }
  | leave (hw : x.worker = .waiting) (hq : x.queue = []) : Moves x .leave { x with worker := .left }
  | shutdown {a : Action} {running stopFlag : Bool} {shutdownCall : ShutdownCall}
      (hcall : a = .shutdown ∨ a = .setStopFlag ∨ a = .clearRunning) (hleft : shutdownCall ≠ .joined)
      (hreturned : shutdownCall = .returned → x.running = false ∨ x.shutdownCall = .joined)
      (hrunning : running = x.running ∨ x.shutdownCall = .joined ∧ shutdownCall = .returned) :
    Moves x a { x with running, stopFlag, shutdownCall }
  | join (hw : x.worker = .left) : Moves x .join { x with shutdownCall := .joined }

theorem Moves.of_step {x y : HardwareExecutor} {a : Action} (h : x.step a = some y) : Moves x a y := by
  cases a with
  | submit label =>
    obtain rfl := Option.some.inj h
    refine .submit ?_
    split
    · exact .inl rfl
    · exact .inr rfl
  | register call id =>
    simp only [HardwareExecutor.step] at h
    split at h
    case h_1 label hcall =>
      split at h
      case isTrue => cases h
      case isFalse hid =>
        obtain rfl := Option.some.inj h
        exact .register hcall fun job hmem e => hid ⟨job, hmem, e⟩
    case h_2 => cases h
  | enqueue call =>
    simp only [HardwareExecutor.step] at h
    split at h
    case h_1 handle hcall =>
      obtain rfl := Option.some.inj h
      exact .enqueue hcall
    case h_2 => cases h
  | requestCancel handle =>
    obtain rfl := Option.some.inj h
    exact .requestCancel handle
  | tryCancel id =>
    simp only [HardwareExecutor.step] at h
    split at h
    case h_1 handle _ =>
      obtain rfl := Option.some.inj h
      exact .tryCancel id handle
    case h_2 =>
      obtain rfl := Option.some.inj h
      exact .unknown id
  | pop =>
    simp only [HardwareExecutor.step] at h
    split at h
    case h_1 hw hq =>
      obtain rfl := Option.some.inj h
      exact .pop hw hq
    case h_2 => cases h
  | work a =>
    obtain ⟨handle, hw, h⟩ := Option.bind_eq_some_iff.mp h
    obtain ⟨job, hjob, h⟩ := Option.bind_eq_some_iff.mp h
    obtain ⟨⟨w', job'⟩, hwork, rfl⟩ := Option.map_eq_some_iff.mp h
    exact .work hw hjob hwork
  | leave =>
    simp only [HardwareExecutor.step] at h
    split at h
    case h_1 hw hq =>
      split at h
      case isTrue =>
        obtain rfl := Option.some.inj h
        exact .leave hw hq
      case isFalse => cases h
    case h_2 => cases h
  | shutdown =>
    simp only [HardwareExecutor.step] at h
    split at h
    case isTrue =>
      obtain rfl := Option.some.inj h
      cases hr : x.running with
      | true => exact .shutdown (.inl rfl) nofun nofun (.inl hr.symm)
      | false => exact .shutdown (.inl rfl) nofun (fun _ => .inl hr) (.inl hr.symm)
    case isFalse => cases h
  | setStopFlag =>
    simp only [HardwareExecutor.step] at h
    split at h
    case isTrue =>
      obtain rfl := Option.some.inj h
      exact .shutdown (.inr (.inl rfl)) nofun nofun (.inl rfl)
    case isFalse => cases h
  | join =>
    simp only [HardwareExecutor.step] at h
    split at h
    case h_1 hw =>
      obtain rfl := Option.some.inj h
      exact .join hw
    case h_2 => cases h
  | clearRunning =>
    simp only [HardwareExecutor.step] at h
    split at h
    case isTrue hjoined =>
      obtain rfl := Option.some.inj h
      exact .shutdown (.inr (.inr rfl)) nofun (fun _ => .inr hjoined) (.inr ⟨hjoined, rfl⟩)
    case isFalse => cases h

/-! ### The invariant -/

/-- Where the jobs are, and what they are like there. -/
structure Inv (x : HardwareExecutor) : Prop where
  /-- The jobs that have been in the queue: those that the worker is through with, the one in hand, those in the queue. -/
  places : x.enqueued = x.settled ++ x.worker.current ++ x.queue
  /-- The tasks have been begun in this order. -/
  order : x.started.Sublist (x.settled ++ x.worker.begun)
  /-- No job is put in the queue twice. -/
  nodup : x.enqueued.Nodup
  /-- The jobs in the queue are jobs. -/
  known : ∀ h ∈ x.enqueued, h < x.jobs.length
  /-- A call returns the job that it has put in the queue. -/
  returned : ∀ h, .returned h ∈ x.submits ↔ h ∈ x.enqueued
  /-- A job that is registered only. -/
  registered : ∀ {call h : ℕ}, x.submits[call]? = some (.registered h) → h < x.jobs.length ∧ h ∉ x.enqueued
  /-- It belongs to one call. -/
  distinct : ∀ {call call' h : ℕ}, x.submits[call]? = some (.registered h) → x.submits[call']? = some (.registered h) →
    call = call'
  /-- The jobs that the worker has not taken yet. -/
  ahead : ∀ {h : ℕ} {job : HardwareJob}, x.jobs[h]? = some job → h ∉ x.settled ++ x.worker.current → job.state = .queued
  /-- The job in hand. -/
  inHand : ∀ {h : ℕ} {job : HardwareJob}, x.jobs[h]? = some job → h ∈ x.worker.current → x.worker.Has job
  /-- The jobs that the worker is through with. -/
  behind : ∀ {h : ℕ} {job : HardwareJob}, x.jobs[h]? = some job → h ∈ x.settled → job.Settled

theorem getElem?_concat_eq_some {α : Type} {l : List α} {a b : α} {i : ℕ} (h : (l ++ [a])[i]? = some b) :
    l[i]? = some b ∨ i = l.length ∧ b = a := by
  rcases lt_trichotomy i l.length with hlt | rfl | hgt
  · exact .inl (by rwa [List.getElem?_append_left hlt] at h)
  · rw [List.getElem?_concat_length] at h
    exact .inr ⟨rfl, (Option.some.inj h).symm⟩
  · rw [List.getElem?_eq_none (by rw [List.length_append]; exact hgt)] at h
    cases h

theorem getElem?_set_eq_some {α : Type} {l : List α} {a b : α} {i j : ℕ} (h : (l.set i a)[j]? = some b) :
    j = i ∧ b = a ∨ j ≠ i ∧ l[j]? = some b := by
  by_cases e : i = j
  · subst e
    have hlt : i < l.length := by
      have := (List.getElem?_eq_some_iff.mp h).1
      rwa [List.length_set] at this
    rw [List.getElem?_set_self hlt] at h
    exact .inl ⟨rfl, (Option.some.inj h).symm⟩
  · rw [List.getElem?_set_ne e] at h
    exact .inr ⟨fun e' => e e'.symm, h⟩

theorem mem_set_of_ne {α : Type} {l : List α} {a b c : α} {i : ℕ} (h : l[i]? = some a) (hne : c ≠ a) (hc : c ∈ l) :
    c ∈ l.set i b := by
  obtain ⟨j, hj⟩ := List.mem_iff_getElem?.mp hc
  have hij : i ≠ j := fun e => hne (Option.some.inj (hj.symm.trans (e ▸ h)))
  exact List.mem_iff_getElem?.mpr ⟨j, by rw [List.getElem?_set_ne hij, hj]⟩

namespace Inv

variable {x y : HardwareExecutor}

theorem fresh : Inv HardwareExecutor.fresh where
  places := rfl
  order := List.Sublist.refl _
  nodup := List.nodup_nil
  known _ h := nomatch h
  returned _ := ⟨fun h => (nomatch h), fun h => nomatch h⟩
  registered h := nomatch h
  distinct h _ := nomatch h
  ahead h _ := nomatch h
  inHand h _ := nomatch h
  behind h _ := nomatch h

/-- A job that the worker has is in no other place. -/
theorem mem_enqueued (hx : Inv x) {h : ℕ} (hmem : h ∈ x.settled ++ x.worker.current) : h ∈ x.enqueued := by
  rw [hx.places]
  exact List.mem_append_left _ hmem

/-- A call of `submit` begins. -/
theorem submit (hx : Inv x) {c : SubmitCall} (hreturned : ∀ h, c ≠ .returned h) (hregistered : ∀ h, c ≠ .registered h) :
    Inv { x with submits := x.submits ++ [c] } := by
  have hcalls : ∀ {call h : ℕ}, (x.submits ++ [c])[call]? = some (.registered h) →
      x.submits[call]? = some (.registered h) := by
    intro call h hc
    exact (getElem?_concat_eq_some hc).resolve_right fun e => hregistered h e.2.symm
  refine { hx with returned := fun h => ?_, registered := fun hc => hx.registered (hcalls hc), distinct := ?_ }
  · rw [← hx.returned h, List.mem_append, List.mem_singleton, or_iff_left]
    exact fun e => hreturned h e.symm
  · exact fun hc hc' => hx.distinct (hcalls hc) (hcalls hc')

/-- A call makes a job and registers it. -/
theorem register (hx : Inv x) {call : ℕ} {label id : String} (hcall : x.submits[call]? = some (.checked label)) :
    Inv { x with
      jobs := x.jobs ++ [{ id, label }]
      jobRegistry := x.jobRegistry.insert id x.jobs.length
      submits := x.submits.set call (.registered x.jobs.length) } := by
  have hnew : x.jobs.length ∉ x.enqueued := fun h => lt_irrefl _ (hx.known _ h)
  have hlen : (x.jobs ++ [({ id, label } : HardwareJob)]).length = x.jobs.length + 1 := by
    rw [List.length_append, List.length_singleton]
  -- the calls that have registered a job: this one, and those before
  have hcalls : ∀ {call' h : ℕ}, (x.submits.set call (.registered x.jobs.length))[call']? = some (.registered h) →
      call' = call ∧ h = x.jobs.length ∨ call' ≠ call ∧ h < x.jobs.length ∧ x.submits[call']? = some (.registered h) := by
    intro call' h hc
    rcases getElem?_set_eq_some hc with ⟨rfl, e⟩ | ⟨hne, hc⟩
    · exact .inl ⟨rfl, SubmitCall.registered.inj e⟩
    · exact .inr ⟨hne, (hx.registered hc).1, hc⟩
  constructor
  case places => exact hx.places
  case order => exact hx.order
  case nodup => exact hx.nodup
  case known =>
    intro h hmem
    rw [hlen]
    exact Nat.lt_succ_of_lt (hx.known h hmem)
  case returned =>
    intro h
    rw [← hx.returned h]
    constructor
    · intro hmem
      exact (List.mem_or_eq_of_mem_set hmem).resolve_right fun e => by cases e
    · exact mem_set_of_ne hcall nofun
  case registered =>
    intro call' h hc
    rw [hlen]
    rcases hcalls hc with ⟨-, rfl⟩ | ⟨-, hlt, hc⟩
    · exact ⟨Nat.lt_succ_self _, hnew⟩
    · exact ⟨Nat.lt_succ_of_lt hlt, (hx.registered hc).2⟩
  case distinct =>
    intro call₁ call₂ h h₁ h₂
    rcases hcalls h₁ with ⟨rfl, rfl⟩ | ⟨-, hlt, h₁⟩
    · rcases hcalls h₂ with ⟨rfl, -⟩ | ⟨-, hlt, -⟩
      · rfl
      · exact absurd hlt (lt_irrefl _)
    · rcases hcalls h₂ with ⟨-, rfl⟩ | ⟨-, -, h₂⟩
      · exact absurd hlt (lt_irrefl _)
      · exact hx.distinct h₁ h₂
  case ahead =>
    intro h job hj hmem
    rcases getElem?_concat_eq_some hj with hj | ⟨-, rfl⟩
    · exact hx.ahead hj hmem
    · rfl
  case inHand =>
    intro h job hj hmem
    rcases getElem?_concat_eq_some hj with hj | ⟨rfl, -⟩
    · exact hx.inHand hj hmem
    · exact absurd (hx.mem_enqueued (List.mem_append_right _ hmem)) hnew
  case behind =>
    intro h job hj hmem
    rcases getElem?_concat_eq_some hj with hj | ⟨rfl, -⟩
    · exact hx.behind hj hmem
    · exact absurd (hx.mem_enqueued (List.mem_append_left _ hmem)) hnew

/-- A call puts its job in the queue. -/
theorem enqueue (hx : Inv x) {call handle : ℕ} (hcall : x.submits[call]? = some (.registered handle)) :
    Inv { x with
      queue := x.queue ++ [handle]
      submits := x.submits.set call (.returned handle)
      enqueued := x.enqueued ++ [handle] } := by
  obtain ⟨hlt, hnew⟩ := hx.registered hcall
  have hcalls : ∀ {call' h : ℕ}, (x.submits.set call (.returned handle))[call']? = some (.registered h) →
      call' ≠ call ∧ x.submits[call']? = some (.registered h) := by
    intro call' h hc
    exact (getElem?_set_eq_some hc).resolve_left fun e => by cases e.2
  constructor
  case places =>
    show x.enqueued ++ [handle] = _ ++ (x.queue ++ [handle])
    rw [← List.append_assoc, ← hx.places]
  case order => exact hx.order
  case nodup => exact List.nodup_append.mpr ⟨hx.nodup, List.nodup_singleton _, fun a ha b hb e =>
      hnew (by rwa [← List.mem_singleton.mp hb, ← e])⟩
  case known =>
    intro h hmem
    rcases List.mem_append.mp hmem with hmem | hmem
    · exact hx.known h hmem
    · rwa [List.mem_singleton.mp hmem]
  case returned =>
    intro h
    rw [List.mem_append, ← hx.returned h, List.mem_singleton]
    constructor
    · intro hmem
      rcases List.mem_or_eq_of_mem_set hmem with hmem | e
      · exact .inl hmem
      · exact .inr (SubmitCall.returned.inj e)
    · rintro (hmem | rfl)
      · exact mem_set_of_ne hcall nofun hmem
      · exact List.mem_set (List.getElem?_eq_some_iff.mp hcall).1 _
  case registered =>
    intro call' h hc
    obtain ⟨hne, hc⟩ := hcalls hc
    refine ⟨(hx.registered hc).1, fun hmem => ?_⟩
    rcases List.mem_append.mp hmem with hmem | hmem
    · exact (hx.registered hc).2 hmem
    · rw [List.mem_singleton.mp hmem] at hc
      exact hne (hx.distinct hc hcall)
  case distinct => exact fun h₁ h₂ => hx.distinct (hcalls h₁).2 (hcalls h₂).2
  case ahead => exact hx.ahead
  case inHand => exact hx.inHand
  case behind => exact hx.behind

/-- A job is cancelled by a client. -/
theorem requestCancel (hx : Inv x) (handle : ℕ) : Inv (x.requestCancel handle) := by
  -- only the flag of one job is set
  have hjobs : ∀ {h : ℕ} {job : HardwareJob}, (x.jobs.modify handle HardwareJob.requestCancel)[h]? = some job →
      x.jobs[h]? = some job ∨ ∃ job', x.jobs[h]? = some job' ∧ job = job'.requestCancel := by
    intro h job hj
    rw [List.getElem?_modify] at hj
    obtain ⟨job', hj', e⟩ := Option.map_eq_some_iff.mp hj
    by_cases heq : handle = h
    · rw [if_pos heq] at e
      exact .inr ⟨job', hj', e.symm⟩
    · rw [if_neg heq] at e
      exact .inl (e ▸ hj')
  have hhas : ∀ {w : Worker} {job : HardwareJob}, w.Has job → w.Has job.requestCancel := by
    intro w job h
    cases w
    case skipping => exact ⟨h.1, rfl⟩
    all_goals exact h
  have hlen : (x.jobs.modify handle HardwareJob.requestCancel).length = x.jobs.length := List.length_modify ..
  constructor
  case places => exact hx.places
  case order => exact hx.order
  case nodup => exact hx.nodup
  case known => exact fun h hmem => hlen.symm ▸ hx.known h hmem
  case returned => exact hx.returned
  case registered => exact fun hc => hlen.symm ▸ hx.registered hc
  case distinct => exact hx.distinct
  case ahead =>
    intro h job hj hmem
    rcases hjobs hj with hold | ⟨job', hold, rfl⟩
    · exact hx.ahead hold hmem
    · show job'.state = .queued
      exact hx.ahead hold hmem
  case inHand =>
    intro h job hj hmem
    rcases hjobs hj with hold | ⟨job', hold, rfl⟩
    · exact hx.inHand hold hmem
    · exact hhas (hx.inHand hold hmem)
  case behind =>
    intro h job hj hmem
    rcases hjobs hj with hold | ⟨job', hold, rfl⟩
    · exact hx.behind hold hmem
    · show job'.Settled
      exact hx.behind hold hmem

/-- The worker takes the first job of the queue. -/
theorem pop (hx : Inv x) {handle : ℕ} {queue : List ℕ} (hw : x.worker = .waiting) (hq : x.queue = handle :: queue) :
    Inv { x with queue, worker := .taken handle } := by
  have hplaces : x.enqueued = x.settled ++ [handle] ++ queue := by
    rw [hx.places, hw, hq, show Worker.waiting.current = [] from rfl, List.append_nil, List.append_assoc]
    rfl
  have hnew : handle ∉ x.settled ++ x.worker.current := by
    have := hx.nodup
    rw [hplaces, List.append_assoc] at this
    rw [hw, show Worker.waiting.current = [] from rfl, List.append_nil]
    exact fun hmem => (List.nodup_append.mp this).2.2 handle hmem handle List.mem_cons_self rfl
  have horder := hx.order
  rw [hw] at horder
  refine { hx with places := hplaces, order := horder, ahead := fun hj hmem => hx.ahead hj fun hmem' => hmem ?_, inHand := ?_ }
  · rw [hw, show Worker.waiting.current = [] from rfl, List.append_nil] at hmem'
    exact List.mem_append_left _ hmem'
  · intro h job hj hmem
    obtain rfl := List.mem_singleton.mp hmem
    exact hx.ahead hj hnew

/-- The worker goes on with its job. -/
theorem work (hx : Inv x) {a : WorkerAction} {handle : ℕ} {job job' : HardwareJob} {w' : Worker}
    (hw : x.worker.handle? = some handle) (hjob : x.jobs[handle]? = some job)
    (hwork : x.worker.work a job = some (w', job')) :
    Inv { x with
      worker := w'
      jobs := x.jobs.set handle job'
      started := x.started ++ a.begins handle
      settled := x.settled ++ a.settles handle } := by
  have hcurrent : x.worker.current = [handle] := by rw [Worker.current, hw]; rfl
  have hspec := Worker.work_spec hw hwork (hx.inHand hjob (hcurrent ▸ List.mem_singleton_self handle))
  have hjobs : ∀ {h : ℕ} {j : HardwareJob}, (x.jobs.set handle job')[h]? = some j →
      h = handle ∧ j = job' ∨ h ≠ handle ∧ x.jobs[h]? = some j := fun hj => getElem?_set_eq_some hj
  have hset : x.settled ++ a.settles handle ++ w'.current = x.settled ++ x.worker.current := by
    rw [hspec.current, List.append_assoc]
  have hlen : (x.jobs.set handle job').length = x.jobs.length := List.length_set
  -- the other jobs are where they were
  have hother : ∀ {h : ℕ}, h ≠ handle → (h ∈ x.settled ++ a.settles handle → h ∈ x.settled) ∧ h ∉ w'.current := by
    intro h hne
    have hsub : ∀ {h : ℕ}, h ∈ a.settles handle ++ w'.current → h = handle := fun hmem => by
      rw [← hspec.current, hcurrent] at hmem
      exact List.mem_singleton.mp hmem
    refine ⟨fun hmem => (List.mem_append.mp hmem).resolve_right fun hmem => hne ?_, fun hmem => hne ?_⟩
    · exact hsub (List.mem_append_left _ hmem)
    · exact hsub (List.mem_append_right _ hmem)
  have hnew : handle ∉ x.settled := by
    have := hx.nodup
    rw [hx.places, hcurrent, List.append_assoc] at this
    exact fun hmem => (List.nodup_append.mp this).2.2 handle hmem handle List.mem_cons_self rfl
  constructor
  case places =>
    show x.enqueued = x.settled ++ a.settles handle ++ w'.current ++ x.queue
    rw [hset, hx.places]
  case order =>
    show (x.started ++ a.begins handle).Sublist (x.settled ++ a.settles handle ++ w'.begun)
    rw [List.append_assoc]
    have := (hx.order.append (List.Sublist.refl (a.begins handle)))
    rw [List.append_assoc] at this
    exact this.trans ((List.Sublist.refl x.settled).append hspec.begun)
  case nodup => exact hx.nodup
  case known => exact fun h hmem => hlen.symm ▸ hx.known h hmem
  case returned => exact hx.returned
  case registered => exact fun hc => hlen.symm ▸ hx.registered hc
  case distinct => exact hx.distinct
  case ahead =>
    intro h j hj hmem
    rw [hset] at hmem
    rcases hjobs hj with ⟨rfl, -⟩ | ⟨-, hj⟩
    · exact absurd (List.mem_append_right _ (by rw [hcurrent]; exact List.mem_singleton_self _)) hmem
    · exact hx.ahead hj hmem
  case inHand =>
    intro h j hj hmem
    rcases hjobs hj with ⟨-, rfl⟩ | ⟨hne, hj⟩
    · exact hspec.has
    · exact absurd hmem (hother hne).2
  case behind =>
    intro h j hj hmem
    rcases hjobs hj with ⟨rfl, rfl⟩ | ⟨hne, hj⟩
    · have hmem' := (List.mem_append.mp hmem).resolve_left hnew
      exact hspec.settled fun e => by rw [e] at hmem'; cases hmem'
    · exact hx.behind hj ((hother hne).1 hmem)

/-- The worker leaves its loop. -/
theorem leave (hx : Inv x) (hw : x.worker = .waiting) : Inv { x with worker := .left } := by
  have hplaces := hx.places
  have horder := hx.order
  have hahead := @hx.ahead
  rw [hw] at hplaces horder
  simp only [hw] at hahead
  exact { hx with places := hplaces, order := horder, ahead := hahead, inHand := fun _ hmem => nomatch hmem }

/-- Every step keeps the invariant. -/
theorem step (hx : Inv x) {a : Action} (h : x.step a = some y) : Inv y := by
  cases Moves.of_step h with
  | submit hcall => rcases hcall with rfl | rfl <;> exact hx.submit nofun nofun
  | register hcall hid => exact hx.register hcall
  | enqueue hcall => exact hx.enqueue hcall
  | requestCancel handle => exact hx.requestCancel handle
  | tryCancel id handle => exact hx.requestCancel handle
  | unknown id => exact hx
  | pop hw hq => exact hx.pop hw hq
  | work hw hjob hwork => exact hx.work hw hjob hwork
  | leave hw hq => exact hx.leave hw
  | shutdown => exact { hx with }
  | join => exact { hx with }

/-- It holds after every run. -/
theorem of_steps {as : List Action} (h : steps HardwareExecutor.step .fresh as = some x) : Inv x :=
  steps_invariant (fun _ _ _ ha hs => Inv.step hs ha) h fresh

end Inv

end OwlTap.Jobs
