import OwlTap.BoundaryScan.FilteredScan
import OwlTap.Jobs.ExecutorInvariant
import OwlTap.Mcp.CaptureTools

/-!
# What is left of a capture that is stopped

The worker drops the result of a job that is to be cancelled, so that of the samples of a capture
that is stopped only those are left that its last report of progress has. Most reports have none:
the samples are reported with the first one and with every twentieth after it, and the next report,
which comes a millisecond later, replaces them.
-/

namespace OwlTap.Mcp

open OwlTap Bsdl Ftdi Jtag BoundaryScan Capture Jobs
open OwlTap.Hardware (JobState)

variable {σ : Type}

/-! ### The task -/

/-- How many samples have been reported when there are `count`. -/
def Reported (count last : ℕ) : Prop :=
  (last = 0 → count = 0) ∧ (0 < last → last % 20 = 1 ∧ last ≤ count ∧ count < last + 20)

namespace CaptureTask

/-- The last tick has taken a sample with which the samples are reported. -/
def Published (t : CaptureTask σ) : Prop :=
  t.fresh = true ∧ t.taken.length ≤ t.session.bufferDepth ∧ t.taken.length % 20 = 1

/-- The progress has the samples if they have been reported last. -/
def Shows (t : CaptureTask σ) (progress : Json) : Prop :=
  (t.Published → samplesOf (some progress) = t.session.getSamples.map frameToJson) ∧
    (¬t.Published → samplesOf (some progress) = [])

/-- What holds of the task. -/
structure Keeps (t : CaptureTask σ) : Prop where
  /-- The session has the samples taken. -/
  holds : t.session.Holds t.taken
  /-- A session with an error is stopped. -/
  error : t.session.lastError ≠ "" → t.session.state = .stopped
  /-- One that is stopped by the client has none. -/
  noError : t.stopped = true → t.point = .ended ∧ t.session.lastError = ""
  /-- Between two ticks the last report is up to date. -/
  reported : t.point ≠ .reporting → Reported t.session.count t.lastReportedCount
  /-- After a tick it is the one from before the tick. -/
  due : t.point = .reporting → ∃ k, Reported (min k t.session.bufferDepth) t.lastReportedCount ∧
    t.taken.length = if t.fresh then k + 1 else k

theorem keeps_begin (p : CaptureParams) (now : ℕ) (scanner : Scanner σ) : (begin p now scanner).Keeps where
  holds := by
    refine CaptureSession.holds_start ?_ now
    show 0 < if _ < 1 then 1 else _
    split <;> omega
  error := fun h => absurd rfl h
  noError := nofun
  reported := fun _ => ⟨fun _ => rfl, fun h => absurd h (lt_irrefl 0)⟩
  due := nofun

variable {t t' : CaptureTask σ}

theorem Keeps.look (h : t.Keeps) {cancelRequested : Bool} (hl : t.look cancelRequested = some t') :
    t'.Keeps ∧ t.point = .looking ∧ t'.point ≠ .reporting ∧ (t'.stopped = true → cancelRequested = true) ∧
      (∀ progress, t.Shows progress → t'.Shows progress) := by
  unfold CaptureTask.look at hl
  split at hl
  · cases hl
  case isFalse hpoint =>
  have hpoint : t.point = .looking := not_not.mp hpoint
  have hgoing : t.stopped ≠ true := fun e => by
    rw [(h.noError e).1] at hpoint
    cases hpoint
  have hreported := h.reported (by rw [hpoint]; exact nofun)
  split at hl
  · obtain rfl := Option.some.inj hl
    exact ⟨⟨h.holds, h.error, fun e => absurd e hgoing, fun _ => hreported, nofun⟩, hpoint, nofun,
      fun e => absurd e hgoing, fun _ hs => hs⟩
  case isFalse hrun =>
  split at hl
  case isTrue hc =>
    obtain rfl := Option.some.inj hl
    have hnone : t.session.lastError = "" := by
      by_contra e
      exact hrun (.inr (h.error e))
    exact ⟨⟨h.holds.congr rfl rfl rfl rfl, fun _ => rfl, fun _ => ⟨rfl, hnone⟩, fun _ => hreported, nofun⟩, hpoint, nofun,
      fun _ => hc, fun _ hs => hs⟩
  case isFalse =>
    obtain rfl := Option.some.inj hl
    exact ⟨⟨h.holds, h.error, fun e => absurd e hgoing, fun _ => hreported, nofun⟩, hpoint, nofun,
      fun e => absurd e hgoing, fun _ hs => hs⟩

theorem Keeps.tick {T : Target σ} {preSamples : ℕ → ℕ} {now stamp : ℕ} (h : t.Keeps)
    (ht : t.tick T preSamples now stamp = some t') :
    t'.Keeps ∧ t.point = .ticking ∧ t'.point = .reporting ∧ t'.stopped = t.stopped := by
  unfold CaptureTask.tick at ht
  split at ht
  · cases ht
  case isFalse hpoint =>
  have hpoint : t.point = .ticking := not_not.mp hpoint
  obtain ⟨⟨took, session, scanner⟩, htick, hval⟩ := Option.map_eq_some_iff.mp ht
  obtain rfl := hval
  have hgoing : t.stopped ≠ true := fun e => by
    rw [(h.noError e).1] at hpoint
    cases hpoint
  have hreported := h.reported (by rw [hpoint]; exact nofun)
  have hdepth : session.bufferDepth = t.session.bufferDepth := by
    obtain ⟨-, rfl⟩ | ⟨-, next, error, rfl⟩ | ⟨-, -, next, happ⟩ := CaptureSession.tick_cases htick
    · rfl
    · rfl
    · exact happ.depth
  refine ⟨⟨h.holds.tick htick, CaptureSession.stopped_of_tick h.error htick, fun e => absurd e hgoing,
    fun hp => absurd rfl hp, fun _ => ⟨t.taken.length, ?_, ?_⟩⟩, hpoint, rfl, rfl⟩
  · rw [hdepth, ← h.holds.count]
    exact hreported
  · cases took
    · rfl
    · exact List.length_append

theorem Keeps.report (h : t.Keeps) {progress : Json} (hr : t.report = some (progress, t')) :
    t'.Keeps ∧ t.point = .reporting ∧ t'.point = .looking ∧ t'.stopped = t.stopped ∧ t'.Shows progress := by
  unfold CaptureTask.report at hr
  dsimp only at hr
  split at hr
  · cases hr
  case isFalse hpoint =>
  have hpoint : t.point = .reporting := not_not.mp hpoint
  have hgoing : t.stopped ≠ true := fun e => by
    rw [(h.noError e).1] at hpoint
    cases hpoint
  obtain ⟨k, ⟨hzero, hlast⟩, hlen⟩ := h.due hpoint
  have hcount := h.holds.count
  have hpos := h.holds.pos
  split at hr
  case isTrue hreports =>
    obtain ⟨rfl, rfl⟩ := Prod.mk.inj (Option.some.inj hr)
    have hfresh : t.Published := by
      unfold CaptureTask.reports kProgressBatchSize at hreports
      cases hf : t.fresh with
      | false =>
        rw [hf, if_neg nofun] at hlen
        omega
      | true =>
        rw [hf, if_pos rfl] at hlen
        refine ⟨hf, ?_, ?_⟩
        · omega
        · omega
    refine ⟨⟨h.holds, h.error, fun e => absurd e hgoing, fun _ => ⟨fun e => e, fun _ => ⟨?_, le_rfl, ?_⟩⟩, nofun⟩, hpoint, rfl,
      rfl, fun _ => rfl, fun hn => absurd hfresh hn⟩
    · have := hfresh.2
      show t.session.count % 20 = 1
      omega
    · show t.session.count < t.session.count + 20
      omega
  case isFalse hreports =>
    obtain ⟨rfl, rfl⟩ := Prod.mk.inj (Option.some.inj hr)
    unfold CaptureTask.reports kProgressBatchSize at hreports
    have hstale : ¬t.Published := by
      rintro ⟨hf, hfew, hmod⟩
      rw [hf, if_pos rfl] at hlen
      omega
    have hnext : Reported t.session.count t.lastReportedCount := by
      unfold Reported
      split at hlen
      · omega
      · omega
    exact ⟨⟨h.holds, h.error, fun e => absurd e hgoing, fun _ => hnext, nofun⟩, hpoint, rfl, rfl,
      fun hp => absurd hp hstale, fun _ => rfl⟩

end CaptureTask

/-! ### The job -/

/-- The worker has not begun the task, or could not. -/
def Outside : Worker → Prop
  | .executing _ | .returned _ _ | .cancelling _ | .storing _ _ | .completing _ => False
  | _ => True

/-- The worker has begun the task. -/
def PastStart : Worker → Prop
  | .taken _ | .skipping _ | .starting _ => False
  | _ => True

/-- Where the worker is with a job that is to be cancelled. -/
inductive Cancels : Worker → JobState → Prop where
  | executing (h : ℕ) : Cancels (.executing h) .running
  | returned (h : ℕ) (result : Json) : Cancels (.returned h result) .running
  | cancelling (h : ℕ) : Cancels (.cancelling h) .running
  | waiting : Cancels .waiting .cancelled

/-- What holds of the job while its task is as it is. -/
structure Serves (s : CaptureJob σ) (t : CaptureTask σ) : Prop where
  keeps : t.Keeps
  begun : PastStart s.worker
  /-- The worker is in the task as long as the loop goes on. -/
  executing : t.point ≠ .ended → s.job.state = .running ∧ s.job.result = .null ∧ ∃ h, s.worker = .executing h
  /-- The progress is that of the last report. -/
  shows : t.point ≠ .reporting → t.Shows s.job.progress
  /-- The result of a job that is stopped is dropped. -/
  cancels : t.stopped = true → s.job.cancelRequested = true ∧ s.job.result = .null ∧ Cancels s.worker s.job.state

/-- What holds in every state of a run. -/
structure CaptureInv (s : CaptureJob σ) : Prop where
  idle : s.task = none → Outside s.worker ∧ s.job.result = .null ∧ s.job.progress = .null
  serves : ∀ t, s.task = some t → Serves s t

theorem captureInv_taken (handle : ℕ) (id : String) : CaptureInv (CaptureJob.taken handle id : CaptureJob σ) where
  idle _ := ⟨trivial, rfl, rfl⟩
  serves _ h := nomatch h

variable {s s' : CaptureJob σ} {t t' : CaptureTask σ} {w w' : Worker} {job job' : HardwareJob}

/-- The worker goes on with a task that has ended. -/
theorem Serves.worker (h : Serves s t) (hw : ∀ n, s.worker ≠ .executing n) (hb : PastStart w)
    (hp : job.progress = s.job.progress) (hc : t.stopped = true → Cancels s.worker s.job.state →
      s.job.cancelRequested = true → s.job.result = .null →
        job.cancelRequested = true ∧ job.result = .null ∧ Cancels w job.state) :
    Serves { s with worker := w, job } t where
  keeps := h.keeps
  begun := hb
  executing hpoint := by
    obtain ⟨-, -, n, hn⟩ := h.executing hpoint
    exact absurd hn (hw n)
  shows hpoint := by
    show t.Shows job.progress
    rw [hp]
    exact h.shows hpoint
  cancels hstop := by
    obtain ⟨hreq, hnull, hcancels⟩ := h.cancels hstop
    exact hc hstop hcancels hreq hnull

/-- The worker looks at the flag. -/
theorem work_check (h : w.work .check job = some (w', job')) : job' = job ∧
    ((∃ n, w = .taken n ∧ w' = if job.cancelRequested then .skipping n else .starting n) ∨
      ∃ n result, w = .returned n result ∧ w' = if job.cancelRequested then .cancelling n else .storing n result) := by
  cases w with
  | taken n =>
    obtain ⟨rfl, rfl⟩ := Prod.mk.inj (Option.some.inj h)
    exact ⟨rfl, .inl ⟨n, rfl, rfl⟩⟩
  | returned n result =>
    obtain ⟨rfl, rfl⟩ := Prod.mk.inj (Option.some.inj h)
    exact ⟨rfl, .inr ⟨n, result, rfl, rfl⟩⟩
  | _ => cases h

/-- It keeps the result or the error. -/
theorem work_store (h : w.work .store job = some (w', job')) :
    (∃ n result, w = .storing n result ∧ w' = .completing n ∧ job' = job.setResult result) ∨
      ∃ n what, w = .failing n what ∧ w' = .reporting n ∧ job' = job.setError what := by
  cases w with
  | storing n result =>
    obtain ⟨rfl, rfl⟩ := Prod.mk.inj (Option.some.inj h)
    exact .inl ⟨n, result, rfl, rfl, rfl⟩
  | failing n what =>
    obtain ⟨rfl, rfl⟩ := Prod.mk.inj (Option.some.inj h)
    exact .inr ⟨n, what, rfl, rfl, rfl⟩
  | _ => cases h

/-- It sets the last state. -/
theorem work_settle (h : w.work .settle job = some (w', job')) : w' = .waiting ∧
    ∃ n state, job' = job.setState state ∧ (w = .skipping n ∨ w = .cancelling n ∧ state = .cancelled ∨
      w = .completing n ∨ w = .reporting n) := by
  cases w with
  | skipping n =>
    obtain ⟨rfl, rfl⟩ := Prod.mk.inj (Option.some.inj h)
    exact ⟨rfl, n, _, rfl, .inl rfl⟩
  | cancelling n =>
    obtain ⟨rfl, rfl⟩ := Prod.mk.inj (Option.some.inj h)
    exact ⟨rfl, n, _, rfl, .inr (.inl ⟨rfl, rfl⟩)⟩
  | completing n =>
    obtain ⟨rfl, rfl⟩ := Prod.mk.inj (Option.some.inj h)
    exact ⟨rfl, n, _, rfl, .inr (.inr (.inl rfl))⟩
  | reporting n =>
    obtain ⟨rfl, rfl⟩ := Prod.mk.inj (Option.some.inj h)
    exact ⟨rfl, n, _, rfl, .inr (.inr (.inr rfl))⟩
  | _ => cases h

theorem work_begin (h : w.work .begin job = some (w', job')) :
    ∃ n, w = .starting n ∧ w' = .executing n ∧ job' = job.setState .running := by
  cases w with
  | starting n =>
    obtain ⟨rfl, rfl⟩ := Prod.mk.inj (Option.some.inj h)
    exact ⟨n, rfl, rfl, rfl⟩
  | _ => cases h

theorem work_progress {p : Json} (h : w.work (.progress p) job = some (w', job')) :
    w' = w ∧ job' = job.setProgress p := by
  cases w with
  | executing n =>
    obtain ⟨rfl, rfl⟩ := Prod.mk.inj (Option.some.inj h)
    exact ⟨rfl, rfl⟩
  | _ => cases h

/-- The task ends. -/
theorem work_finish {ending : Ending} (h : w.work (.finish ending) job = some (w', job')) :
    job' = { job with ended := some ending } ∧ ∃ n, w = .executing n ∧
      ((∃ result, ending = .returned result ∧ w' = .returned n result) ∨ ∃ what, ending.error ≠ none ∧ w' = .failing n what) := by
  cases w with
  | executing n =>
    cases ending with
    | returned result =>
      obtain ⟨rfl, rfl⟩ := Prod.mk.inj (Option.some.inj h)
      exact ⟨rfl, n, rfl, .inl ⟨result, rfl, rfl⟩⟩
    | threw what =>
      obtain ⟨rfl, rfl⟩ := Prod.mk.inj (Option.some.inj h)
      exact ⟨rfl, n, rfl, .inr ⟨what, nofun, rfl⟩⟩
    | threwUnknown =>
      obtain ⟨rfl, rfl⟩ := Prod.mk.inj (Option.some.inj h)
      exact ⟨rfl, n, rfl, .inr ⟨_, nofun, rfl⟩⟩
  | _ => cases h

namespace CaptureInv

theorem check (hs : CaptureInv s) (h : s.work .check = some s') : CaptureInv s' := by
  obtain ⟨⟨w, job⟩, hw, rfl⟩ := Option.map_eq_some_iff.mp h
  obtain ⟨rfl, ⟨n, e, rfl⟩ | ⟨n, result, e, rfl⟩⟩ := work_check hw
  · refine ⟨fun ht => ⟨?_, (hs.idle ht).2⟩, fun t ht => ?_⟩
    · dsimp only
      split <;> trivial
    · have := (hs.serves t ht).begun
      rw [e] at this
      exact this.elim
  · refine ⟨fun ht => ?_, fun t ht => (hs.serves t ht).worker (by rw [e]; exact nofun) ?_ rfl ?_⟩
    · have := (hs.idle ht).1
      rw [e] at this
      exact this.elim
    · split <;> trivial
    · intro _ hcancels hc hnull
      rw [e] at hcancels
      rw [if_pos hc]
      generalize s.job.state = state at hcancels
      cases hcancels
      exact ⟨hc, hnull, .cancelling n⟩

theorem store (hs : CaptureInv s) (h : s.work .store = some s') : CaptureInv s' := by
  obtain ⟨⟨w, job⟩, hw, rfl⟩ := Option.map_eq_some_iff.mp h
  obtain ⟨n, result, e, rfl, rfl⟩ | ⟨n, what, e, rfl, rfl⟩ := work_store hw
  · refine ⟨fun ht => ?_, fun t ht => (hs.serves t ht).worker (by rw [e]; exact nofun) trivial rfl ?_⟩
    · have := (hs.idle ht).1
      rw [e] at this
      exact this.elim
    · intro _ hcancels
      rw [e] at hcancels
      cases hcancels
  · refine ⟨fun ht => ⟨trivial, (hs.idle ht).2⟩, fun t ht => (hs.serves t ht).worker (by rw [e]; exact nofun) trivial rfl ?_⟩
    intro _ hcancels
    rw [e] at hcancels
    cases hcancels

theorem settle (hs : CaptureInv s) (h : s.work .settle = some s') : CaptureInv s' := by
  obtain ⟨⟨w, job⟩, hw, rfl⟩ := Option.map_eq_some_iff.mp h
  obtain ⟨rfl, n, state, rfl, hfrom⟩ := work_settle hw
  refine ⟨fun ht => ⟨trivial, (hs.idle ht).2⟩, fun t ht => (hs.serves t ht).worker ?_ trivial rfl ?_⟩
  · rcases hfrom with e | ⟨e, -⟩ | e | e <;> rw [e] <;> exact nofun
  · intro _ hcancels hc hnull
    rcases hfrom with e | ⟨-, rfl⟩ | e | e
    · rw [e] at hcancels
      cases hcancels
    · exact ⟨hc, hnull, .waiting⟩
    · rw [e] at hcancels
      cases hcancels
    · rw [e] at hcancels
      cases hcancels

theorem begin (hs : CaptureInv s) {p : CaptureParams} {now : ℕ} {found : Except String (Scanner σ)} {T : Target σ}
    {preSamples : ℕ → ℕ} (h : s.step T preSamples p (.begin now found) = some s') : CaptureInv s' := by
  obtain ⟨s₁, h₁, h⟩ := Option.bind_eq_some_iff.mp h
  obtain ⟨⟨w, job⟩, hw, rfl⟩ := Option.map_eq_some_iff.mp h₁
  obtain ⟨n, e, rfl, rfl⟩ := work_begin hw
  have hnone : s.task = none := by
    cases ht : s.task with
    | none => rfl
    | some t =>
      have := (hs.serves t ht).begun
      rw [e] at this
      exact this.elim
  obtain ⟨-, hresult, hprogress⟩ := hs.idle hnone
  cases found with
  | error what =>
    obtain rfl := Option.some.inj h
    exact ⟨fun _ => ⟨trivial, hresult, hprogress⟩, fun t ht => nomatch hnone.symm.trans ht⟩
  | ok scanner =>
    obtain rfl := Option.some.inj h
    refine ⟨nofun, fun t ht => ?_⟩
    obtain rfl := Option.some.inj ht
    refine ⟨CaptureTask.keeps_begin p now scanner, trivial, fun _ => ⟨rfl, hresult, n, rfl⟩, fun _ => ⟨nofun, fun _ => ?_⟩,
      nofun⟩
    show samplesOf (some s.job.progress) = []
    rw [hprogress]
    rfl

theorem look (hs : CaptureInv s) (ht : s.task = some t) (hl : t.look s.job.cancelRequested = some t') :
    CaptureInv { s with task := some t' } := by
  refine ⟨nofun, fun u hu => ?_⟩
  obtain rfl := Option.some.inj hu
  have h := hs.serves t ht
  obtain ⟨hkeeps, hpoint, hpoint', hstops, hshows⟩ := h.keeps.look hl
  have hend : t.point ≠ .ended := by rw [hpoint]; exact nofun
  obtain ⟨hstate, hnull, n, hw⟩ := h.executing hend
  refine ⟨hkeeps, h.begun, fun _ => ⟨hstate, hnull, n, hw⟩, fun _ => hshows _ (h.shows (by rw [hpoint]; exact nofun)),
    fun hstop => ⟨hstops hstop, hnull, ?_⟩⟩
  show Cancels s.worker s.job.state
  rw [hstate, hw]
  exact .executing n

theorem tick (hs : CaptureInv s) {T : Target σ} {preSamples : ℕ → ℕ} {now stamp : ℕ} (ht : s.task = some t)
    (h : t.tick T preSamples now stamp = some t') : CaptureInv { s with task := some t' } := by
  refine ⟨nofun, fun u hu => ?_⟩
  obtain rfl := Option.some.inj hu
  have hserves := hs.serves t ht
  obtain ⟨hkeeps, hpoint, hpoint', hstopped⟩ := hserves.keeps.tick h
  have hexec := hserves.executing (by rw [hpoint]; exact nofun)
  refine ⟨hkeeps, hserves.begun, fun _ => hexec, fun hp => absurd hpoint' hp, fun hstop => ?_⟩
  have := (hkeeps.noError hstop).1
  rw [hpoint'] at this
  cases this

theorem report (hs : CaptureInv s) {progress : Json} (ht : s.task = some t) (hr : t.report = some (progress, t'))
    (h : { s with task := some t' }.work (.progress progress) = some s') : CaptureInv s' := by
  obtain ⟨⟨w, job⟩, hw, rfl⟩ := Option.map_eq_some_iff.mp h
  obtain ⟨rfl, rfl⟩ := work_progress hw
  refine ⟨nofun, fun u hu => ?_⟩
  obtain rfl := Option.some.inj hu
  have hserves := hs.serves t ht
  obtain ⟨hkeeps, hpoint, hpoint', -, hshows⟩ := hserves.keeps.report hr
  have hexec := hserves.executing (by rw [hpoint]; exact nofun)
  refine ⟨hkeeps, hserves.begun, fun _ => hexec, fun _ => hshows, fun hstop => ?_⟩
  have := (hkeeps.noError hstop).1
  rw [hpoint'] at this
  cases this

theorem finish (hs : CaptureInv s) {p : CaptureParams} {ending : Ending} (ht : s.task = some t)
    (he : t.ending p = some ending) (h : s.work (.finish ending) = some s') : CaptureInv s' := by
  obtain ⟨⟨w, job⟩, hw, rfl⟩ := Option.map_eq_some_iff.mp h
  obtain ⟨rfl, n, e, hw'⟩ := work_finish hw
  refine ⟨fun hnone => (nomatch ht.symm.trans hnone), fun u hu => ?_⟩
  obtain rfl := Option.some.inj (ht.symm.trans hu)
  have hserves := hs.serves t ht
  unfold CaptureTask.ending at he
  split at he
  · cases he
  case isFalse hpoint =>
  have hpoint : t.point = .ended := not_not.mp hpoint
  refine ⟨hserves.keeps, ?_, fun hp => absurd hpoint hp, hserves.shows, fun hstop => ?_⟩
  · obtain ⟨result, -, rfl⟩ | ⟨what, -, rfl⟩ := hw' <;> trivial
  · obtain ⟨hc, hnull, hcancels⟩ := hserves.cancels hstop
    rw [if_neg (not_not.mpr (hserves.keeps.noError hstop).2)] at he
    obtain rfl := Option.some.inj he
    obtain ⟨result, -, rfl⟩ | ⟨what, hne, -⟩ := hw'
    · refine ⟨hc, hnull, ?_⟩
      rw [e] at hcancels
      show Cancels _ s.job.state
      generalize s.job.state = state at hcancels
      cases hcancels
      exact .returned n result
    · exact absurd rfl hne

theorem step (hs : CaptureInv s) {T : Target σ} {preSamples : ℕ → ℕ} {p : CaptureParams} {a : CaptureAction σ}
    (h : s.step T preSamples p a = some s') : CaptureInv s' := by
  cases a with
  | requestCancel =>
    obtain rfl := Option.some.inj h
    refine ⟨hs.idle, fun t ht => ?_⟩
    have hserves := hs.serves t ht
    exact ⟨hserves.keeps, hserves.begun, hserves.executing, hserves.shows, fun hstop => ⟨rfl, (hserves.cancels hstop).2⟩⟩
  | begin now found => exact hs.begin h
  | look =>
    obtain ⟨t', hbind, rfl⟩ := Option.map_eq_some_iff.mp h
    obtain ⟨t, ht, hl⟩ := Option.bind_eq_some_iff.mp hbind
    exact hs.look ht hl
  | tick now stamp =>
    obtain ⟨t', hbind, rfl⟩ := Option.map_eq_some_iff.mp h
    obtain ⟨t, ht, hl⟩ := Option.bind_eq_some_iff.mp hbind
    exact hs.tick ht hl
  | report =>
    obtain ⟨⟨progress, t'⟩, hbind, h⟩ := Option.bind_eq_some_iff.mp h
    obtain ⟨t, ht, hr⟩ := Option.bind_eq_some_iff.mp hbind
    exact hs.report ht hr h
  | finish =>
    obtain ⟨ending, hbind, h⟩ := Option.bind_eq_some_iff.mp h
    obtain ⟨t, ht, he⟩ := Option.bind_eq_some_iff.mp hbind
    exact hs.finish ht he h
  | check => exact hs.check h
  | store => exact hs.store h
  | settle => exact hs.settle h

theorem of_steps {T : Target σ} {preSamples : ℕ → ℕ} {p : CaptureParams} {handle : ℕ} {id : String}
    {as : List (CaptureAction σ)} (h : steps (CaptureJob.step T preSamples p) (CaptureJob.taken handle id) as = some s) :
    CaptureInv s :=
  steps_invariant (fun _ _ _ ha hs => hs.step ha) h (captureInv_taken handle id)

end CaptureInv

/-! ### In the executor -/

/-- The executor's worker and its job are those of the capture. -/
structure Within (x : HardwareExecutor) (h : ℕ) (s : CaptureJob σ) : Prop where
  worker : x.worker = s.worker
  job : x.jobs[h]? = some s.job
  /-- It has no other job in hand. -/
  handle : s.worker.handle? = none ∨ s.worker.handle? = some h

/-- The worker has its job in hand until it is through with it. -/
theorem handle_of_work {a : WorkerAction} (h : w.work a job = some (w', job')) :
    w.handle? ≠ none ∧ (w'.handle? = none ∨ w'.handle? = w.handle?) := by
  fun_cases Worker.work w a job
  case case14 => simp only [Worker.work, reduceCtorEq] at h
  all_goals obtain ⟨rfl, -⟩ := Prod.mk.inj (Option.some.inj h)
  case case1 | case8 => split <;> exact ⟨Option.some_ne_none _, .inr rfl⟩
  case case2 | case9 | case11 | case13 => exact ⟨Option.some_ne_none _, .inl rfl⟩
  all_goals exact ⟨Option.some_ne_none _, .inr rfl⟩

theorem Within.work {x : HardwareExecutor} {h : ℕ} {a : WorkerAction} (hx : Within x h s) (hs : s.work a = some s') :
    ∃ y, x.step (.work a) = some y ∧ Within y h s' := by
  obtain ⟨⟨w, job⟩, hw, rfl⟩ := Option.map_eq_some_iff.mp hs
  obtain ⟨hsome, hhandle⟩ := handle_of_work hw
  have hh : s.worker.handle? = some h := hx.handle.resolve_left hsome
  have hlt := (List.getElem?_eq_some_iff.mp hx.job).1
  have hstep : x.step (.work a) = some { x with
      worker := w
      jobs := x.jobs.set h job
      started := x.started ++ a.begins h
      settled := x.settled ++ a.settles h } := by
    show x.worker.handle?.bind _ = _
    rw [hx.worker, hh, Option.bind_some, hx.job, Option.bind_some, hw]
    rfl
  exact ⟨_, hstep, rfl, List.getElem?_set_self hlt, hhandle.imp_right fun e => e.trans hh⟩

/-- What the capture does, the executor can do. -/
theorem Within.step {x : HardwareExecutor} {h : ℕ} {T : Target σ} {preSamples : ℕ → ℕ} {p : CaptureParams}
    {a : CaptureAction σ} (hx : Within x h s) (hs : s.step T preSamples p a = some s') :
    ∃ as y, steps HardwareExecutor.step x as = some y ∧ Within y h s' := by
  have once : ∀ {s s' : CaptureJob σ} {x : HardwareExecutor} {a : WorkerAction}, Within x h s → s.work a = some s' →
      ∃ as y, steps HardwareExecutor.step x as = some y ∧ Within y h s' := by
    intro s s' x a hx hs
    obtain ⟨y, hy, hw⟩ := hx.work hs
    refine ⟨[.work a], y, ?_, hw⟩
    rw [steps_cons, hy]
    rfl
  cases a with
  | requestCancel =>
    obtain rfl := Option.some.inj hs
    refine ⟨[.requestCancel h], _, rfl, hx.worker, ?_, hx.handle⟩
    show (x.jobs.modify h HardwareJob.requestCancel)[h]? = some s.job.requestCancel
    rw [List.getElem?_modify_eq, hx.job]
    rfl
  | begin now found =>
    obtain ⟨s₁, h₁, hs⟩ := Option.bind_eq_some_iff.mp hs
    obtain ⟨y, hy, hw⟩ := hx.work h₁
    cases found with
    | error what =>
      obtain ⟨z, hz, hw⟩ := hw.work hs
      refine ⟨[.work .begin, .work (.finish (.threw what))], z, ?_, hw⟩
      rw [steps_cons, hy, Option.bind_some, steps_cons, hz]
      rfl
    | ok scanner =>
      obtain rfl := Option.some.inj hs
      refine ⟨[.work .begin], y, ?_, hw.worker, hw.job, hw.handle⟩
      rw [steps_cons, hy]
      rfl
  | look =>
    obtain ⟨t, -, rfl⟩ := Option.map_eq_some_iff.mp hs
    exact ⟨[], x, rfl, hx.worker, hx.job, hx.handle⟩
  | tick now stamp =>
    obtain ⟨t, -, rfl⟩ := Option.map_eq_some_iff.mp hs
    exact ⟨[], x, rfl, hx.worker, hx.job, hx.handle⟩
  | report =>
    obtain ⟨⟨progress, t⟩, -, hs⟩ := Option.bind_eq_some_iff.mp hs
    have hx' : Within x h { s with task := some t } := ⟨hx.worker, hx.job, hx.handle⟩
    exact once hx' hs
  | finish =>
    obtain ⟨ending, -, hs⟩ := Option.bind_eq_some_iff.mp hs
    exact once hx hs
  | check => exact once hx hs
  | store => exact once hx hs
  | settle => exact once hx hs

/-- So a capture that the worker has taken is a part of a run of the executor. -/
theorem Within.steps {x : HardwareExecutor} {h : ℕ} {id : String} {T : Target σ} {preSamples : ℕ → ℕ} {p : CaptureParams}
    {as : List (CaptureAction σ)} (hw : x.worker = .taken h)
    (hjob : x.jobs[h]? = some { id, label := "capture_start" })
    (hs : OwlTap.steps (CaptureJob.step T preSamples p) (CaptureJob.taken h id) as = some s) :
    ∃ bs y, OwlTap.steps HardwareExecutor.step x bs = some y ∧ Within y h s := by
  refine steps_induction (P := fun _ s => ∃ bs y, OwlTap.steps HardwareExecutor.step x bs = some y ∧ Within y h s)
    ⟨[], x, rfl, hw, hjob, .inr rfl⟩ ?_ hs
  rintro as s a u - ⟨bs, y, hy, hx⟩ ha
  obtain ⟨cs, z, hz, hx'⟩ := hx.step ha
  refine ⟨bs ++ cs, z, ?_, hx'⟩
  rw [steps_append, hy]
  exact hz

/-! ### What the client gets -/

theorem result_of_snapshot (snap : Snapshot) :
    (snapshotToJson snap).get? "result" = if snap.result = .null then none else some snap.result := by
  unfold snapshotToJson
  by_cases hp : snap.progress = .null <;> by_cases hr : snap.result = .null <;> by_cases he : snap.error = "" <;>
    simp [Json.get?, List.lookup_cons, hp, hr, he]

theorem progress_of_snapshot (snap : Snapshot) :
    (snapshotToJson snap).get? "progress" = if snap.progress = .null then none else some snap.progress := by
  unfold snapshotToJson
  by_cases hp : snap.progress = .null <;> by_cases hr : snap.result = .null <;> by_cases he : snap.error = "" <;>
    simp [Json.get?, List.lookup_cons, hp, hr, he]

/-- The samples that a client gets of a job without a result. -/
theorem samplesIn_getSamples (s : CaptureJob σ) (h : s.job.result = .null) :
    samplesIn s.getSamples = samplesOf (some s.job.progress) := by
  unfold samplesIn CaptureJob.getSamples
  rw [result_of_snapshot, progress_of_snapshot]
  have hresult : s.job.snapshot.result = .null := h
  rw [if_pos hresult]
  show samplesOf none ++ samplesOf (if s.job.progress = .null then none else some s.job.progress) = _
  split
  case isTrue hnull =>
    rw [hnull]
    rfl
  case isFalse => rfl

/-- The last of the samples taken, as many as the buffer has places. -/
def CaptureTask.latest (t : CaptureTask σ) : List SampleFrame := t.taken.drop (t.taken.length - t.session.bufferDepth)

/-- A capture whose loop has seen that it is to be stopped ends as cancelled, and what `get_samples` then returns has the
samples that had been taken just when there were none, or the loop saw it right after a tick that took the first sample or
one of every twenty after it, and not more than the buffer holds. -/
theorem stopped_samples_kept_iff {T : Target σ} {preSamples : ℕ → ℕ} {p : CaptureParams} {handle : ℕ} {id : String}
    {as : List (CaptureAction σ)} (h : steps (CaptureJob.step T preSamples p) (CaptureJob.taken handle id) as = some s)
    (ht : s.task = some t) (hstop : t.stopped = true) (hend : Terminal s.job.state) :
    s.job.state = .cancelled ∧ ((t.latest.map frameToJson).Sublist (samplesIn s.getSamples) ↔
      t.taken = [] ∨ t.fresh = true ∧ t.taken.length ≤ t.session.bufferDepth ∧ t.taken.length % 20 = 1) := by
  have hserves := (CaptureInv.of_steps h).serves t ht
  obtain ⟨-, hnull, hcancels⟩ := hserves.cancels hstop
  have hcancelled : s.job.state = .cancelled := by
    generalize s.worker = w, s.job.state = state at *
    cases hcancels with
    | waiting => rfl
    | _ => exact hend.elim
  refine ⟨hcancelled, ?_⟩
  have hlooked : t.point ≠ .reporting := by
    rw [(hserves.keeps.noError hstop).1]
    exact nofun
  have hheld : t.session.getSamples = t.latest := hserves.keeps.holds.getSamples
  obtain ⟨hpub, hnot⟩ := hserves.shows hlooked
  rw [samplesIn_getSamples s hnull]
  constructor
  · intro hsub
    by_contra hno
    obtain ⟨hne, hstale⟩ := not_or.mp hno
    rw [hnot hstale, List.sublist_nil, List.map_eq_nil_iff] at hsub
    have hlen : t.latest.length = 0 := List.length_eq_zero_iff.mpr hsub
    unfold CaptureTask.latest at hlen
    rw [List.length_drop] at hlen
    have := List.length_pos_iff.mpr hne
    have := hserves.keeps.holds.pos
    omega
  · rintro (hnone | hpublished)
    · unfold CaptureTask.latest
      rw [hnone, List.drop_nil]
      exact List.nil_sublist _
    · rw [hpub hpublished, hheld]

/-! ### Two captures -/

/-- A pass through the loop of the task. -/
def pass (now : ℕ) : List (CaptureAction (List (Device BoundaryDevice))) := [.look, .tick now now, .report]

/-- A capture of a device with two pins, from its begin to its end, that is stopped after these passes. -/
def stoppedAfter (passes : List (CaptureAction (List (Device BoundaryDevice)))) :
    Option (CaptureJob (List (Device BoundaryDevice))) :=
  steps (CaptureJob.step (Target.chain BoundaryDevice.logic) id { devIdx := 0 })
    (CaptureJob.taken 0 "job")
    ([.check, .begin 0 (.ok Scanner.twoPinsScanner)] ++ passes ++ [.requestCancel, .look, .finish, .check, .settle])

/-- What is seen of such a capture. -/
def seenOf (x : Option (CaptureJob (List (Device BoundaryDevice)))) : Option (JobState × Bool × Bool × ℕ × ℕ × ℕ) :=
  x.bind fun s => s.task.map fun t =>
    (s.job.state, t.stopped, t.fresh, t.taken.length, t.session.bufferDepth, (samplesIn s.getSamples).length)

theorem of_seen {x : Option (CaptureJob (List (Device BoundaryDevice)))} {seen : JobState × Bool × Bool × ℕ × ℕ × ℕ}
    (h : seenOf x = some seen) : ∃ s t, x = some s ∧ s.task = some t ∧ s.job.state = seen.1 ∧ t.stopped = seen.2.1 ∧
      t.fresh = seen.2.2.1 ∧ t.taken.length = seen.2.2.2.1 ∧ t.session.bufferDepth = seen.2.2.2.2.1 ∧
      (samplesIn s.getSamples).length = seen.2.2.2.2.2 := by
  obtain ⟨s, hs, hseen⟩ := Option.bind_eq_some_iff.mp h
  obtain ⟨t, ht, rfl⟩ := Option.map_eq_some_iff.mp hseen
  exact ⟨s, t, hs, ht, rfl, rfl, rfl, rfl, rfl, rfl⟩

/-- The sample of a capture that is stopped after its first sample is kept. -/
theorem one_sample_kept : ∃ s t, stoppedAfter (pass 0) = some s ∧ s.task = some t ∧ t.stopped = true ∧
    t.taken.length = 1 ∧ (t.latest.map frameToJson).Sublist (samplesIn s.getSamples) := by
  have hseen : seenOf (stoppedAfter (pass 0)) = some (.cancelled, true, true, 1, 1000, 1) := by decide +kernel
  obtain ⟨s, t, hs, ht, hstate, hstop, hfresh, hlen, hdepth, -⟩ := of_seen hseen
  have hend : Terminal s.job.state := by
    rw [hstate]
    exact trivial
  refine ⟨s, t, hs, ht, hstop, hlen, ((stopped_samples_kept_iff hs ht hstop hend).2).mpr (.inr ⟨hfresh, ?_, ?_⟩)⟩
  · rw [hlen, hdepth]
    decide
  · rw [hlen]
    decide

/-- Both samples of a capture that is stopped after its second sample are lost. -/
theorem two_samples_lost : ∃ s t, stoppedAfter (pass 0 ++ pass 1000) = some s ∧ s.task = some t ∧ t.stopped = true ∧
    s.job.state = .cancelled ∧ t.taken.length = 2 ∧ samplesIn s.getSamples = [] ∧
    ¬(t.latest.map frameToJson).Sublist (samplesIn s.getSamples) := by
  have hseen : seenOf (stoppedAfter (pass 0 ++ pass 1000)) = some (.cancelled, true, true, 2, 1000, 0) := by decide +kernel
  obtain ⟨s, t, hs, ht, hstate, hstop, -, hlen, hdepth, hsamples⟩ := of_seen hseen
  have hnil : samplesIn s.getSamples = [] := List.length_eq_zero_iff.mp hsamples
  refine ⟨s, t, hs, ht, hstop, hstate, hlen, hnil, ?_⟩
  rw [hnil, List.sublist_nil, List.map_eq_nil_iff]
  intro hlatest
  have hlength : t.latest.length = 0 := List.length_eq_zero_iff.mpr hlatest
  unfold CaptureTask.latest at hlength
  rw [List.length_drop, hlen, hdepth] at hlength
  cases hlength

end OwlTap.Mcp
