import OwlTap.Script.ScriptEngine

/-!
# The figures of a script's result

What the result of a script says about its run: how many pins were compared, how many of them
mismatched, whether it got to its end, and if not, on which line it stopped. Whether it got to its
end and where it stopped is always right; the counts are lost whenever it stops, so they are right
if and only if it does not, or has compared nothing (`accounts_iff`). A test suite copies them.
-/

namespace OwlTap.Script

open OwlTap Bsdl BoundaryScan

/-! ### Test suites -/

/-- Result for a single script test case within a suite run. -/
structure TestCaseResult where
  /-- The file's name. -/
  name : Text
  path : Text
  success : Bool := false
  failedLine : ℕ := 0
  totalExpects : ℕ := 0
  failedExpects : ℕ := 0
  output : String := ""
  deriving DecidableEq

/-- Aggregated result for a complete suite run. -/
structure TestSuiteResult where
  cases : List TestCaseResult := []
  passCount : ℕ := 0
  failCount : ℕ := 0
  deriving DecidableEq

namespace TestSuiteRunner

variable {η : Type} (host : ScriptHost η) (baseName : Text → Text) (readFile : Text → Option Text)

/-- The loop over the scripts. -/
def runLoop : List Text → TestSuiteResult → Method η TestSuiteResult
  | [], suite => pure suite
  | path :: paths, suite =>
    match readFile path with
    | none =>
      let tc : TestCaseResult :=
        { name := baseName path, path, output := "ERROR: cannot open file: " ++ String.ofList path }
      runLoop paths { suite with cases := suite.cases ++ [tc], failCount := suite.failCount + 1 }
    | some scriptText => do
      let res ← ScriptEngine.run host scriptText
      let tc : TestCaseResult :=
        { name := baseName path, path, success := res.success, failedLine := res.failedLine,
          totalExpects := res.totalExpects, failedExpects := res.failedExpects, output := res.output }
      let cases := suite.cases ++ [tc]
      runLoop paths
        (if tc.success then { suite with cases, passCount := suite.passCount + 1 }
        else { suite with cases, failCount := suite.failCount + 1 })

/-- Execute all script files against the given host; `readFile` is what reading a file yields, if it can be opened. -/
def run (scriptPaths : List Text) : Method η TestSuiteResult := runLoop host baseName readFile scriptPaths {}

end TestSuiteRunner

/-! ### What happens in a run -/

/-- The comparison that a command makes of the host's answer: whether the pin matched. -/
def Command.comparison : Command → Answer → Option Bool
  | .expect pinName expected, .sampled result => some (decide (result.getPin pinName = expected))
  | _, _ => none

/-- The run stops at a command: the host has failed, or the pin has mismatched. -/
def Command.stops (c : Command) : Answer → Bool
  | .failed _ => true
  | answer => c.comparison answer = some false

section Runs

variable {η : Type} (host : ScriptHost η)

/-- The line on which a run stops: its command is not accepted, by the engine or by the host, or its pin mismatches. -/
def stoppedAt : List (ℕ × List Text) → η → Option ℕ
  | [], _ => none
  | (lineNumber, tokens) :: rest, x =>
    match parseCommand tokens with
    | .error _ => some lineNumber
    | .ok command => (host.call command x).bind fun (answer, y) =>
      if command.stops answer then some lineNumber else stoppedAt rest y

/-- The comparisons that a run makes: whether the pin matched. -/
def comparisons : List (ℕ × List Text) → η → List Bool
  | [], _ => []
  | (_, tokens) :: rest, x =>
    match parseCommand tokens with
    | .error _ => []
    | .ok command =>
      match host.call command x with
      | none => []
      | some (answer, y) =>
        (command.comparison answer).toList ++ if command.stops answer then [] else comparisons rest y

/-- The figures of a result are those of the run. -/
structure Accounts (ss : List (ℕ × List Text)) (x : η) (r : ScriptResult) : Prop where
  totalExpects : r.totalExpects = (comparisons host ss x).length
  failedExpects : r.failedExpects = (comparisons host ss x).count false
  /-- Every line was accepted, and nothing mismatched. -/
  success : r.success = true ↔ stoppedAt host ss x = none
  failedLine : r.failedLine = (stoppedAt host ss x).getD 0

/-- A run that gets to its end, or that has compared nothing when it stops. -/
def LosesNothing (ss : List (ℕ × List Text)) (x : η) : Prop := stoppedAt host ss x = none ∨ comparisons host ss x = []

/-- The scripts of a suite, none for a file that cannot be opened, with the host as it is when they are run. -/
def started (readFile : Text → Option Text) : List Text → η → List (Option Text × η)
  | [], _ => []
  | path :: paths, x =>
    match readFile path with
    | none => (none, x) :: started readFile paths x
    | some scriptText => (some scriptText, x) :: match ScriptEngine.run host scriptText x with
      | none => []
      | some (_, y) => started readFile paths y

/-- A script gets to its end. -/
def passes : Option Text × η → Bool
  | (none, _) => false
  | (some scriptText, x) => (stoppedAt host (statements scriptText) x).isNone

/-- The figures of a case are those of its run. -/
def CaseAccounts : Option Text × η → TestCaseResult → Prop
  | (none, _), tc => tc.success = false ∧ tc.failedLine = 0 ∧ tc.totalExpects = 0 ∧ tc.failedExpects = 0
  | (some scriptText, x), tc =>
    Accounts host (statements scriptText) x ⟨tc.success, tc.failedLine, tc.output, tc.totalExpects, tc.failedExpects⟩

/-- A script that gets to its end, or has compared nothing when it stops; so has one that is not run. -/
def CaseLosesNothing : Option Text × η → Prop
  | (none, _) => True
  | (some scriptText, x) => LosesNothing host (statements scriptText) x

/-- The figures of a suite are those of its scripts. -/
structure SuiteAccounts (runs : List (Option Text × η)) (suite : TestSuiteResult) : Prop where
  cases : List.Forall₂ (CaseAccounts host) runs suite.cases
  passCount : suite.passCount = runs.countP (passes host)
  failCount : suite.failCount = runs.countP (!passes host ·)

end Runs

/-! ### Scripts -/

/-- An answer is an error for a command if and only if the run stops there. -/
theorem Command.judge_stops (c : Command) (a : Answer) :
    (∃ message, c.judge a = .error message) ∧ c.stops a = true ∨ (∃ line, c.judge a = .ok line) ∧ c.stops a = false := by
  cases a with
  | failed error => exact .inl ⟨⟨error, rfl⟩, rfl⟩
  | done => cases c <;> exact .inr ⟨⟨_, rfl⟩, rfl⟩
  | sampled result =>
    cases c with
    | expect pinName expected =>
      by_cases hmatch : result.getPin pinName = expected
      · refine .inr ⟨⟨_, if_neg (not_not.mpr hmatch)⟩, ?_⟩
        simp [stops, comparison, hmatch]
      · refine .inl ⟨⟨_, if_pos hmatch⟩, ?_⟩
        simp [stops, comparison, hmatch]
    | _ => exact .inr ⟨⟨_, rfl⟩, rfl⟩

variable {η : Type} {host : ScriptHost η}

/-- An expectation that the run does not stop at is one comparison, which matched; no other command compares. -/
theorem comparison_of_call {c : Command} {x y : η} {a : Answer} (h : host.call c x = some (a, y)) (hs : c.stops a = false) :
    (c.comparison a).toList = if c.isExpect then [true] else [] := by
  cases c with
  | expect pinName expected =>
    have h' : (host.sample x).bind (fun p => some (Answer.ofSample p.1, p.2)) = some (a, y) := h
    obtain ⟨⟨⟨ok, result, error⟩, z⟩, -, he⟩ := Option.bind_eq_some_iff.mp h'
    obtain ⟨rfl, -⟩ := Prod.mk.inj (Option.some.inj he)
    cases ok with
    | false => cases hs
    | true =>
      have hmatch : result.getPin pinName = expected := by simpa [Command.stops, Command.comparison, Answer.ofSample] using hs
      simp [Command.comparison, Answer.ofSample, Command.isExpect, hmatch]
  | _ => rfl

/-- In a run that gets to its end every comparison matches. -/
theorem all_match_of_end {ss : List (ℕ × List Text)} {x : η} (h : stoppedAt host ss x = none) :
    false ∉ comparisons host ss x := by
  induction ss generalizing x with
  | nil => exact List.not_mem_nil
  | cons s rest ih =>
    obtain ⟨lineNumber, tokens⟩ := s
    unfold stoppedAt at h
    unfold comparisons
    cases hc : parseCommand tokens with
    | error message => exact List.not_mem_nil
    | ok command =>
      simp only [hc] at h ⊢
      cases hcall : host.call command x with
      | none => exact List.not_mem_nil
      | some r =>
        obtain ⟨a, y⟩ := r
        simp only [hcall, Option.bind_some] at h ⊢
        cases hstops : command.stops a with
        | true =>
          rw [hstops] at h
          cases h
        | false =>
          rw [hstops] at h
          rw [comparison_of_call hcall hstops, if_neg Bool.false_ne_true, List.mem_append, not_or]
          refine ⟨?_, ih h⟩
          split <;> simp

/-- What the result of a run says: the counts are those of the comparisons, unless it has stopped. -/
theorem runStatements_figures (hreturns : ∀ command x, host.call command x ≠ none) (ss : List (ℕ × List Text)) (x : η)
    (output : String) (totalExpects : ℕ) : ∃ r x', ScriptEngine.runStatements host ss output totalExpects x = some (r, x') ∧
      (r.success = true ↔ stoppedAt host ss x = none) ∧ r.failedLine = (stoppedAt host ss x).getD 0 ∧ r.failedExpects = 0 ∧
      r.totalExpects = if stoppedAt host ss x = none then totalExpects + (comparisons host ss x).length else 0 := by
  induction ss generalizing x output totalExpects with
  | nil => exact ⟨_, x, rfl, iff_of_true rfl rfl, rfl, rfl, rfl⟩
  | cons s rest ih =>
    obtain ⟨lineNumber, tokens⟩ := s
    have hfail : ∀ message (y : η), ∃ r x', (pure (fail output lineNumber message) : Method η ScriptResult) y = some (r, x') ∧
        (r.success = true ↔ some lineNumber = none) ∧ r.failedLine = (some lineNumber).getD 0 ∧ r.failedExpects = 0 ∧
        r.totalExpects = 0 := fun message y =>
      ⟨_, y, rfl, iff_of_false Bool.false_ne_true (Option.some_ne_none _), rfl, rfl, rfl⟩
    unfold ScriptEngine.runStatements stoppedAt comparisons
    cases parseCommand tokens with
    | error message => exact hfail message x
    | ok command =>
      obtain ⟨⟨a, y⟩, hcall⟩ := Option.ne_none_iff_exists'.mp (hreturns command x)
      simp only [hcall, Option.bind_some]
      rw [Method.bind_of_eq _ hcall]
      rcases command.judge_stops a with ⟨⟨message, hjudge⟩, hstops⟩ | ⟨⟨line, hjudge⟩, hstops⟩
      · rw [hjudge, hstops]
        exact hfail message y
      · have hcomp := comparison_of_call hcall hstops
        rw [hjudge, hstops, hcomp]
        obtain ⟨r, x', hr, hsuccess, hline, hfailed, htotal⟩ := ih y (appendOutput output (s!"line {lineNumber}: " ++ line))
          (if command.isExpect then totalExpects + 1 else totalExpects)
        refine ⟨r, x', hr, hsuccess, hline, hfailed, htotal.trans ?_⟩
        cases command.isExpect
        · simp
        · simp [Nat.add_assoc, Nat.add_comm 1]

/-- The figures of a run are those of its result if and only if it gets to its end, or has compared nothing when it
stops. -/
theorem accounts_of_figures {ss : List (ℕ × List Text)} {x : η} {r : ScriptResult}
    (hsuccess : r.success = true ↔ stoppedAt host ss x = none) (hline : r.failedLine = (stoppedAt host ss x).getD 0)
    (hfailed : r.failedExpects = 0)
    (htotal : r.totalExpects = if stoppedAt host ss x = none then (comparisons host ss x).length else 0) :
    Accounts host ss x r ↔ LosesNothing host ss x := by
  constructor
  · intro h
    by_cases hend : stoppedAt host ss x = none
    · exact .inl hend
    · have hlength := h.totalExpects
      rw [htotal, if_neg hend] at hlength
      exact .inr (List.length_eq_zero_iff.mp hlength.symm)
  · intro h
    refine ⟨?_, ?_, hsuccess, hline⟩
    · rcases h with hend | hnone
      · rw [htotal, if_pos hend]
      · rw [htotal, hnone, List.length_nil, ite_self]
    · rw [hfailed, eq_comm, List.count_eq_zero]
      rcases h with hend | hnone
      · exact all_match_of_end hend
      · rw [hnone]
        exact List.not_mem_nil

/-! ### Suites -/

/-- What the result of a suite says: how many scripts got to their end, and of each what its result says. -/
theorem runLoop_figures (hreturns : ∀ command x, host.call command x ≠ none) (baseName : Text → Text)
    (readFile : Text → Option Text) (paths : List Text) (x : η) (suite : TestSuiteResult) :
    ∃ suite' x' cases, TestSuiteRunner.runLoop host baseName readFile paths suite x = some (suite', x') ∧
      suite'.cases = suite.cases ++ cases ∧
      List.Forall₂ (fun s tc => CaseAccounts host s tc ↔ CaseLosesNothing host s) (started host readFile paths x) cases ∧
      suite'.passCount = suite.passCount + (started host readFile paths x).countP (passes host) ∧
      suite'.failCount = suite.failCount + (started host readFile paths x).countP (!passes host ·) := by
  induction paths generalizing x suite with
  | nil => exact ⟨suite, x, [], rfl, (List.append_nil _).symm, .nil, rfl, rfl⟩
  | cons path paths ih =>
    unfold TestSuiteRunner.runLoop started
    cases hread : readFile path with
    | none =>
      obtain ⟨suite', x', cases, hr, hcases, hall, hpass, hfail⟩ := ih x
        { suite with
          cases := suite.cases ++ [{ name := baseName path, path, output := "ERROR: cannot open file: " ++ String.ofList path }]
          failCount := suite.failCount + 1 }
      refine ⟨suite', x', _ :: cases, hr, hcases.trans (List.append_assoc _ _ _), .cons ?_ hall, ?_, ?_⟩
      · exact iff_of_true ⟨rfl, rfl, rfl, rfl⟩ trivial
      · rw [List.countP_cons_of_neg Bool.false_ne_true, hpass]
      · rw [List.countP_cons_of_pos rfl, hfail, Nat.add_assoc, Nat.add_comm 1]
    | some scriptText =>
      obtain ⟨r, y, hrun, hsuccess, hline, hfailed, htotal⟩ := runStatements_figures hreturns (statements scriptText) x "" 0
      have hrun : ScriptEngine.run host scriptText x = some (r, y) := hrun
      have hpasses : passes host (some scriptText, x) = r.success := by
        rw [passes, Bool.eq_iff_iff, Option.isNone_iff_eq_none]
        exact hsuccess.symm
      rw [Nat.zero_add] at htotal
      simp only [hrun]
      rw [Method.bind_of_eq _ hrun, List.countP_cons, List.countP_cons, hpasses]
      obtain ⟨suite', x', cases, hr, hcases, hall, hpass, hfail⟩ := ih y
        (let cases := suite.cases ++ [⟨baseName path, path, r.success, r.failedLine, r.totalExpects, r.failedExpects, r.output⟩]
        if r.success then { suite with cases, passCount := suite.passCount + 1 }
        else { suite with cases, failCount := suite.failCount + 1 })
      have hcase : CaseAccounts host (some scriptText, x)
          ⟨baseName path, path, r.success, r.failedLine, r.totalExpects, r.failedExpects, r.output⟩ ↔
            CaseLosesNothing host (some scriptText, x) := accounts_of_figures hsuccess hline hfailed htotal
      refine ⟨suite', x', _ :: cases, hr, ?_, .cons hcase hall, ?_, ?_⟩
      · rw [hcases]
        cases r.success <;> exact List.append_assoc _ _ _
      · rw [hpass, Nat.add_comm _ (ite _ _ _), ← Nat.add_assoc]
        cases r.success <;> rfl
      · rw [hfail, Nat.add_comm _ (ite _ _ _), ← Nat.add_assoc]
        cases r.success <;> rfl

/-- The result of a script, and that of a suite with each of its cases, are those of their runs if and only if each run
gets to its end, or has compared nothing when it stops. -/
theorem accounts_iff (hreturns : ∀ command x, host.call command x ≠ none) :
    (∀ scriptText x, ∃ r x', ScriptEngine.run host scriptText x = some (r, x') ∧
      (Accounts host (statements scriptText) x r ↔ LosesNothing host (statements scriptText) x)) ∧
    ∀ baseName readFile scriptPaths x, ∃ suite x', TestSuiteRunner.run host baseName readFile scriptPaths x = some (suite, x') ∧
      (SuiteAccounts host (started host readFile scriptPaths x) suite ↔
        ∀ s ∈ started host readFile scriptPaths x, CaseLosesNothing host s) := by
  constructor
  · intro scriptText x
    obtain ⟨r, x', hr, hsuccess, hline, hfailed, htotal⟩ := runStatements_figures hreturns (statements scriptText) x "" 0
    rw [Nat.zero_add] at htotal
    exact ⟨r, x', hr, accounts_of_figures hsuccess hline hfailed htotal⟩
  · intro baseName readFile scriptPaths x
    obtain ⟨suite, x', cases, hr, hcases, hall, hpass, hfail⟩ :=
      runLoop_figures hreturns baseName readFile scriptPaths x {}
    refine ⟨suite, x', hr, ?_⟩
    have hcases : suite.cases = cases := hcases
    rw [Nat.zero_add] at hpass hfail
    constructor
    · intro h
      have hboth := hall.mp (fun _ _ hiff haccounts => And.intro (hiff.mp haccounts) haccounts) (hcases ▸ h.cases)
      exact ((List.forall₂_and_left _ _).mp hboth).1
    · intro h
      refine ⟨?_, hpass, hfail⟩
      rw [hcases]
      exact ((List.forall₂_and_left _ _).mpr ⟨h, hall⟩).imp fun _ _ hs => hs.2.mpr hs.1

/-- A host that does everything, and sees no pin. -/
def blindHost : ScriptHost Unit where
  sample := pure (true, {}, "")
  setPin _ _ := pure (true, "")
  setPinHighZ _ := pure (true, "")
  applyOutputs := pure (true, "")
  resetToSafe := pure ()
  sleepMs _ := pure (true, "")

theorem blindHost_returns : ∀ command x, blindHost.call command x ≠ none := by
  intro command x
  cases command with
  | set pinName drive => cases drive <;> exact Option.some_ne_none _
  | _ => exact Option.some_ne_none _

/-- An expectation of a host that sees no pin. -/
theorem accounts_iff_blind : ∃ r x', ScriptEngine.run blindHost "expect A 1".toList () = some (r, x') ∧
    (Accounts blindHost (statements "expect A 1".toList) () r ↔
      LosesNothing blindHost (statements "expect A 1".toList) ()) :=
  (accounts_iff blindHost_returns).1 "expect A 1".toList ()

/-- The pin is compared, and the result says that none was: it does not account for it. -/
theorem mismatch_not_counted :
    ∃ r x', ScriptEngine.run blindHost "expect A 1".toList () = some (r, x') ∧ r.totalExpects = 0 ∧ r.failedExpects = 0 ∧
      comparisons blindHost (statements "expect A 1".toList) () = [false] ∧
      ¬Accounts blindHost (statements "expect A 1".toList) () r := by
  have hcompared : comparisons blindHost (statements "expect A 1".toList) () = [false] := by decide
  have hstopped : stoppedAt blindHost (statements "expect A 1".toList) () = some 1 := by decide
  obtain ⟨r, x', hr, -, -, hfailed, htotal⟩ :=
    runStatements_figures blindHost_returns (statements "expect A 1".toList) () "" 0
  rw [hstopped, if_neg (Option.some_ne_none _)] at htotal
  refine ⟨r, x', hr, htotal, hfailed, hcompared, fun h => ?_⟩
  have hlength := h.totalExpects
  rw [hcompared, htotal] at hlength
  exact absurd hlength Nat.zero_ne_one

end OwlTap.Script
