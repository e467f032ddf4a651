import OwlTap.Base.Simulation
import OwlTap.BoundaryScan.InterconnectTest

/-!
# The script engine

A script is a text of commands, one on a line. `ScriptEngine` performs them one after the other on
a host, with a line of output for each, and stops at the first that fails.

What a command makes of the host's answer (`Command.judge`) is apart from how it asks the host
(`ScriptHost.call`), so two runs whose answers are judged alike return the same result
(`run_eq_of_alike`).
-/

namespace OwlTap.Script

open OwlTap Bsdl BoundaryScan

/-! ### Texts -/

/-- Without the whitespace around it. -/
def trim (input : Text) : Text := trimStr input

def toLowerAscii (value : Text) : Text := value.map Char.toLower

def toUpperAscii (value : Text) : Text := value.map Char.toUpper

/-- A line without its comment; `//` begins one only at the start of a line, and only if there is no `#` in it. -/
def stripComment (line : Text) : Text :=
  if '#' ∈ line then trim (line.takeWhile (· ≠ '#'))
  else if "//".toList.isPrefixOf line then []
  else trim line

/-- The words of a line. -/
def tokenize (line : Text) : List Text := words line

/-- The lines that `std::getline` reads. -/
def getlines (text : Text) : List Text :=
  let lines := text.splitOn '\n'
  if lines.getLast? = some [] then lines.dropLast else lines

/-- The lines that have words, with their numbers. -/
def statements (scriptText : Text) : List (ℕ × List Text) :=
  ((getlines scriptText).zipIdx 1).filterMap fun (line, lineNumber) =>
    let tokens := tokenize (stripComment line)
    if tokens = [] then none else some (lineNumber, tokens)

/-! ### Commands -/

/-- What a pin is to be driven to: a level or high impedance. -/
inductive Drive where
  | value (v : ℤ)
  | highZ
  deriving DecidableEq

def parseDriveValue (token : Text) : Except String Drive :=
  let lowered := toLowerAscii token
  if lowered = "0".toList ∨ lowered = "low".toList then .ok (.value 0)
  else if lowered = "1".toList ∨ lowered = "high".toList then .ok (.value 1)
  else if lowered = "z".toList ∨ lowered = "highz".toList ∨ lowered = "high-z".toList then .ok .highZ
  else .error ("unsupported drive value '" ++ String.ofList token ++ "'")

def parseExpectedValue (token : Text) : Except String PinState :=
  let lowered := toLowerAscii token
  if lowered = "0".toList ∨ lowered = "low".toList then .ok .low
  else if lowered = "1".toList ∨ lowered = "high".toList then .ok .high
  else if lowered = "unknown".toList ∨ lowered = "?".toList then .ok .unknown
  else .error ("unsupported expected value '" ++ String.ofList token ++ "'")

def pinStateName : PinState → String
  | .low => "LOW"
  | .high => "HIGH"
  | .unknown => "UNKNOWN"

/-- A number of milliseconds: all of the token must be the number. -/
def parseMilliseconds (token : Text) : Except String ℤ :=
  let unsigned := if token.head? = some '-' ∨ token.head? = some '+' then token.tail else token
  match BSDLParser.stoi token with
  | none => .error ("invalid integer '" ++ String.ofList token ++ "'")
  | some parsed =>
    if ¬unsigned.all Char.isDigit then .error ("invalid integer '" ++ String.ofList token ++ "'")
    else if parsed < 0 then .error "sleep duration must be >= 0"
    else .ok parsed

/-- A command. -/
inductive Command where
  | sample
  | read (pinName : Text)
  | set (pinName : Text) (drive : Drive)
  | highz (pinName : Text)
  | apply
  | expect (pinName : Text) (expected : PinState)
  | sleep (milliseconds : ℤ)
  | resetSafe

/-- The command in the words of a line. -/
def parseCommand : List Text → Except String Command
  | [] => .error "unknown command ''"
  | token :: arguments =>
    let command := toLowerAscii token
    if command = "sample".toList then
      if arguments = [] then .ok .sample else .error "sample takes no arguments"
    else if command = "read".toList then
      match arguments with
      | [pin] => .ok (.read (toUpperAscii pin))
      | _ => .error "read requires: read <pin>"
    else if command = "set".toList then
      match arguments with
      | [pin, value] => (parseDriveValue value).map (.set (toUpperAscii pin))
      | _ => .error "set requires: set <pin> <0|1|low|high|z>"
    else if command = "highz".toList ∨ command = "z".toList then
      match arguments with
      | [pin] => .ok (.highz (toUpperAscii pin))
      | _ => .error "highz requires: highz <pin>"
    else if command = "apply".toList then
      if arguments = [] then .ok .apply else .error "apply takes no arguments"
    else if command = "expect".toList then
      match arguments with
      | [pin, value] => (parseExpectedValue value).map (.expect (toUpperAscii pin))
      | _ => .error "expect requires: expect <pin> <0|1|low|high|unknown>"
    else if command = "sleep".toList then
      match arguments with
      | [milliseconds] => (parseMilliseconds milliseconds).map .sleep
      | _ => .error "sleep requires: sleep <milliseconds>"
    else if command = "reset_safe".toList then
      if arguments = [] then .ok .resetSafe else .error "reset_safe takes no arguments"
    else .error ("unknown command '" ++ String.ofList token ++ "'")

/-! ### Hosts -/

/-- What scripts run on. Most methods return whether they succeed, and the error. -/
structure ScriptHost (η : Type) where
  /-- Also the result. -/
  sample : Method η (Bool × ScanResult × String)
  setPin (pinName : Text) (value : ℤ) : Method η (Bool × String)
  setPinHighZ (pinName : Text) : Method η (Bool × String)
  applyOutputs : Method η (Bool × String)
  resetToSafe : Method η Unit
  sleepMs (milliseconds : ℤ) : Method η (Bool × String)

/-- What a host answers to a command. -/
inductive Answer where
  /-- It has failed. -/
  | failed (error : String)
  /-- It has done it. -/
  | done
  /-- It has taken a sample. -/
  | sampled (result : ScanResult)

/-- The answer of a method without a result. -/
def Answer.ofStatus : Bool × String → Answer
  | (true, _) => .done
  | (false, error) => .failed error

/-- The answer of `sample`. -/
def Answer.ofSample : Bool × ScanResult × String → Answer
  | (true, result, _) => .sampled result
  | (false, _, error) => .failed error

/-- How a command asks a host. -/
def ScriptHost.call {η : Type} (host : ScriptHost η) : Command → Method η Answer
  | .sample | .read _ | .expect _ _ => Answer.ofSample <$> host.sample
  | .set pinName (.value v) => Answer.ofStatus <$> host.setPin pinName v
  | .set pinName .highZ | .highz pinName => Answer.ofStatus <$> host.setPinHighZ pinName
  | .apply => Answer.ofStatus <$> host.applyOutputs
  | .sleep milliseconds => Answer.ofStatus <$> host.sleepMs milliseconds
  | .resetSafe => do
    host.resetToSafe
    Answer.ofStatus <$> host.applyOutputs

namespace Command

/-- The name of what a pin is driven to. -/
def driveName : Drive → String
  | .value v => if v = 0 then "LOW" else "HIGH"
  | .highZ => "HIGH-Z"

/-- What a command has done, when the host has taken a sample for it. -/
def judgeSample (result : ScanResult) : Command → Except String String
  | .read pinName => .ok (String.ofList pinName ++ " = " ++ pinStateName (result.getPin pinName))
  | .expect pinName expected =>
    let actual := result.getPin pinName
    if actual ≠ expected then
      .error (String.ofList pinName ++ " expected " ++ pinStateName expected ++ " but observed " ++ pinStateName actual)
    else .ok ("expect " ++ String.ofList pinName ++ " == " ++ pinStateName expected ++ " OK")
  | _ => .ok "sample OK"

/-- What a command has done. -/
def report : Command → String
  | .set pinName drive => "staged " ++ String.ofList pinName ++ " = " ++ driveName drive
  | .highz pinName => "staged " ++ String.ofList pinName ++ " = HIGH-Z"
  | .apply => "apply OK"
  | .sleep milliseconds => s!"sleep {milliseconds} ms"
  | .resetSafe => "reset_safe OK"
  | _ => ""

/-- What a command makes of the host's answer: an error, or what it has done. -/
def judge (c : Command) : Answer → Except String String
  | .failed error => .error error
  | .done => .ok c.report
  | .sampled result => c.judgeSample result

/-- Whether it is an expectation. -/
def isExpect : Command → Bool
  | .expect _ _ => true
  | _ => false

/-- The pin whose state a command looks at. -/
def asked : Command → Option Text
  | .read pinName | .expect pinName _ => some pinName
  | _ => none

end Command

/-! ### The engine -/

/-- The result of a script. -/
structure ScriptResult where
  success : Bool := false
  /-- The line that has failed, 0 if none. -/
  failedLine : ℕ := 0
  output : String := ""
  totalExpects : ℕ := 0
  failedExpects : ℕ := 0
  deriving DecidableEq

/-- With one more line. -/
def appendOutput (output line : String) : String := output ++ line ++ "\n"

/-- The result of a script that fails; it does not count the expectations. -/
def fail (output : String) (lineNumber : ℕ) (message : String) : ScriptResult :=
  { success := false, failedLine := lineNumber, output := appendOutput output (s!"line {lineNumber}: ERROR: " ++ message) }

namespace ScriptEngine

variable {η : Type} (host : ScriptHost η)

/-- Run the rest of a script. An expectation that is not met ends the script, so none is counted as failed. -/
def runStatements : List (ℕ × List Text) → (output : String) → (totalExpects : ℕ) → Method η ScriptResult
  | [], output, totalExpects =>
    pure { success := true, output := appendOutput output "script completed successfully", totalExpects }
  | (lineNumber, tokens) :: rest, output, totalExpects =>
    match parseCommand tokens with
    | .error message => pure (fail output lineNumber message)
    | .ok command => do
      match command.judge (← host.call command) with
      | .error message => pure (fail output lineNumber message)
      | .ok line =>
        runStatements rest (appendOutput output (s!"line {lineNumber}: " ++ line))
          (if command.isExpect then totalExpects + 1 else totalExpects)

/-- Run a script. -/
def run (scriptText : Text) : Method η ScriptResult := runStatements host (statements scriptText) "" 0

end ScriptEngine

/-- What every call on a host keeps, a script keeps. -/
theorem ScriptEngine.keeps_run {η : Type} {host : ScriptHost η} {I : η → Prop}
    (hI : ∀ command, Method.Keeps I (host.call command)) (scriptText : Text) :
    Method.Keeps I (ScriptEngine.run host scriptText) := by
  unfold ScriptEngine.run
  generalize statements scriptText = ss
  generalize "" = output
  generalize 0 = totalExpects
  induction ss generalizing output totalExpects with
  | nil => exact .pure _
  | cons s rest ih =>
    unfold ScriptEngine.runStatements
    cases parseCommand s.2 with
    | error message => exact .pure _
    | ok command =>
      refine (hI command).bind fun answer => ?_
      cases command.judge answer with
      | error message => exact .pure _
      | ok line => exact ih _ _

/-- If every call on one host is the call on another, so is a script. -/
theorem ScriptEngine.simulates_run {η₁ η₂ : Type} {R : η₁ → η₂ → Prop} {host₁ : ScriptHost η₁} {host₂ : ScriptHost η₂}
    (h : ∀ command, Method.Simulates R (host₁.call command) (host₂.call command)) (scriptText : Text) :
    Method.Simulates R (ScriptEngine.run host₁ scriptText) (ScriptEngine.run host₂ scriptText) := by
  unfold ScriptEngine.run
  generalize statements scriptText = ss
  generalize "" = output
  generalize 0 = totalExpects
  induction ss generalizing output totalExpects with
  | nil => exact .pure _
  | cons s rest ih =>
    unfold ScriptEngine.runStatements
    cases parseCommand s.2 with
    | error message => exact .pure _
    | ok command =>
      refine (h command).bind fun answer => ?_
      cases command.judge answer with
      | error message => exact .pure _
      | ok line => exact ih _ _

/-! ### The commands that are performed -/

/-- The commands that a script performs, each with the host as it is then. -/
def performed {η : Type} (host : ScriptHost η) : List (ℕ × List Text) → η → List (Command × η)
  | [], _ => []
  | (_, tokens) :: rest, x =>
    match parseCommand tokens with
    | .error _ => []
    | .ok command =>
      (command, x) :: match host.call command x with
        | none => []
        | some (answer, y) =>
          match command.judge answer with
          | .error _ => []
          | .ok _ => performed host rest y

/-- What every call on a host keeps holds whenever a command is performed. -/
theorem performed_keeps {η : Type} {host : ScriptHost η} {I : η → Prop} (hI : ∀ command, Method.Keeps I (host.call command))
    {ss : List (ℕ × List Text)} {x : η} (hx : I x) {p : Command × η} (hp : p ∈ performed host ss x) : I p.2 := by
  induction ss generalizing x with
  | nil => cases hp
  | cons s rest ih =>
    unfold performed at hp
    cases hc : parseCommand s.2 with
    | error message =>
      simp only [hc] at hp
      cases hp
    | ok command =>
      simp only [hc] at hp
      rcases List.mem_cons.mp hp with rfl | hp
      · exact hx
      cases hcall : host.call command x with
      | none =>
        simp only [hcall] at hp
        cases hp
      | some r =>
        simp only [hcall] at hp
        cases hj : command.judge r.1 with
        | error message =>
          simp only [hj] at hp
          cases hp
        | ok line =>
          simp only [hj] at hp
          exact ih (hI command x r.1 r.2 hx hcall) hp

/-- The run of a script has no meaning if and only if a command that it performs has none. -/
theorem runStatements_eq_none {η : Type} {host : ScriptHost η} {ss : List (ℕ × List Text)} {x : η} {output : String}
    {totalExpects : ℕ} : ScriptEngine.runStatements host ss output totalExpects x = none ↔
      ∃ p ∈ performed host ss x, host.call p.1 p.2 = none := by
  have hnone : ¬∃ p ∈ ([] : List (Command × η)), host.call p.1 p.2 = none := by
    rintro ⟨p, hp, -⟩
    cases hp
  induction ss generalizing x output totalExpects with
  | nil => exact iff_of_false (Option.some_ne_none _) hnone
  | cons s rest ih =>
    obtain ⟨lineNumber, tokens⟩ := s
    unfold ScriptEngine.runStatements performed
    cases parseCommand tokens with
    | error message => exact iff_of_false (Option.some_ne_none _) hnone
    | ok command =>
      simp only [List.mem_cons, exists_eq_or_imp]
      cases hcall : host.call command x with
      | none => exact iff_of_true (Method.bind_of_none _ hcall) (.inl rfl)
      | some r =>
        rw [Method.bind_of_eq _ (show host.call command x = some (r.1, r.2) from hcall)]
        simp only [reduceCtorEq, false_or]
        cases command.judge r.1 with
        | error message => exact iff_of_false (Option.some_ne_none _) hnone
        | ok line => exact ih

/-- The pins whose states are looked at by the commands before the first that is not well formed. -/
def askedIn : List (ℕ × List Text) → List Text
  | [] => []
  | (_, tokens) :: rest =>
    match parseCommand tokens with
    | .error _ => []
    | .ok command => command.asked.toList ++ askedIn rest

/-- The pins whose states a script looks at. -/
def asked (scriptText : Text) : List Text := askedIn (statements scriptText)

/-! ### Two runs -/

section Alike

variable {η₁ η₂ : Type} (host₁ : ScriptHost η₁) (host₂ : ScriptHost η₂) (R : Command → Answer → Answer → Prop)

/-- As far as a script runs on both of two hosts, they give answers that are related. -/
def Alike : List (ℕ × List Text) → η₁ → η₂ → Prop
  | [], _, _ => True
  | (_, tokens) :: rest, x, y =>
    ∀ command, parseCommand tokens = .ok command → ∃ a x' b y', host₁.call command x = some (a, x') ∧
      host₂.call command y = some (b, y') ∧ R command a b ∧ Alike rest x' y'

variable {host₁ host₂ R}

/-- Two runs with answers that are judged alike return the same. -/
theorem runStatements_eq_of_alike {ss : List (ℕ × List Text)} {x : η₁} {y : η₂}
    (h : Alike host₁ host₂ (fun command a b => command.judge a = command.judge b) ss x y) (output : String)
    (totalExpects : ℕ) : ∃ r x' y', ScriptEngine.runStatements host₁ ss output totalExpects x = some (r, x') ∧
      ScriptEngine.runStatements host₂ ss output totalExpects y = some (r, y') := by
  induction ss generalizing x y output totalExpects with
  | nil => exact ⟨_, x, y, rfl, rfl⟩
  | cons s rest ih =>
    obtain ⟨lineNumber, tokens⟩ := s
    unfold ScriptEngine.runStatements
    cases hc : parseCommand tokens with
    | error message => exact ⟨_, x, y, rfl, rfl⟩
    | ok command =>
      obtain ⟨a, x', b, y', hx, hy, hjudge, hrest⟩ := h command hc
      simp only
      rw [Method.bind_of_eq _ hx, Method.bind_of_eq _ hy, hjudge]
      cases command.judge b with
      | error message => exact ⟨_, x', y', rfl, rfl⟩
      | ok line => exact ih hrest _ _

theorem run_eq_of_alike {scriptText : Text} {x : η₁} {y : η₂}
    (h : Alike host₁ host₂ (fun command a b => command.judge a = command.judge b) (statements scriptText) x y) :
    ∃ r x' y', ScriptEngine.run host₁ scriptText x = some (r, x') ∧ ScriptEngine.run host₂ scriptText y = some (r, y') :=
  runStatements_eq_of_alike h "" 0

end Alike

end OwlTap.Script
