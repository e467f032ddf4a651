import OwlTap.Jtag.BoundaryAccess
import OwlTap.Mcp.FilterHistory
import OwlTap.Mcp.SampleErrors

/-!
# Captures and the requests after them

The filter that a capture leaves decides which pins a later `read_pin` or `run_script` finds. So
after two histories they answer the same, from the same contents of the boundary register, when the
filters that these have left treat alike the pins that are asked for (`filter_isolation`).
-/

namespace OwlTap.Mcp

open OwlTap Ftdi Bsdl Jtag BoundaryScan Hardware Script

variable {σ : Type} {T : Target σ}

/-! ### What a filter lets through -/

/-- Whether a scanner with this filter gives a pin its state. -/
def Lets (decodeFilter : List Text) (name : Text) : Prop := decodeFilter = [] ∨ name ∈ decodeFilter

instance (decodeFilter : List Text) (name : Text) : Decidable (Lets decodeFilter name) :=
  inferInstanceAs (Decidable (_ ∨ _))

/-- Whether there is something to be seen of a pin. -/
def Observable (dev : BSDLDevice) (name : Text) : Prop :=
  0 < dev.boundaryLength ∧ name ∈ Scanner.observablePins dev

instance (dev : BSDLDevice) (name : Text) : Decidable (Observable dev name) := inferInstanceAs (Decidable (_ ∧ _))

/-- How many bits of the boundary register a scanner reads. -/
def readLen (sc : Scanner σ) (dev : BSDLDevice) : ℕ :=
  if 0 < sc.maxNeededBsrBits ∧ sc.maxNeededBsrBits < dev.boundaryLength then sc.maxNeededBsrBits else dev.boundaryLength

/-- The scans of a sample succeed, and what they read are these contents of the boundary register. -/
structure Reading (T : Target σ) (dev : BSDLDevice) (contents : ℕ → Bool) (sc : Scanner σ) (result : ScanResult)
    (sc' : Scanner σ) : Prop where
  scans : Scans T sc result sc'
  /-- The device has this model. -/
  model : sc.bsdlDevice = some dev
  bits : ∀ i < readLen sc dev, bitAt result.rawBsr i = contents i

namespace Reading

variable {dev : BSDLDevice} {contents : ℕ → Bool} {sc sc' : Scanner σ} {result : ScanResult}

/-- What the result is. -/
theorem result_eq (h : Reading T dev contents sc result sc') :
    result = filterScan sc.decodeFilter (decodeBoundaryScan dev result.rawBsr) ∧
      result.rawBsr.length = bytesFor (readLen sc dev) ∧ ∀ j, readLen sc dev ≤ j → bitAt result.rawBsr j = false := by
  obtain ⟨dev', op, idled, raw, c₁, c₂, c₃, hb, hop, hsel, hidle, hread, rfl, -⟩ := h.scans
  obtain rfl := Option.some.inj (hb.symm.trans h.model)
  have hraw : (filterScan sc.decodeFilter (decodeBoundaryScan dev' raw)).rawBsr = raw := by
    unfold filterScan decodeBoundaryScan
    split <;> split <;> rfl
  rw [hraw]
  have hdevices := kept_devices T sc.chain.devices
  have h₁ : c₁.devices = sc.chain.devices :=
    hdevices.sample (i := sc.deviceIndex) hb hop _ _ _ rfl hsel
  have h₂ : c₂.devices = sc.chain.devices := hdevices.idle 2 _ _ _ h₁ hidle
  have hb₂ : (c₂.deviceAt sc.deviceIndex).bind ChainDevice.bsdl = some dev' := by
    rw [JtagChain.deviceAt, h₂]
    exact hb
  exact ⟨rfl, JtagChain.readBSR_padded hb₂ hread⟩

/-- The state of a pin, from the bits that were read. -/
theorem lookup_eq (h : Reading T dev contents sc result sc') (name : Text) : result.pinStates.lookup name =
    if Lets sc.decodeFilter name then (decodeBoundaryScan dev result.rawBsr).pinStates.lookup name else none := by
  rw [h.result_eq.1, lookup_filterScan]
  have hraw : (filterScan sc.decodeFilter (decodeBoundaryScan dev result.rawBsr)).rawBsr = result.rawBsr := by
    rw [← h.result_eq.1]
  rw [hraw]
  rfl

/-- Nothing is read of a boundary register without cells. -/
theorem raw_eq_nil (h : Reading T dev contents sc result sc') : result.rawBsr = [] ↔ dev.boundaryLength = 0 := by
  rw [← List.length_eq_zero_iff, h.result_eq.2.1, bytesFor, readLen]
  split <;> omega

/-- A pin is reported with a level when there is something to be seen of it and the filter lets it through. -/
theorem getPin_ne_unknown (h : Reading T dev contents sc result sc') (name : Text) :
    result.getPin name ≠ .unknown ↔ Lets sc.decodeFilter name ∧ Observable dev name := by
  rw [ScanResult.getPin, h.lookup_eq]
  split
  case isFalse hno => exact iff_of_false (fun hne => hne rfl) fun hl => hno hl.1
  case isTrue hlets =>
    rw [and_iff_right hlets]
    by_cases hnil : result.rawBsr = []
    · rw [hnil]
      exact iff_of_false (fun hne => hne rfl) fun hobs => hobs.1.ne' (h.raw_eq_nil.mp hnil)
    · have hpos : 0 < dev.boundaryLength := Nat.pos_of_ne_zero fun h0 => hnil (h.raw_eq_nil.mpr h0)
      rw [Observable, and_iff_right hpos, ← lookup_decodeBoundaryScan_ne_none hnil]
      cases hlook : (decodeBoundaryScan dev result.rawBsr).pinStates.lookup name with
      | none => exact iff_of_false (fun hne => hne rfl) fun hne => hne rfl
      | some state =>
        refine iff_of_true (fun hunknown => ?_) (Option.some_ne_none _)
        obtain rfl : state = .unknown := hunknown
        exact lookup_decodeBoundaryScan_ne_unknown _ _ _ hlook

/-- Two scanners that let a pin through read the same of it. -/
theorem getPin_eq (h : Reading T dev contents sc result sc') {other other' : Scanner σ} {result' : ScanResult}
    (h' : Reading T dev contents other result' other') {name : Text} (hl : Lets sc.decodeFilter name)
    (hl' : Lets other.decodeFilter name) : result.getPin name = result'.getPin name := by
  rw [ScanResult.getPin, ScanResult.getPin, h.lookup_eq, h'.lookup_eq, if_pos hl, if_pos hl']
  by_cases hnil : result.rawBsr = []
  · rw [hnil, h'.raw_eq_nil.mpr (h.raw_eq_nil.mp hnil)]
  have hnil' : result'.rawBsr ≠ [] := fun h0 => hnil (h.raw_eq_nil.mpr (h'.raw_eq_nil.mp h0))
  refine congrArg (Option.getD · PinState.unknown) (lookup_decodeBoundaryScan hnil hnil' fun cell hc hpin hname => ?_)
  -- a scanner that lets the pin through and reads a part of the register reads its cells
  have hcovers : ∀ {s : Scanner σ}, Lets s.decodeFilter name → s.bsdlDevice = some dev → 0 ≤ cell.position →
      cell.position < readLen s dev ∨ readLen s dev = dev.boundaryLength := by
    intro s hlets hmodel h0
    unfold readLen
    split
    case isFalse => exact .inr rfl
    case isTrue hpart =>
      refine .inl (Scanner.position_lt_maxNeeded s hmodel hc hpin h0 (hname ▸ hlets.resolve_left fun hempty => ?_))
      rw [Scanner.maxNeededBsrBits, if_pos hempty] at hpart
      exact absurd hpart.1 (lt_irrefl 0)
  have hle : ∀ s : Scanner σ, readLen s dev ≤ dev.boundaryLength := by
    intro s
    unfold readLen
    split
    case isTrue hpart => exact hpart.2.le
    case isFalse => exact le_refl _
  unfold BoundaryScan.getBit
  split
  case isTrue => rfl
  case isFalse h0 =>
    have h0 : 0 ≤ cell.position := not_lt.mp h0
    have hle₁ := hle sc
    have hle₂ := hle other
    by_cases hlt : cell.position.toNat < readLen sc dev ∧ cell.position.toNat < readLen other dev
    · rw [h.bits _ hlt.1, h'.bits _ hlt.2]
    · rcases hcovers hl h.model h0 with hlt₁ | hfull₁
      · rcases hcovers hl' h'.model h0 with hlt₂ | hfull₂
        · exact absurd ⟨by omega, by omega⟩ hlt
        · exact absurd ⟨by omega, by omega⟩ hlt
      · rcases hcovers hl' h'.model h0 with hlt₂ | hfull₂
        · exact absurd ⟨by omega, by omega⟩ hlt
        · rw [h.result_eq.2.2 _ (by omega), h'.result_eq.2.2 _ (by omega)]

/-- The states that two scanners report of a pin are the same when there is nothing to be seen of it, or when both let it
through or neither does. -/
theorem getPin_eq_iff (h : Reading T dev contents sc result sc') {other other' : Scanner σ} {result' : ScanResult}
    (h' : Reading T dev contents other result' other') (name : Text) : result.getPin name = result'.getPin name ↔
      (Observable dev name → (Lets sc.decodeFilter name ↔ Lets other.decodeFilter name)) := by
  have hknown := h.getPin_ne_unknown name
  have hknown' := h'.getPin_ne_unknown name
  constructor
  · intro heq hobs
    rw [heq, hknown', and_iff_left hobs, and_iff_left hobs] at hknown
    exact hknown.symm
  · intro halike
    by_cases hobs : Observable dev name
    · by_cases hl : Lets sc.decodeFilter name
      · exact h.getPin_eq h' hl ((halike hobs).mp hl)
      · rw [not_ne_iff.mp (mt hknown.mp fun hk => hl hk.1),
          not_ne_iff.mp (mt hknown'.mp fun hk => hl ((halike hobs).mpr hk.1))]
    · rw [not_ne_iff.mp (mt hknown.mp fun hk => hobs hk.2), not_ne_iff.mp (mt hknown'.mp fun hk => hobs hk.2)]

end Reading

/-! ### Scripts -/

namespace McpScriptHost

/-- The scanner of a script host. -/
def asScanner (h : McpScriptHost σ) : Scanner σ := { h.scanner with chain := h.chain }

/-- A script host after its scanner has been used. -/
def setScanner (h : McpScriptHost σ) (sc : Scanner σ) : McpScriptHost σ :=
  { h with scanner := sc.toScannerData, chain := sc.chain }

end McpScriptHost

/-- Whether the host takes a sample for a command. -/
def samples : Command → Bool
  | .sample | .read _ | .expect _ _ => true
  | _ => false

/-- As far as a script is well formed, the samples that it takes on two hosts read the same contents of the boundary
register, and the drivers answer its other commands alike. -/
def SameReadings (T : Target σ) (dev : BSDLDevice) : List (ℕ × List Text) → McpScriptHost σ → McpScriptHost σ → Prop
  | [], _, _ => True
  | (_, tokens) :: rest, x, y =>
    ∀ command, parseCommand tokens = .ok command →
      if samples command then
        ∃ contents result₁ sc₁ result₂ sc₂, Reading T dev contents x.asScanner result₁ sc₁ ∧
          Reading T dev contents y.asScanner result₂ sc₂ ∧ SameReadings T dev rest (x.setScanner sc₁) (y.setScanner sc₂)
      else
        ∃ answer x' y', (McpScriptHost.host T).call command x = some (answer, x') ∧
          (McpScriptHost.host T).call command y = some (answer, y') ∧ SameReadings T dev rest x' y'

/-- A command that looks at pins on which two results agree is judged alike. -/
theorem judgeSample_congr {command : Command} {result result' : ScanResult}
    (h : ∀ name, command.asked = some name → result.getPin name = result'.getPin name) :
    command.judgeSample result = command.judgeSample result' := by
  cases command with
  | read pinName => rw [Command.judgeSample, Command.judgeSample, h pinName rfl]
  | expect pinName expected => rw [Command.judgeSample, Command.judgeSample, h pinName rfl]
  | _ => rfl

/-- What the host answers to a command for which it takes a sample. -/
theorem call_of_samples {command : Command} (hc : samples command = true) {dev : BSDLDevice} {contents : ℕ → Bool}
    {h : McpScriptHost σ} {result : ScanResult} {sc : Scanner σ} (hr : Reading T dev contents h.asScanner result sc) :
    (McpScriptHost.host T).call command h =
      some (if h.scanner.lastError = "" then .sampled result else .failed h.scanner.lastError, h.setScanner sc) := by
  obtain ⟨hsample, herror⟩ := hr.scans.sample
  have hcall : (McpScriptHost.host T).call command = Answer.ofSample <$> McpScriptHost.onScanner (McpScriptHost.sample T) := by
    cases command with
    | sample | read | expect => rfl
    | _ => cases hc
  have hsc : McpScriptHost.sample T h.asScanner = some ((decide (sc.lastError = ""), result, sc.lastError), sc) := by
    rw [McpScriptHost.sample, Method.bind_of_eq _ hsample]
  have hon : McpScriptHost.onScanner (McpScriptHost.sample T) h =
      some ((decide (sc.lastError = ""), result, sc.lastError), h.setScanner sc) := Method.on_of_eq _ hsc
  have herror : sc.lastError = h.scanner.lastError := herror
  rw [hcall, map_eq_pure_bind, Method.bind_of_eq _ hon, herror]
  by_cases he : h.scanner.lastError = ""
  · rw [if_pos he, he]
    rfl
  · rw [if_neg he, decide_eq_false he]
    rfl

/-- A command for which the host takes no sample leaves the scanner as it is. -/
theorem scanner_of_call {command : Command} (hc : samples command = false) {h h' : McpScriptHost σ} {answer : Answer}
    (e : (McpScriptHost.host T).call command h = some (answer, h')) : h'.scanner = h.scanner := by
  have hdriver : ∀ {α : Type} (m : Method (PinDriver σ) α),
      Method.Keeps (fun x : McpScriptHost σ => x.scanner = h.scanner) (McpScriptHost.onDriver m) := by
    intro α m x a x' hx e
    obtain ⟨pd, -, rfl⟩ := Method.on_eq_some.mp e
    exact hx
  have hkeeps : Method.Keeps (fun x : McpScriptHost σ => x.scanner = h.scanner) ((McpScriptHost.host T).call command) := by
    cases command with
    | sample | read | expect => cases hc
    | set pinName drive =>
      cases drive with
      | value v => exact keeps_map (hdriver _) _
      | highZ => exact keeps_map (hdriver _) _
    | highz pinName => exact keeps_map (hdriver _) _
    | apply => exact keeps_map (hdriver _) _
    | sleep milliseconds => exact keeps_map (.pure _) _
    | resetSafe => exact (hdriver fun pd : PinDriver σ => some ((), pd.resetToSafe)).bind fun _ => keeps_map (hdriver _) _
  exact hkeeps h answer h' rfl e

/-- On two hosts with the same readings, whose filters treat alike the pins that a script asks for, its commands are judged
alike. -/
theorem alike_of_sameReadings {dev : BSDLDevice} {ss : List (ℕ × List Text)} {x y : McpScriptHost σ}
    (h : SameReadings T dev ss x y) (herror : x.scanner.lastError = y.scanner.lastError)
    (halike : ∀ name ∈ askedIn ss, Observable dev name →
      (Lets x.scanner.decodeFilter name ↔ Lets y.scanner.decodeFilter name)) :
    Alike (McpScriptHost.host T) (McpScriptHost.host T) (fun command a b => command.judge a = command.judge b) ss x y := by
  induction ss generalizing x y with
  | nil => trivial
  | cons s rest ih =>
    intro command hcommand
    have hasked : askedIn (s :: rest) = command.asked.toList ++ askedIn rest := by
      rw [askedIn, hcommand]
    rw [hasked] at halike
    have hrest := fun name hname => halike name (List.mem_append_right _ hname)
    have h := h command hcommand
    cases hc : samples command with
    | true =>
      rw [hc, if_pos rfl] at h
      obtain ⟨contents, result₁, sc₁, result₂, sc₂, hr₁, hr₂, hnext⟩ := h
      refine ⟨_, _, _, _, call_of_samples hc hr₁, call_of_samples hc hr₂, ?_, ih hnext ?_ ?_⟩
      · rw [herror]
        split
        · refine judgeSample_congr fun name hname => (hr₁.getPin_eq_iff hr₂ name).mpr (halike name ?_)
          rw [hname]
          exact List.mem_append_left _ (List.mem_singleton_self name)
        · rfl
      · exact hr₁.scans.sample.2.trans (herror.trans hr₂.scans.sample.2.symm)
      · have hfilter : ∀ {z : McpScriptHost σ} {result : ScanResult} {sc : Scanner σ}, Reading T dev contents z.asScanner result sc →
            (z.setScanner sc).scanner.decodeFilter = z.scanner.decodeFilter := fun {z result sc} hr =>
          (keeps_filters_sample _ _ _ (show Filters z.chain.devices _ z.asScanner from ⟨rfl, rfl⟩) hr.scans.sample.1).2
        rw [hfilter hr₁, hfilter hr₂]
        exact hrest
    | false =>
      rw [hc, if_neg Bool.false_ne_true] at h
      obtain ⟨answer, x', y', hx, hy, hnext⟩ := h
      refine ⟨answer, x', answer, y', hx, hy, rfl, ih hnext ?_ ?_⟩
      · rw [scanner_of_call hc hx, scanner_of_call hc hy, herror]
      · rw [scanner_of_call hc hx, scanner_of_call hc hy]
        exact hrest

/-! ### Two histories -/

/-- What `read_pin` answers when the scans succeed. -/
theorem response_readPin {preSamples : ℕ → ℕ} {ctx : HardwareContext σ} {i : ℤ} {data : ScannerData}
    (hs : ctx.scanner i = .ok data) {dev : BSDLDevice} {contents : ℕ → Bool} {result : ScanResult} {sc : Scanner σ}
    (hr : Reading T dev contents { data with chain := ctx.chain } result sc) (pinName : Text) :
    (Request.readPin i pinName).response T preSamples ctx =
      some (if data.lastError ≠ "" then .error data.lastError else .ok (readPinResult i pinName result)) := by
  obtain ⟨hsample, herror⟩ := hr.scans.sample
  have herror : sc.lastError = data.lastError := herror
  rw [Request.response, Request.task, withScanner, hs]
  simp only
  rw [readPin, Method.bind_of_eq _ hsample, herror]
  rfl

theorem readPinResult_inj {i : ℤ} {pinName : Text} {result result' : ScanResult} :
    readPinResult i pinName result = readPinResult i pinName result' ↔ result.getPin pinName = result'.getPin pinName := by
  refine ⟨fun h => ?_, fun h => by rw [readPinResult, readPinResult, h]⟩
  have hstr : pinStateStr (result.getPin pinName) = pinStateStr (result'.getPin pinName) := by
    have hget := congrArg (Json.get? "state") h
    exact Json.str.inj (Option.some.inj hget)
  revert hstr
  cases result.getPin pinName <;> cases result'.getPin pinName <;> decide

/-- What `run_script` answers, with the script host that it has opened. -/
theorem response_runScript {preSamples : ℕ → ℕ} {ctx ctx' : HardwareContext σ} {i : ℤ} {h h' : McpScriptHost σ}
    (ho : McpScriptHost.open T i ctx = some (.ok h, ctx')) {script : Text} {r : ScriptResult}
    (hr : ScriptEngine.run (McpScriptHost.host T) script h = some (r, h')) :
    (Request.runScript i script).response T preSamples ctx = some (.ok (scriptResultToJson r)) := by
  rw [Request.response, Request.task, runScript, Method.bind_of_eq _ ho]
  simp only [hr]
  rfl

theorem scanner_of_open {ctx ctx' : HardwareContext σ} {i : ℤ} {data : ScannerData} (hs : ctx.scanner i = .ok data)
    {h : McpScriptHost σ} (ho : McpScriptHost.open T i ctx = some (.ok h, ctx')) : h.scanner = data := by
  rw [McpScriptHost.open, hs] at ho
  obtain ⟨⟨driver, ctx₁⟩, -, he⟩ := Option.map_eq_some_iff.mp ho
  cases driver with
  | error what => cases (Prod.mk.inj he).1
  | ok driver =>
    obtain rfl := Except.ok.inj (Prod.mk.inj he).1
    rfl

/-- After two histories, of which the filters of the captures in them are what matters here, requests for a device that find
the same contents in its boundary register. The answers of `read_pin` are the same just when the earlier failures have left the
same error and, if that is none and there is something to be seen of the pin, the filters left by the two histories let it
through or both do not. So a pin that can be seen is reported with its level just when the filter lets it through. The answers of
`run_script` are the same when the errors are and the filters treat alike each pin that the script asks for and that can be
seen. -/
theorem filter_isolation {preSamples : ℕ → ℕ} {history₁ history₂ : List Request} {ctx₁ ctx₂ : HardwareContext σ}
    (h₁ : Ran T preSamples history₁ ctx₁) (h₂ : Ran T preSamples history₂ ctx₂) {i : ℤ} {data₁ data₂ : ScannerData}
    (hs₁ : ctx₁.scanner i = .ok data₁) (hs₂ : ctx₂.scanner i = .ok data₂) {dev : BSDLDevice} :
    (∀ contents result₁ sc₁ result₂ sc₂, Reading T dev contents { data₁ with chain := ctx₁.chain } result₁ sc₁ →
      Reading T dev contents { data₂ with chain := ctx₂.chain } result₂ sc₂ → ∀ pinName,
      ((Request.readPin i pinName).response T preSamples ctx₁ = (Request.readPin i pinName).response T preSamples ctx₂ ↔
        data₁.lastError = data₂.lastError ∧ (data₁.lastError = "" → Observable dev pinName →
          (Lets (filterLeft i history₁) pinName ↔ Lets (filterLeft i history₂) pinName))) ∧
      (data₁.lastError = "" → (Request.readPin i pinName).response T preSamples ctx₁ =
        some (.ok (readPinResult i pinName result₁)) ∧
        (result₁.getPin pinName ≠ .unknown ↔ Lets (filterLeft i history₁) pinName ∧ Observable dev pinName))) ∧
    (∀ script host₁ ctx₁' host₂ ctx₂', McpScriptHost.open T i ctx₁ = some (.ok host₁, ctx₁') →
      McpScriptHost.open T i ctx₂ = some (.ok host₂, ctx₂') → SameReadings T dev (statements script) host₁ host₂ →
      data₁.lastError = data₂.lastError → (∀ pinName ∈ asked script, Observable dev pinName →
        (Lets (filterLeft i history₁) pinName ↔ Lets (filterLeft i history₂) pinName)) →
      (Request.runScript i script).response T preSamples ctx₁ = (Request.runScript i script).response T preSamples ctx₂) := by
  have hfilter₁ := filter_of_ran h₁ data₁ hs₁
  have hfilter₂ := filter_of_ran h₂ data₂ hs₂
  constructor
  · intro contents result₁ sc₁ result₂ sc₂ hr₁ hr₂ pinName
    have hpin := hr₁.getPin_eq_iff hr₂ pinName
    have hknown := hr₁.getPin_ne_unknown pinName
    rw [← hfilter₁, ← hfilter₂, response_readPin hs₁ hr₁, response_readPin hs₂ hr₂]
    refine ⟨?_, fun herror => ⟨by rw [if_neg (not_not.mpr herror)], hknown⟩⟩
    by_cases herror : data₁.lastError = data₂.lastError
    · rw [← herror, and_iff_right rfl, Option.some.injEq]
      by_cases hempty : data₁.lastError = ""
      · rw [if_neg (not_not.mpr hempty), if_neg (not_not.mpr hempty), Except.ok.injEq, readPinResult_inj]
        exact hpin.trans ⟨fun h _ => h, fun h => h hempty⟩
      · rw [if_pos hempty, if_pos hempty]
        exact iff_of_true rfl fun h => absurd h hempty
    · refine iff_of_false (fun heq => herror ?_) fun h => herror h.1
      -- an error is answered as itself, and no error is answered like a result
      have heq := Option.some.inj heq
      by_cases h₁ : data₁.lastError = ""
      · rw [if_neg (not_not.mpr h₁), if_pos fun h₂ => herror (h₁.trans h₂.symm)] at heq
        cases heq
      · rw [if_pos h₁] at heq
        by_cases h₂ : data₂.lastError = ""
        · rw [if_neg (not_not.mpr h₂)] at heq
          cases heq
        · rw [if_pos h₂] at heq
          exact Except.error.inj heq
  · intro script host₁ ctx₁' host₂ ctx₂' ho₁ ho₂ hsame herror halike
    have hscanner₁ := scanner_of_open hs₁ ho₁
    have hscanner₂ := scanner_of_open hs₂ ho₂
    obtain ⟨r, x', y', hrun₁, hrun₂⟩ := run_eq_of_alike (alike_of_sameReadings hsame
      (by rw [hscanner₁, hscanner₂, herror]) (by rw [hscanner₁, hscanner₂, hfilter₁, hfilter₂]; exact halike))
    rw [response_runScript ho₁ hrun₁, response_runScript ho₂ hrun₂]

/-! ### A capture of one of two pins -/

/-- The device with two pins, before any request. -/
def twoPinsContext : HardwareContext (List (Device BoundaryDevice)) :=
  ⟨{}, Scanner.twoPinsScanner.chain, ∅, ∅, .testLogicReset⟩

/-- A capture of one sample with a filter. -/
def captureOf (pinFilter : List Text) : Request :=
  .captureStart { devIdx := 0, bufDepth := 1, pinFilter } 0 [⟨false, 0, 0⟩, ⟨false, 0, 0⟩]

/-- The context after it. -/
def afterCapture (pinFilter : List Text) : Option (HardwareContext (List (Device BoundaryDevice))) :=
  ((captureOf pinFilter).task (Target.chain BoundaryDevice.logic) id twoPinsContext).map Prod.snd

/-- What the scans of a sample after it read. -/
def scansAfter (pinFilter : List Text) : Option (Bool × Bool × List Byte) :=
  (afterCapture pinFilter).bind fun ctx =>
    ctx.scanner 0 |>.toOption.bind fun data =>
      (JtagChain.selectInstruction (Target.chain BoundaryDevice.logic) data.deviceIndex 1 ctx.chain).bind fun (selected, c₁) =>
        (JtagChain.onTap (TapController.clkIdle (Target.chain BoundaryDevice.logic) 2) c₁).bind fun (_, c₂) =>
          (JtagChain.readBSR (Target.chain BoundaryDevice.logic) data.deviceIndex []
            (Scanner.maxNeededBsrBits { data with chain := ctx.chain }) c₂).map fun ((ok, raw), _) => (selected, ok, raw)

theorem exists_afterCapture {pinFilter : List Text} {raw : List Byte} {lastError : String}
    (hscans : scansAfter pinFilter = some (true, true, raw))
    (hdata : (afterCapture pinFilter).map (fun ctx => (ctx.scanner 0).map fun data => (data.deviceIndex, data.lastError)) =
      some (.ok (0, lastError)))
    (hraw : ∀ data : ScannerData, data.decodeFilter = pinFilter.dedup → ∀ sc : Scanner (List (Device BoundaryDevice)),
      sc.toScannerData = data → sc.bsdlDevice = some Scanner.twoPins → ∀ i < readLen sc Scanner.twoPins, bitAt raw i = true) :
    ∃ ctx data result sc, afterCapture pinFilter = some ctx ∧
      Ran (Target.chain BoundaryDevice.logic) id [captureOf pinFilter] ctx ∧ ctx.scanner 0 = .ok data ∧
      data.lastError = lastError ∧ Reading (Target.chain BoundaryDevice.logic) Scanner.twoPins (fun _ => true)
        { data with chain := ctx.chain } result sc := by
  cases hafter : afterCapture pinFilter with
  | none => rw [hafter] at hdata; cases hdata
  | some ctx =>
    obtain ⟨⟨response, ctx'⟩, htask, rfl⟩ := Option.map_eq_some_iff.mp hafter
    rw [hafter, Option.map_some, Option.some.injEq] at hdata
    have hdevices : ctx'.chain.devices = Scanner.twoPinsScanner.chain.devices := by
      have hbody := htask
      rw [captureOf, Request.task, captureStart, withScanner] at hbody
      cases hscanner : twoPinsContext.scanner 0 with
      | error what => cases hscanner
      | ok data =>
        simp only [hscanner] at hbody
        obtain ⟨⟨r, sc⟩, hsc, he⟩ := Option.map_eq_some_iff.mp hbody
        obtain ⟨⟨r', t⟩, hrun, he'⟩ := Option.map_eq_some_iff.mp hsc
        obtain ⟨-, rfl⟩ := Prod.mk.inj he
        obtain ⟨-, rfl⟩ := Prod.mk.inj he'
        exact (keeps_filters_run _ _ _ _ (show Filters Scanner.twoPinsScanner.chain.devices _ _ from ⟨rfl, rfl⟩) hrun).1
    have hran : Ran (Target.chain BoundaryDevice.logic) id [captureOf pinFilter] ctx' := .request (.start rfl) _ htask
    cases hs : ctx'.scanner 0 with
    | error what => rw [hs] at hdata; cases hdata
    | ok data =>
      rw [hs] at hdata
      obtain ⟨hindex, herror⟩ := Prod.mk.inj (Except.ok.inj hdata)
      have hmodel : Scanner.bsdlDevice { data with chain := ctx'.chain } = some Scanner.twoPins := by
        rw [Scanner.bsdlDevice, JtagChain.deviceAt, hdevices]
        show (if (0 : ℤ) ≤ data.deviceIndex then _ else none : Option ChainDevice).bind _ = _
        rw [hindex]
        rfl
      rw [scansAfter, hafter] at hscans
      simp only [Option.bind_some, hs, Except.toOption] at hscans
      obtain ⟨⟨selected, c₁⟩, hsel, hscans⟩ := Option.bind_eq_some_iff.mp hscans
      obtain ⟨⟨idled, c₂⟩, hidle, hscans⟩ := Option.bind_eq_some_iff.mp hscans
      obtain ⟨⟨⟨ok, raw'⟩, c₃⟩, hread, hscans⟩ := Option.map_eq_some_iff.mp hscans
      simp only [Prod.mk.injEq] at hscans
      obtain ⟨rfl, rfl, rfl⟩ := hscans
      refine ⟨ctx', data, _, _, rfl, hran, hs, herror, ⟨Scanner.twoPins, 1, idled, raw', c₁, c₂, c₃, hmodel,
        by decide +kernel, hsel, hidle, hread, rfl, rfl⟩, hmodel, fun i hi => ?_⟩
      have hrawBsr : (filterScan data.decodeFilter (decodeBoundaryScan Scanner.twoPins raw')).rawBsr = raw' := by
        unfold filterScan decodeBoundaryScan
        split <;> split <;> rfl
      rw [hrawBsr]
      refine hraw data ((filter_of_ran hran data hs).trans ?_) _ rfl hmodel i hi
      rfl

/-- After a capture of the first pin alone. -/
theorem exists_afterCapture_filtered : ∃ ctx data result sc, afterCapture [['A']] = some ctx ∧
    Ran (Target.chain BoundaryDevice.logic) id [captureOf [['A']]] ctx ∧ ctx.scanner 0 = .ok data ∧
    data.lastError = "" ∧ Reading (Target.chain BoundaryDevice.logic) Scanner.twoPins (fun _ => true)
      { data with chain := ctx.chain } result sc := by
  have hscans : scansAfter [['A']] = some (true, true, [1]) := by decide +kernel
  refine exists_afterCapture hscans (by decide +kernel) fun data hfilter sc hsc hmodel i hi => ?_
  have hlen : readLen sc Scanner.twoPins = 1 := by
    rw [readLen, Scanner.maxNeededBsrBits, hmodel, hsc, hfilter]
    decide +kernel
  obtain rfl : i = 0 := by omega
  decide

/-- After a capture of all pins. -/
theorem exists_afterCapture_unfiltered : ∃ ctx data result sc, afterCapture [] = some ctx ∧
    Ran (Target.chain BoundaryDevice.logic) id [captureOf []] ctx ∧ ctx.scanner 0 = .ok data ∧
    data.lastError = "" ∧ Reading (Target.chain BoundaryDevice.logic) Scanner.twoPins (fun _ => true)
      { data with chain := ctx.chain } result sc := by
  have hscans : scansAfter [] = some (true, true, [3]) := by decide +kernel
  refine exists_afterCapture hscans (by decide +kernel) fun data hfilter sc hsc hmodel i hi => ?_
  have hlen : readLen sc Scanner.twoPins = 2 := by
    rw [readLen, Scanner.maxNeededBsrBits, hmodel, hsc, hfilter]
    decide +kernel
  obtain rfl | rfl : i = 0 ∨ i = 1 := by omega
  · decide
  · decide

/-- The pin that has been captured is read the same after both. -/
theorem captured_pin_isolated : ∃ ctx₁ ctx₂, Ran (Target.chain BoundaryDevice.logic) id [captureOf [['A']]] ctx₁ ∧
    Ran (Target.chain BoundaryDevice.logic) id [captureOf []] ctx₂ ∧
    (Request.readPin 0 ['A']).response (Target.chain BoundaryDevice.logic) id ctx₁ =
      (Request.readPin 0 ['A']).response (Target.chain BoundaryDevice.logic) id ctx₂ := by
  obtain ⟨ctx₁, data₁, result₁, sc₁, -, hran₁, hs₁, he₁, hr₁⟩ := exists_afterCapture_filtered
  obtain ⟨ctx₂, data₂, result₂, sc₂, -, hran₂, hs₂, he₂, hr₂⟩ := exists_afterCapture_unfiltered
  have hiff := ((filter_isolation hran₁ hran₂ hs₁ hs₂).1 _ _ _ _ _ hr₁ hr₂ ['A']).1
  exact ⟨ctx₁, ctx₂, hran₁, hran₂, hiff.mpr ⟨he₁.trans he₂.symm, fun _ _ => by decide +kernel⟩⟩

/-- After two histories that differ only in the filter of a capture, the other pin, which the model has and of which the
boundary register shows the same, is unknown to `read_pin` after the one and high after the other, and a script that expects it
high fails after the one and succeeds after the other. -/
theorem captured_filter_leaks : ∃ ctx₁ ctx₂ data₁ data₂ result₁ sc₁ result₂ sc₂,
    Ran (Target.chain BoundaryDevice.logic) id [captureOf [['A']]] ctx₁ ∧
    Ran (Target.chain BoundaryDevice.logic) id [captureOf []] ctx₂ ∧
    ctx₁.scanner 0 = .ok data₁ ∧ ctx₂.scanner 0 = .ok data₂ ∧ data₁.lastError = "" ∧ data₂.lastError = "" ∧
    Reading (Target.chain BoundaryDevice.logic) Scanner.twoPins (fun _ => true) { data₁ with chain := ctx₁.chain } result₁ sc₁ ∧
    Reading (Target.chain BoundaryDevice.logic) Scanner.twoPins (fun _ => true) { data₂ with chain := ctx₂.chain } result₂ sc₂ ∧
    Observable Scanner.twoPins ['B'] ∧
    (Request.readPin 0 ['B']).response (Target.chain BoundaryDevice.logic) id ctx₁ = some (.ok (.obj
      [("device_index", .int 0), ("pin_name", .str "B"), ("state", .str "unknown")])) ∧
    (Request.readPin 0 ['B']).response (Target.chain BoundaryDevice.logic) id ctx₂ = some (.ok (.obj
      [("device_index", .int 0), ("pin_name", .str "B"), ("state", .str "high")])) ∧
    (Request.runScript 0 "expect b high".toList).response (Target.chain BoundaryDevice.logic) id ctx₁ = some (.ok (.obj
      [("success", .bool false), ("failed_line", .int 1),
        ("output", .str "line 1: ERROR: B expected HIGH but observed UNKNOWN\n"), ("total_expects", .int 0),
        ("failed_expects", .int 0)])) ∧
    (Request.runScript 0 "expect b high".toList).response (Target.chain BoundaryDevice.logic) id ctx₂ = some (.ok (.obj
      [("success", .bool true), ("failed_line", .int 0),
        ("output", .str "line 1: expect B == HIGH OK\nscript completed successfully\n"), ("total_expects", .int 1),
        ("failed_expects", .int 0)])) := by
  obtain ⟨ctx₁, data₁, result₁, sc₁, hafter₁, hran₁, hs₁, he₁, hr₁⟩ := exists_afterCapture_filtered
  obtain ⟨ctx₂, data₂, result₂, sc₂, hafter₂, hran₂, hs₂, he₂, hr₂⟩ := exists_afterCapture_unfiltered
  have hanswers : ∀ {pinFilter : List Text} {ctx} {r : Request} {answer : Response}, afterCapture pinFilter = some ctx →
      (afterCapture pinFilter).bind (r.response (Target.chain BoundaryDevice.logic) id) = some answer →
      r.response (Target.chain BoundaryDevice.logic) id ctx = some answer := by
    intro pinFilter ctx r answer hafter hanswer
    rwa [hafter, Option.bind_some] at hanswer
  refine ⟨ctx₁, ctx₂, data₁, data₂, result₁, sc₁, result₂, sc₂, hran₁, hran₂, hs₁, hs₂, he₁, he₂, hr₁, hr₂, by decide +kernel,
    hanswers hafter₁ ?_, hanswers hafter₂ ?_, hanswers hafter₁ ?_, hanswers hafter₂ ?_⟩
  · decide +kernel
  · decide +kernel
  · decide +kernel
  · decide +kernel

end OwlTap.Mcp
