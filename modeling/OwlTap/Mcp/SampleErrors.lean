import OwlTap.Mcp.PinTools
import OwlTap.BoundaryScan.FilteredScan

/-!
# Errors that stay

A sample that fails sets the scanner's last error, and none that succeeds clears it
(`lastError_of_history`). So those who look at it report a sample whose scans succeed as a success
just when the last of the earlier failures has left an empty text (`sample_reported_iff`).
-/

namespace OwlTap.Mcp

open OwlTap Bsdl Ftdi Jtag BoundaryScan Capture

variable {σ : Type} {T : Target σ}

/-- The IR and DR scans of a sample succeed, with this result. -/
def Scans (T : Target σ) (sc : Scanner σ) (result : ScanResult) (sc' : Scanner σ) : Prop :=
  ∃ dev op idled raw c₁ c₂ c₃, sc.bsdlDevice = some dev ∧ dev.sampleOpcode = some op ∧
    JtagChain.selectInstruction T sc.deviceIndex op sc.chain = some (true, c₁) ∧
    JtagChain.onTap (TapController.clkIdle T 2) c₁ = some (idled, c₂) ∧
    JtagChain.readBSR T sc.deviceIndex [] sc.maxNeededBsrBits c₂ = some ((true, raw), c₃) ∧
    result = filterScan sc.decodeFilter (decodeBoundaryScan dev raw) ∧ sc' = { sc with chain := c₃ }

/-- Such a sample returns the captured values, and leaves the error as it is. -/
theorem Scans.sample {sc sc' : Scanner σ} {result : ScanResult} (h : Scans T sc result sc') :
    Scanner.sample T sc = some (result, sc') ∧ sc'.lastError = sc.lastError := by
  obtain ⟨dev, op, idled, raw, c₁, c₂, c₃, hb, hs, hsel, hidle, hread, rfl, rfl⟩ := h
  have e₁ : Scanner.onChain (JtagChain.selectInstruction T sc.deviceIndex op) sc = some (true, { sc with chain := c₁ }) :=
    Method.on_of_eq _ hsel
  have e₂ : Scanner.onChain (JtagChain.onTap (TapController.clkIdle T 2)) { sc with chain := c₁ } =
      some (idled, { sc with chain := c₂ }) := Method.on_of_eq _ hidle
  have e₃ : Scanner.onChain (JtagChain.readBSR T sc.deviceIndex [] sc.maxNeededBsrBits) { sc with chain := c₂ } =
      some ((true, raw), { sc with chain := c₃ }) := Method.on_of_eq _ hread
  refine ⟨?_, rfl⟩
  unfold Scanner.sample
  simp only [hb, hs]
  rw [Method.bind_of_eq _ e₁, if_pos rfl, Method.bind_of_eq _ e₂, Method.bind_of_eq _ e₃]
  rfl

/-- A history of a cached scanner: samples, of which some fail, and the texts that these leave. Between them the chain and
the hardware may change in any way, and filters may be set. -/
inductive History (T : Target σ) (sc₀ : Scanner σ) : List String → Scanner σ → Prop where
  /-- There have been none. -/
  | nil : History T sc₀ [] sc₀
  /-- A sample that succeeds. -/
  | succeeded {texts : List String} {sc sc' : Scanner σ} {result : ScanResult} (chain : JtagChain σ) (names : List Text)
      (h : History T sc₀ texts sc) (hs : Scans T (Scanner.setDecodeFilter names { sc with chain }) result sc') :
    History T sc₀ texts sc'
  /-- One that fails. -/
  | failed {texts : List String} {sc sc' : Scanner σ} {result : ScanResult} (chain : JtagChain σ) (names : List Text)
      (h : History T sc₀ texts sc) (hno : ∀ result sc', ¬Scans T (Scanner.setDecodeFilter names { sc with chain }) result sc')
      (hs : Scanner.sample T (Scanner.setDecodeFilter names { sc with chain }) = some (result, sc')) :
    History T sc₀ (texts ++ [sc'.lastError]) sc'

/-- The last error is the text of the last failure. -/
theorem lastError_of_history {sc₀ sc : Scanner σ} {texts : List String} (h : History T sc₀ texts sc) :
    sc.lastError = texts.getLast?.getD sc₀.lastError := by
  induction h with
  | nil => rfl
  | succeeded chain names h hs ih => exact hs.sample.2.trans ih
  | failed chain names h hno hs ih => rw [List.getLast?_concat, Option.getD_some]

/-- Whether it is reported as a success with the captured values that a sample succeeds, is decided by the failures before
it: `sample` leaves no error, the tool `read_pin` answers, the script host succeeds, and a capture session that is to take
a sample takes it, just when the last of these failures, if any, has left an empty text. -/
theorem sample_reported_iff {sc₀ sc sc' : Scanner σ} (h₀ : sc₀.lastError = "") {texts : List String}
    (h : History T sc₀ texts sc) (chain : JtagChain σ) (names : List Text) {result : ScanResult}
    (hs : Scans T (Scanner.setDecodeFilter names { sc with chain }) result sc') :
    let s := Scanner.setDecodeFilter names { sc with chain }
    (Scanner.sample T s = some (result, sc') ∧ sc'.lastError = "" ↔ texts.getLast?.getD "" = "") ∧
    (∀ deviceIndex pinName, readPin T deviceIndex pinName s = some (.ok (readPinResult deviceIndex pinName result), sc') ↔
      texts.getLast?.getD "" = "") ∧
    (McpScriptHost.sample T s = some ((true, result, ""), sc') ↔ texts.getLast?.getD "" = "") ∧
    (∀ preSamples now stamp cs, cs.state ≠ .stopped → cs.state ≠ .complete → cs.nextSampleTime ≤ now →
      (CaptureSession.tick T preSamples now stamp (cs, s) =
        some (true, { cs with nextSampleTime := now + cs.sampleIntervalUs }.takeSample preSamples stamp result, sc') ↔
          texts.getLast?.getD "" = "")) := by
  intro s
  obtain ⟨hsample, hkept⟩ := hs.sample
  have herror : sc'.lastError = texts.getLast?.getD "" := by
    rw [hkept, ← h₀, ← lastError_of_history h]
    rfl
  rw [← herror]
  refine ⟨and_iff_right hsample, fun deviceIndex pinName => ?_, ?_, fun preSamples now stamp cs hstop hcomplete hdue => ?_⟩
  · rw [readPin, Method.bind_of_eq _ hsample, Option.some.injEq, Prod.mk.injEq, and_iff_left rfl]
    by_cases he : sc'.lastError = ""
    · rw [if_neg (not_not.mpr he)]
      exact iff_of_true rfl he
    · rw [if_pos he]
      exact iff_of_false nofun he
  · rw [McpScriptHost.sample, Method.bind_of_eq _ hsample, Option.some.injEq, Prod.mk.injEq, and_iff_left rfl,
      Prod.mk.injEq, Prod.mk.injEq, decide_eq_true_iff]
    exact ⟨fun h => h.1, fun h => ⟨h, rfl, h⟩⟩
  · have hrun : ¬(cs.state = .stopped ∨ cs.state = .complete) := not_or.mpr ⟨hstop, hcomplete⟩
    rw [CaptureSession.tick]
    simp only [hrun, if_false, if_neg (not_lt.mpr hdue)]
    rw [hsample, Option.map_some, Option.some.injEq]
    by_cases he : sc'.lastError = ""
    · rw [if_neg (not_not.mpr he)]
      exact iff_of_true rfl he
    · rw [if_pos he]
      exact iff_of_false (fun e => by cases (Prod.mk.inj e).1) he

/-! ### Two samples -/

open Scanner in
/-- On a chain at rest the scans succeed. -/
theorem exists_scans {δ : Type} (L : TestLogic δ) {sc : Scanner (List (Device δ))} {dev : BSDLDevice} {op : BitVec 32}
    (hb : sc.bsdlDevice = some dev) (hs : dev.sampleOpcode = some op) (hr : sc.chain.tap.AtRest)
    (hw : sc.chain.KnowsWidths L)
    (hline : InLine sc.deviceIndex.toNat dev.boundaryLength ((List.zipWith (L.update .ir) sc.chain.tap.cores
      (placed sc.deviceIndex.toNat op sc.chain.devices)).map (L.capture .dr)))
    (hpos : 1 ≤ dev.boundaryLength + sc.chain.bypassBits) : ∃ result sc', Scans (Target.chain L) sc result sc' := by
  obtain ⟨k, hi, hk, hbk⟩ := bsdlDevice_eq_some hb
  rw [hi, Int.toNat_natCast] at hline
  obtain ⟨c₁, tap, hsel, hidle, hr₂, hn, hline⟩ := exists_selected L hr hw hk op hline
  have hlen : 1 ≤ (if 0 < sc.maxNeededBsrBits ∧ sc.maxNeededBsrBits < dev.boundaryLength then sc.maxNeededBsrBits
      else dev.boundaryLength) + sc.chain.bypassBits := by
    split
    case isTrue hp => omega
    case isFalse => exact hpos
  obtain ⟨raw, tap₃, e₃, -⟩ := JtagChain.readBSR_cells L (c := { sc.chain with tap }) hr₂.synced hr₂.delivers hn hk hbk
    hline sc.maxNeededBsrBits rfl hlen
  refine ⟨_, _, dev, op, true, raw, c₁, { sc.chain with tap }, { sc.chain with tap := tap₃ }, hb, hs, hi ▸ hsel, hidle, ?_,
    rfl, rfl⟩
  rw [hi]
  exact e₃

/-- The device with two pins, seen by a scanner with this last error. -/
def twoPinsAfter (lastError : String) : Scanner (List (Device BoundaryDevice)) :=
  { Scanner.twoPinsScanner with lastError }

/-- Its scans succeed. -/
theorem exists_scans_twoPins (lastError : String) :
    ∃ result sc', Scans (Target.chain BoundaryDevice.logic) (twoPinsAfter lastError) result sc' := by
  have hb : (twoPinsAfter lastError).bsdlDevice = some Scanner.twoPins := rfl
  have hs : Scanner.twoPins.sampleOpcode = some 1 := by decide +kernel
  refine exists_scans BoundaryDevice.logic hb hs ⟨JtagChain.idle_synced _ _, rfl, JtagChain.idle_delivers _ _⟩ ?_ ?_
    (by show 1 ≤ 2 + _; omega)
  · exact ⟨rfl, by simp [twoPinsAfter, Scanner.twoPinsScanner, JtagChain.idle]⟩
  · show InLine 0 2 ((List.zipWith (BoundaryDevice.logic.update .ir) Scanner.twoPinsScanner.chain.tap.cores
      (placed 0 1 Scanner.twoPinsScanner.chain.devices)).map (BoundaryDevice.logic.capture .dr))
    unfold InLine
    decide +kernel

/-- The first sample of a scanner is reported as the success it is. -/
theorem first_sample_reported : ∃ result sc', Scans (Target.chain BoundaryDevice.logic) (twoPinsAfter "") result sc' ∧
    readPin (Target.chain BoundaryDevice.logic) 0 ['A'] (twoPinsAfter "") =
      some (.ok (readPinResult 0 ['A'] result), sc') := by
  obtain ⟨result, sc', hs⟩ := exists_scans_twoPins ""
  have h₀ : (twoPinsAfter "").lastError = "" := rfl
  have hiff := sample_reported_iff h₀ .nil (twoPinsAfter "").chain [] hs
  exact ⟨result, sc', hs, (hiff.2.1 0 ['A']).mpr rfl⟩

/-- The chain before a model of its device has been loaded. -/
def withoutModel : JtagChain (List (Device BoundaryDevice)) :=
  { Scanner.twoPinsScanner.chain with devices := [⟨0, 0, 2, [], none⟩] }

/-- A pin that is read too early, before the model of its device is loaded, cannot be read afterwards, though the scans
succeed. -/
theorem early_sample_stays : ∃ texts sc result sc' sc'', (twoPinsAfter "").lastError = "" ∧
    History (Target.chain BoundaryDevice.logic) (twoPinsAfter "") texts sc ∧
    Scans (Target.chain BoundaryDevice.logic) { sc with chain := (twoPinsAfter "").chain } result sc' ∧
    readPin (Target.chain BoundaryDevice.logic) 0 ['A'] { sc with chain := (twoPinsAfter "").chain } =
      some (.error "BSDL not loaded", sc'') := by
  obtain ⟨result, sc', hs⟩ := exists_scans_twoPins "BSDL not loaded"
  have hfail : Scanner.sample (Target.chain BoundaryDevice.logic)
      (Scanner.setDecodeFilter [] { twoPinsAfter "" with chain := withoutModel }) =
        some ({}, { twoPinsAfter "BSDL not loaded" with chain := withoutModel }) := rfl
  have hno : ∀ result sc', ¬Scans (Target.chain BoundaryDevice.logic)
      (Scanner.setDecodeFilter [] { twoPinsAfter "" with chain := withoutModel }) result sc' := by
    rintro result sc' ⟨dev, -, -, -, -, -, -, hb, -⟩
    cases hb
  obtain ⟨hsample, herror⟩ := hs.sample
  refine ⟨_, _, result, sc', sc', rfl, .failed withoutModel [] .nil hno hfail, hs, ?_⟩
  have hs' : Scanner.sample (Target.chain BoundaryDevice.logic)
      { twoPinsAfter "BSDL not loaded" with chain := (twoPinsAfter "").chain } = some (result, sc') := hsample
  rw [readPin, Method.bind_of_eq _ hs', herror]
  rfl

end OwlTap.Mcp
