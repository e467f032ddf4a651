import Mathlib.Data.List.Dedup
import OwlTap.BoundaryScan.Staging
import OwlTap.Jtag.JtagChain

/-!
# The boundary scanner

`Scanner` samples a device's boundary register with SAMPLE and names the bits after the
pins. With a filter installed it names the pins of the filter only, and reads only as many
bits as their highest cell needs.
-/

namespace OwlTap.BoundaryScan

open OwlTap Ftdi Bsdl Jtag

/-- Observed state of a single pin. -/
inductive PinState where
  | low | high | unknown
  deriving DecidableEq, Repr

/-- The pin states of a scan, by name. -/
abbrev PinStates := AList fun _ : Text => PinState

/-- Result of a boundary scan sample operation. -/
structure ScanResult where
  /-- Raw BSR bit vector. -/
  rawBsr : List Byte := []
  /-- Pin states decoded from it. -/
  pinStates : PinStates := ∅

namespace ScanResult

/-- Get state of a specific pin. -/
def getPin (r : ScanResult) (name : Text) : PinState := (r.pinStates.lookup name).getD .unknown

/-- Get a bit from the raw BSR. -/
def getBit (r : ScanResult) (position : ℤ) : Bool := BoundaryScan.getBit r.rawBsr position

end ScanResult

/-- `bit_val ? PinState::HIGH : PinState::LOW`. -/
def pinStateOf (bitVal : Bool) : PinState := if bitVal then .high else .low

/-- First pass: the cells that capture the actual pad state. -/
def decodeInput (rawBsr : List Byte) (states : PinStates) (cell : BoundaryCell) : PinStates :=
  if cell.hasPin ∧ cell.isInput then states.insert cell.pinName (pinStateOf (getBit rawBsr cell.position))
  else states

/-- Second pass: the output cells of pins that have no input cell. -/
def decodeOutput (rawBsr : List Byte) (states : PinStates) (cell : BoundaryCell) : PinStates :=
  if cell.hasPin ∧ cell.isOutput ∧ states.lookup cell.pinName = none then
    states.insert cell.pinName (pinStateOf (getBit rawBsr cell.position))
  else states

/-- Decode named pin states from a raw BSR snapshot using BSDL metadata. -/
def decodeBoundaryScan (device : BSDLDevice) (rawBsr : List Byte) : ScanResult :=
  if rawBsr = [] then ⟨rawBsr, ∅⟩
  else ⟨rawBsr, device.boundaryCells.foldl (decodeOutput rawBsr)
    (device.boundaryCells.foldl (decodeInput rawBsr) ∅)⟩

/-- The states of the requested pins. -/
def filterStates (decodeFilter : List Text) (states : PinStates) : PinStates :=
  decodeFilter.foldl (fun filtered name =>
    match states.lookup name with
    | none => filtered
    | some state => filtered.insert name state) ∅

/-- Filter pin_states to only requested pins. -/
def filterScan (decodeFilter : List Text) (scan : ScanResult) : ScanResult :=
  if decodeFilter = [] then scan else { scan with pinStates := filterStates decodeFilter scan.pinStates }

/-- What a scanner owns. -/
structure ScannerData where
  /-- Target device index in chain. -/
  deviceIndex : ℤ
  /-- The names to decode, none twice; empty to decode all pins. -/
  decodeFilter : List Text := []
  /-- The last error message. -/
  lastError : String := ""

/-- A scanner, with the chain that it refers to. -/
structure Scanner (σ : Type) extends ScannerData where
  /-- JTAG chain manager. -/
  chain : JtagChain σ

namespace Scanner

variable {σ : Type} (T : Target σ)

/-- Get the BSDL device data. -/
def bsdlDevice (sc : Scanner σ) : Option BSDLDevice := (sc.chain.deviceAt sc.deviceIndex).bind ChainDevice.bsdl

/-- Check if scanner is properly configured. -/
def isReady (sc : Scanner σ) : Bool := sc.bsdlDevice.isSome

/-- A call on the chain. -/
def onChain {α : Type} (m : Method (JtagChain σ) α) : Method (Scanner σ) α :=
  Method.on Scanner.chain (fun sc chain => { sc with chain }) m

/-- `last_error_ = msg; return result;` with no result yet. -/
def fail (msg : Scanner σ → String) : Method (Scanner σ) ScanResult := fun sc =>
  some ({}, { sc with lastError := msg sc })

/-- Only these names will be stored in the pin states. -/
def setDecodeFilter (names : List Text) (sc : Scanner σ) : Scanner σ := { sc with decodeFilter := names.dedup }

/-- The body of the loop of `maxPosition`. -/
def raise (decodeFilter : List Text) (maxPos : ℤ) (cell : BoundaryCell) : ℤ :=
  if cell.hasPin ∧ cell.pinName ∈ decodeFilter ∧ maxPos < cell.position then cell.position else maxPos

/-- The highest position of the cells of the filtered pins, -1 if there is none. -/
def maxPosition (decodeFilter : List Text) (cells : List BoundaryCell) : ℤ := cells.foldl (raise decodeFilter) (-1)

/-- The number of BSR bits that must be shifted out to cover all cells of the filtered pins; 0 to read
the full BSR. -/
def maxNeededBsrBits (sc : Scanner σ) : ℕ :=
  if sc.decodeFilter = [] then 0
  else
    match sc.bsdlDevice with
    | none => 0
    | some dev =>
      let maxPos := maxPosition sc.decodeFilter dev.boundaryCells
      if 0 ≤ maxPos then (maxPos + 1).toNat else 0

/-- Perform a single SAMPLE operation. -/
def sample : Method (Scanner σ) ScanResult := fun sc =>
  match sc.bsdlDevice with
  | none => fail (fun _ => "BSDL not loaded") sc
  | some dev =>
    match dev.sampleOpcode with
    | none => fail (fun _ => "SAMPLE instruction not found in BSDL") sc
    | some sampleOpcode =>
      (do
        if ← onChain (JtagChain.selectInstruction T sc.deviceIndex sampleOpcode) then
          -- the result of these cycles is not looked at
          let _ ← onChain (JtagChain.onTap (TapController.clkIdle T 2))
          let (ok, rawBsr) ← onChain (JtagChain.readBSR T sc.deviceIndex [] sc.maxNeededBsrBits)
          if ok then pure (filterScan sc.decodeFilter (decodeBoundaryScan dev rawBsr))
          else fail (fun sc => sc.chain.lastError)
        else fail (fun sc => sc.chain.lastError) : Method (Scanner σ) ScanResult) sc

/-- Add the pins of the selected cells, those that are not there yet. -/
def addPins (select : BoundaryCell → Bool) (pins : List Text) (cell : BoundaryCell) : List Text :=
  if cell.hasPin ∧ select cell ∧ cell.pinName ∉ pins then pins ++ [cell.pinName] else pins

/-- The pins that a model lets observe: those with an input cell first, then those that have an output cell only. -/
def observablePins (dev : BSDLDevice) : List Text :=
  dev.boundaryCells.foldl (addPins BoundaryCell.isOutput) (dev.boundaryCells.foldl (addPins BoundaryCell.isInput) [])

/-- Pins that can be observed. -/
def getObservablePins (sc : Scanner σ) : List Text := sc.bsdlDevice.elim [] observablePins

/-- Pins that can be driven. -/
def getDrivablePins (sc : Scanner σ) : List Text :=
  match sc.bsdlDevice with
  | none => []
  | some dev => dev.boundaryCells.foldl (addPins BoundaryCell.isOutput) []

/-- The pins that have been added, and the earlier ones. -/
theorem mem_foldl_addPins {select : BoundaryCell → Bool} {cells : List BoundaryCell} {pins : List Text} {name : Text} :
    name ∈ cells.foldl (addPins select) pins ↔
      name ∈ pins ∨ ∃ cell ∈ cells, cell.hasPin = true ∧ select cell = true ∧ cell.pinName = name := by
  induction cells generalizing pins with
  | nil => simp
  | cons cell cells ih =>
    have hadd : name ∈ addPins select pins cell ↔
        name ∈ pins ∨ cell.hasPin = true ∧ select cell = true ∧ cell.pinName = name := by
      unfold addPins
      split
      case isTrue h =>
        rw [List.mem_append, List.mem_singleton]
        exact or_congr_right ⟨fun e => ⟨h.1, h.2.1, e.symm⟩, fun e => e.2.2.symm⟩
      case isFalse h =>
        refine ⟨.inl, ?_⟩
        rintro (hp | ⟨hpin, hsel, rfl⟩)
        · exact hp
        · exact of_not_not fun hp => h ⟨hpin, hsel, hp⟩
    rw [List.foldl_cons, ih, hadd, List.exists_mem_cons_iff, or_assoc]

/-- A pin can be observed when it has an input cell or an output cell. -/
theorem mem_observablePins {dev : BSDLDevice} {name : Text} :
    name ∈ observablePins dev ↔
      (∃ cell ∈ dev.boundaryCells, cell.hasPin = true ∧ cell.isInput = true ∧ cell.pinName = name) ∨
        ∃ cell ∈ dev.boundaryCells, cell.hasPin = true ∧ cell.isOutput = true ∧ cell.pinName = name := by
  rw [observablePins, mem_foldl_addPins, mem_foldl_addPins]
  simp only [List.not_mem_nil, false_or]

end Scanner

/-! ### Decoding -/

/-- The bits that the cells of a pin look at. -/
def AgreeOn (cells : List BoundaryCell) (name : Text) (raw raw' : List Byte) : Prop :=
  ∀ cell ∈ cells, cell.hasPin = true → cell.pinName = name → getBit raw cell.position = getBit raw' cell.position

theorem lookup_decodeInput {cells : List BoundaryCell} {name : Text} {raw raw' : List Byte}
    (h : AgreeOn cells name raw raw') {states states' : PinStates} (hs : states.lookup name = states'.lookup name) :
    (cells.foldl (decodeInput raw) states).lookup name = (cells.foldl (decodeInput raw') states').lookup name := by
  induction cells generalizing states states' with
  | nil => exact hs
  | cons cell cells ih =>
    refine ih (fun c hc => h c (List.mem_cons_of_mem _ hc)) ?_
    unfold decodeInput
    by_cases hcell : cell.hasPin = true ∧ cell.isInput = true
    · rw [if_pos hcell, if_pos hcell]
      by_cases hname : name = cell.pinName
      · subst hname
        rw [AList.lookup_insert, AList.lookup_insert, h cell List.mem_cons_self hcell.1 rfl]
      · rw [AList.lookup_insert_ne hname, AList.lookup_insert_ne hname, hs]
    · rw [if_neg hcell, if_neg hcell, hs]

theorem lookup_decodeOutput {cells : List BoundaryCell} {name : Text} {raw raw' : List Byte}
    (h : AgreeOn cells name raw raw') {states states' : PinStates} (hs : states.lookup name = states'.lookup name) :
    (cells.foldl (decodeOutput raw) states).lookup name = (cells.foldl (decodeOutput raw') states').lookup name := by
  induction cells generalizing states states' with
  | nil => exact hs
  | cons cell cells ih =>
    refine ih (fun c hc => h c (List.mem_cons_of_mem _ hc)) ?_
    unfold decodeOutput
    by_cases hname : name = cell.pinName
    · subst hname
      rw [← hs]
      by_cases hcell : cell.hasPin = true ∧ cell.isOutput = true ∧ states.lookup cell.pinName = none
      · rw [if_pos hcell, if_pos hcell, AList.lookup_insert, AList.lookup_insert,
          h cell List.mem_cons_self hcell.1 rfl]
      · rw [if_neg hcell, if_neg hcell, hs]
    · have hkeep : ∀ (b : Bool) (s : PinStates) (p : Prop) [Decidable p],
          (if p then s.insert cell.pinName (pinStateOf b) else s).lookup name = s.lookup name := by
        intro b s p _
        split
        · exact AList.lookup_insert_ne hname
        · rfl
      rw [hkeep, hkeep, hs]

/-- The state of a pin depends on the bits of its cells only. -/
theorem lookup_decodeBoundaryScan {device : BSDLDevice} {name : Text} {raw raw' : List Byte} (hne : raw ≠ [])
    (hne' : raw' ≠ []) (h : AgreeOn device.boundaryCells name raw raw') :
    (decodeBoundaryScan device raw).pinStates.lookup name = (decodeBoundaryScan device raw').pinStates.lookup name := by
  rw [decodeBoundaryScan, if_neg hne, decodeBoundaryScan, if_neg hne']
  exact lookup_decodeOutput h (lookup_decodeInput h rfl)

theorem pinStateOf_ne_unknown (bitVal : Bool) : pinStateOf bitVal ≠ .unknown := by
  cases bitVal
  · exact nofun
  · exact nofun

/-- The input cells give their pins a state. -/
theorem lookup_foldl_decodeInput (raw : List Byte) (cells : List BoundaryCell) (states : PinStates) (name : Text) :
    (cells.foldl (decodeInput raw) states).lookup name ≠ none ↔ states.lookup name ≠ none ∨
      ∃ cell ∈ cells, cell.hasPin = true ∧ cell.isInput = true ∧ cell.pinName = name := by
  induction cells generalizing states with
  | nil => simp
  | cons cell cells ih =>
    rw [List.foldl_cons, ih, List.exists_mem_cons_iff, ← or_assoc]
    refine or_congr_left ?_
    unfold decodeInput
    by_cases hcell : cell.hasPin = true ∧ cell.isInput = true
    · rw [if_pos hcell]
      by_cases hname : name = cell.pinName
      · subst hname
        rw [AList.lookup_insert]
        exact iff_of_true (Option.some_ne_none _) (.inr ⟨hcell.1, hcell.2, rfl⟩)
      · rw [AList.lookup_insert_ne hname]
        exact (or_iff_left fun h => hname h.2.2.symm).symm
    · rw [if_neg hcell]
      exact (or_iff_left fun h => hcell ⟨h.1, h.2.1⟩).symm

/-- So do the output cells. -/
theorem lookup_foldl_decodeOutput (raw : List Byte) (cells : List BoundaryCell) (states : PinStates) (name : Text) :
    (cells.foldl (decodeOutput raw) states).lookup name ≠ none ↔ states.lookup name ≠ none ∨
      ∃ cell ∈ cells, cell.hasPin = true ∧ cell.isOutput = true ∧ cell.pinName = name := by
  induction cells generalizing states with
  | nil => simp
  | cons cell cells ih =>
    rw [List.foldl_cons, ih, List.exists_mem_cons_iff, ← or_assoc]
    refine or_congr_left ?_
    unfold decodeOutput
    by_cases hcell : cell.hasPin = true ∧ cell.isOutput = true ∧ states.lookup cell.pinName = none
    · rw [if_pos hcell]
      by_cases hname : name = cell.pinName
      · subst hname
        rw [AList.lookup_insert]
        exact iff_of_true (Option.some_ne_none _) (.inr ⟨hcell.1, hcell.2.1, rfl⟩)
      · rw [AList.lookup_insert_ne hname]
        exact (or_iff_left fun h => hname h.2.2.symm).symm
    · rw [if_neg hcell]
      refine (or_iff_left_of_imp fun h => ?_).symm
      obtain ⟨hpin, hout, rfl⟩ := h
      exact fun hnone => hcell ⟨hpin, hout, hnone⟩

/-- A scan gives a state to the pins that can be observed, and to no others. -/
theorem lookup_decodeBoundaryScan_ne_none {device : BSDLDevice} {raw : List Byte} (hne : raw ≠ []) {name : Text} :
    (decodeBoundaryScan device raw).pinStates.lookup name ≠ none ↔ name ∈ Scanner.observablePins device := by
  rw [decodeBoundaryScan, if_neg hne, lookup_foldl_decodeOutput, lookup_foldl_decodeInput, Scanner.mem_observablePins,
    AList.lookup_empty]
  simp only [ne_eq, not_true_eq_false, false_or]

/-- It gives them a level. -/
theorem lookup_decodeBoundaryScan_ne_unknown (device : BSDLDevice) (raw : List Byte) (name : Text) :
    (decodeBoundaryScan device raw).pinStates.lookup name ≠ some .unknown := by
  have hfold : ∀ (step : PinStates → BoundaryCell → PinStates), (∀ states cell, step states cell = states ∨
      ∃ b, step states cell = states.insert cell.pinName (pinStateOf b)) → ∀ (cells : List BoundaryCell) (states : PinStates),
      states.lookup name ≠ some .unknown → (cells.foldl step states).lookup name ≠ some .unknown := by
    intro step hstep cells
    induction cells with
    | nil => exact fun _ h => h
    | cons cell cells ih =>
      intro states h
      refine ih _ ?_
      obtain hs | ⟨b, hs⟩ := hstep states cell
      · rwa [hs]
      · rw [hs]
        by_cases hname : name = cell.pinName
        · subst hname
          rw [AList.lookup_insert]
          exact fun h => pinStateOf_ne_unknown b (Option.some.inj h)
        · rwa [AList.lookup_insert_ne hname]
  unfold decodeBoundaryScan
  split
  · rw [AList.lookup_empty]
    exact nofun
  · refine hfold _ (fun states cell => ?_) _ _ (hfold _ (fun states cell => ?_) _ _ ?_)
    · unfold decodeOutput
      split
      · exact .inr ⟨_, rfl⟩
      · exact .inl rfl
    · unfold decodeInput
      split
      · exact .inr ⟨_, rfl⟩
      · exact .inl rfl
    · rw [AList.lookup_empty]
      exact nofun

/-- Filtering keeps the states of the requested pins. -/
theorem lookup_filterStates (decodeFilter : List Text) (states : PinStates) (name : Text) :
    (filterStates decodeFilter states).lookup name = if name ∈ decodeFilter then states.lookup name else none := by
  have hfold : ∀ (names : List Text) (acc : PinStates),
      (names.foldl (fun filtered n =>
        match states.lookup n with
        | none => filtered
        | some state => filtered.insert n state) acc).lookup name =
        if name ∈ names ∧ states.lookup name ≠ none then states.lookup name else acc.lookup name := by
    intro names
    induction names with
    | nil => intro acc; simp
    | cons n names ih =>
      intro acc
      rw [List.foldl_cons, ih]
      by_cases hn : name = n
      · subst hn
        cases hl : states.lookup name <;> simp
      · cases hl : states.lookup n with
        | none => simp [hn]
        | some state => simp [hn, AList.lookup_insert_ne]
  rw [filterStates, hfold]
  by_cases hmem : name ∈ decodeFilter
  · cases hl : states.lookup name <;> simp [hmem]
  · simp [hmem]

/-- The pin states that a filter leaves; an empty one leaves all. -/
theorem lookup_filterScan (decodeFilter : List Text) (scan : ScanResult) (name : Text) :
    (filterScan decodeFilter scan).pinStates.lookup name =
      if decodeFilter = [] ∨ name ∈ decodeFilter then scan.pinStates.lookup name else none := by
  unfold filterScan
  by_cases hn : decodeFilter = []
  · rw [if_pos hn, if_pos (.inl hn)]
  · rw [if_neg hn]
    simp only [lookup_filterStates, hn, false_or]

theorem le_raise (decodeFilter : List Text) (maxPos : ℤ) (cell : BoundaryCell) :
    maxPos ≤ Scanner.raise decodeFilter maxPos cell := by
  unfold Scanner.raise
  split
  · rename_i h
    exact h.2.2.le
  · exact le_refl _

theorem le_foldl_raise (decodeFilter : List Text) (cells : List BoundaryCell) (maxPos : ℤ) :
    maxPos ≤ cells.foldl (Scanner.raise decodeFilter) maxPos := by
  induction cells generalizing maxPos with
  | nil => exact le_refl _
  | cons cell cells ih => exact (le_raise decodeFilter maxPos cell).trans (ih _)

/-- Every cell of a filtered pin is at `maxPosition` or below. -/
theorem le_maxPosition {decodeFilter : List Text} {cells : List BoundaryCell} {cell : BoundaryCell} (hc : cell ∈ cells)
    (hpin : cell.hasPin = true) (hname : cell.pinName ∈ decodeFilter) :
    cell.position ≤ Scanner.maxPosition decodeFilter cells := by
  unfold Scanner.maxPosition
  generalize (-1 : ℤ) = maxPos
  induction cells generalizing maxPos with
  | nil => cases hc
  | cons c cells ih =>
    rcases List.mem_cons.mp hc with rfl | hc
    · refine le_trans ?_ (le_foldl_raise decodeFilter cells _)
      unfold Scanner.raise
      split
      · exact le_refl _
      · rename_i h
        exact not_lt.mp fun hlt => h ⟨hpin, hname, hlt⟩
    · exact ih hc _

end OwlTap.BoundaryScan
