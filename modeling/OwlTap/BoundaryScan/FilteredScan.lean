import OwlTap.BoundaryScan.Scanner
import OwlTap.Jtag.RestingChain

/-!
# The filtered scan agrees with the full one

With a filter installed, `sample` reads a part of the boundary register. The part has the
cells of the filtered pins, so their states are what they are in a sample of the whole.
-/

namespace OwlTap.BoundaryScan

open OwlTap Ftdi Bsdl Jtag

/-- A cell with a pin is stored at its own index. -/
def CellsInPlace (dev : BSDLDevice) : Prop :=
  ∀ (i : ℕ) (cell : BoundaryCell), dev.boundaryCells[i]? = some cell → cell.hasPin = true → cell.position = i

theorem CellsInPlace.nonneg {dev : BSDLDevice} (h : CellsInPlace dev) {cell : BoundaryCell}
    (hc : cell ∈ dev.boundaryCells) (hpin : cell.hasPin = true) : 0 ≤ cell.position := by
  obtain ⟨i, hi, hget⟩ := List.getElem_of_mem hc
  rw [h i cell (by rw [List.getElem?_eq_getElem hi, hget]) hpin]
  exact Int.natCast_nonneg i

namespace Scanner

variable {δ : Type} (L : TestLogic δ)

/-- `sample`, when it is known what the chain does. -/
theorem sample_eq {σ : Type} {T : Target σ} (sc : Scanner σ) {dev : BSDLDevice} {op : BitVec 32}
    {c₁ c₂ c₃ : JtagChain σ} {idled ok : Bool} {raw : List Byte} (hb : sc.bsdlDevice = some dev)
    (hs : dev.sampleOpcode = some op)
    (hsel : JtagChain.selectInstruction T sc.deviceIndex op sc.chain = some (true, c₁))
    (hidle : JtagChain.onTap (TapController.clkIdle T 2) c₁ = some (idled, c₂))
    (hread : JtagChain.readBSR T sc.deviceIndex [] sc.maxNeededBsrBits c₂ = some ((ok, raw), c₃)) :
    ∃ sc', sample T sc =
      some (if ok then filterScan sc.decodeFilter (decodeBoundaryScan dev raw) else {}, sc') := by
  have e₁ : onChain (JtagChain.selectInstruction T sc.deviceIndex op) sc = some (true, { sc with chain := c₁ }) :=
    Method.on_of_eq _ hsel
  have e₂ : onChain (JtagChain.onTap (TapController.clkIdle T 2)) { sc with chain := c₁ } =
      some (idled, { sc with chain := c₂ }) := Method.on_of_eq _ hidle
  have e₃ : onChain (JtagChain.readBSR T sc.deviceIndex [] sc.maxNeededBsrBits) { sc with chain := c₂ } =
      some ((ok, raw), { sc with chain := c₃ }) := Method.on_of_eq _ hread
  unfold sample
  simp only [hb, hs]
  rw [Method.bind_of_eq _ e₁, if_pos rfl, Method.bind_of_eq _ e₂, Method.bind_of_eq _ e₃]
  cases ok
  · exact ⟨_, rfl⟩
  · exact ⟨_, rfl⟩

/-- The bits of a cell that a reading covers. -/
theorem getBit_of_cells {raw : List Byte} {captured : List Bool} {readLen : ℕ} {position : ℤ}
    (hcells : ∀ i < readLen, bitAt raw i = captured.getD i false) (h0 : 0 ≤ position) (hlt : position < readLen) :
    getBit raw position = captured.getD position.toNat false := by
  rw [getBit, if_neg (by omega), hcells _ (by omega)]

theorem ne_nil_of_length {raw : List Byte} {n : ℕ} (h : raw.length = bytesFor n) (hn : 1 ≤ n) : raw ≠ [] := by
  intro hnil
  rw [hnil, bytesFor, List.length_nil] at h
  omega

theorem setDecodeFilter_eq_nil {σ : Type} {names : List Text} {sc : Scanner σ} :
    (sc.setDecodeFilter names).decodeFilter = [] ↔ names = [] := List.dedup_eq_nil names

theorem mem_setDecodeFilter {σ : Type} {names : List Text} {sc : Scanner σ} {name : Text} :
    name ∈ (sc.setDecodeFilter names).decodeFilter ↔ name ∈ names := List.mem_dedup

/-- The pin states that a filter leaves. -/
theorem lookup_filterScan {σ : Type} (names : List Text) (sc : Scanner σ) (scan : ScanResult) (name : Text) :
    (filterScan (sc.setDecodeFilter names).decodeFilter scan).pinStates.lookup name =
      if names = [] ∨ name ∈ names then scan.pinStates.lookup name else none := by
  rw [BoundaryScan.lookup_filterScan]
  simp only [setDecodeFilter_eq_nil, mem_setDecodeFilter]

/-- The cells of a filtered pin are among the bits that are read. -/
theorem position_lt_maxNeeded {σ : Type} (sc : Scanner σ) {dev : BSDLDevice} (hb : sc.bsdlDevice = some dev)
    {cell : BoundaryCell} (hc : cell ∈ dev.boundaryCells) (hpin : cell.hasPin = true) (h0 : 0 ≤ cell.position)
    (hname : cell.pinName ∈ sc.decodeFilter) : cell.position < sc.maxNeededBsrBits := by
  have hle := le_maxPosition hc hpin hname
  have hne : sc.decodeFilter ≠ [] := List.ne_nil_of_mem hname
  unfold maxNeededBsrBits
  rw [if_neg hne, hb]
  simp only
  rw [if_pos (by omega)]
  omega

theorem bsdlDevice_eq_some {σ : Type} {sc : Scanner σ} {dev : BSDLDevice} (hb : sc.bsdlDevice = some dev) :
    ∃ k : ℕ, sc.deviceIndex = k ∧ ∃ hk : k < sc.chain.devices.length, (sc.chain.devices[k]).bsdl = some dev := by
  obtain ⟨cd, hat, hcd⟩ := Option.bind_eq_some_iff.mp hb
  rw [JtagChain.deviceAt] at hat
  split at hat
  · rename_i h0
    obtain ⟨hk, hget⟩ := List.getElem?_eq_some_iff.mp hat
    exact ⟨sc.deviceIndex.toNat, (Int.toNat_of_nonneg h0).symm, hk, by rw [hget, hcd]⟩
  · cases hat

/-- Nothing is sampled without a model that has a SAMPLE opcode. -/
theorem sample_none {σ : Type} (T : Target σ) (sc : Scanner σ)
    (h : ∀ dev, sc.bsdlDevice = some dev → dev.sampleOpcode = none) : ∃ sc', sample T sc = some ({}, sc') := by
  unfold sample
  cases hb : sc.bsdlDevice with
  | none => exact ⟨_, rfl⟩
  | some dev =>
    simp only [h dev hb]
    exact ⟨_, rfl⟩

/-- The chain after SAMPLE has been selected and settled. -/
theorem exists_selected {sc : Scanner (List (Device δ))} (hr : sc.chain.tap.AtRest) (hw : sc.chain.KnowsWidths L)
    {k : ℕ} (hk : k < sc.chain.devices.length) (op : BitVec 32) {len : ℕ}
    (hline : InLine k len ((List.zipWith (L.update .ir) sc.chain.tap.cores (placed k op sc.chain.devices)).map
      (L.capture .dr))) :
    ∃ c₁ tap, JtagChain.selectInstruction (Target.chain L) k op sc.chain = some (true, c₁) ∧
      JtagChain.onTap (TapController.clkIdle (Target.chain L) 2) c₁ = some (true, { sc.chain with tap }) ∧
      tap.AtRest ∧ sc.chain.devices.length = (JtagChain.captured L { sc.chain with tap }).length ∧
      InLine k len (JtagChain.captured L { sc.chain with tap }) := by
  obtain ⟨tap₁, e₁, hr₁, hcores₁⟩ := JtagChain.selectInstruction_rest L hr hw hk op
  obtain ⟨tap₂, e₂, hr₂, hcores₂, -⟩ := hr₁.clkIdle L 2
  have hcap : JtagChain.captured L { sc.chain with tap := tap₂ } = (List.zipWith (L.update .ir) sc.chain.tap.cores
      (placed k op sc.chain.devices)).map (L.capture .dr) := by
    rw [JtagChain.captured_rest L (c := { sc.chain with tap := tap₂ }) hr₂]
    exact congrArg (List.map (L.capture .dr)) (hcores₂.trans hcores₁)
  refine ⟨_, tap₂, e₁, JtagChain.onTap_of_eq (c := { sc.chain with tap := tap₁ }) e₂, hr₂, ?_, by rw [hcap]; exact hline⟩
  rw [hcap, List.length_map, List.length_zipWith, placed, List.length_mapIdx, hw.length, min_self]

/-- **The filtered scan agrees with the full one.** On a chain at rest whose instruction registers
are as long as the host believes, and on which, with SAMPLE selected, the device presents as many
bits as its model says and the others a BYPASS bit each: `sample` with a filter installed gives
the pins of the filter the states that it gives them with none, and no other pin a state. An empty
filter is none. -/
theorem sample_filtered {sc : Scanner (List (Device δ))} (names : List Text)
    (hcells : ∀ dev, sc.bsdlDevice = some dev → CellsInPlace dev) (hr : sc.chain.tap.AtRest)
    (hw : sc.chain.KnowsWidths L)
    (hline : ∀ dev op, sc.bsdlDevice = some dev → dev.sampleOpcode = some op →
      InLine sc.deviceIndex.toNat dev.boundaryLength ((List.zipWith (L.update .ir) sc.chain.tap.cores
        (placed sc.deviceIndex.toNat op sc.chain.devices)).map (L.capture .dr))) :
    ∃ full sc₁ filtered sc₂, sample (Target.chain L) (sc.setDecodeFilter []) = some (full, sc₁) ∧
      sample (Target.chain L) (sc.setDecodeFilter names) = some (filtered, sc₂) ∧
      ∀ name, filtered.pinStates.lookup name =
        if names = [] ∨ name ∈ names then full.pinStates.lookup name else none := by
  by_cases hsome : ∃ dev op, sc.bsdlDevice = some dev ∧ dev.sampleOpcode = some op
  swap
  · -- nothing is sampled either way
    have hnone : ∀ dev, sc.bsdlDevice = some dev → dev.sampleOpcode = none := fun dev hb =>
      Option.eq_none_iff_forall_not_mem.mpr fun op hs => hsome ⟨dev, op, hb, hs⟩
    obtain ⟨sc₁, e₁⟩ := sample_none (Target.chain L) (sc.setDecodeFilter []) hnone
    obtain ⟨sc₂, e₂⟩ := sample_none (Target.chain L) (sc.setDecodeFilter names) hnone
    exact ⟨{}, sc₁, {}, sc₂, e₁, e₂, fun name => (ite_self (none : Option PinState)).symm⟩
  obtain ⟨dev, op, hb, hs⟩ := hsome
  obtain ⟨k, hi, hk, hbk⟩ := bsdlDevice_eq_some hb
  have hline := hline dev op hb hs
  rw [hi, Int.toNat_natCast] at hline
  obtain ⟨c₁, tap, hsel, hidle, hr₂, hn, hline⟩ := exists_selected L hr hw hk op hline
  rw [← hi] at hsel
  by_cases h0 : dev.boundaryLength + sc.chain.bypassBits = 0
  · -- the device is alone and has no boundary register
    obtain ⟨c₃, e₃⟩ := JtagChain.readBSR_nothing (Target.chain L) (c := { sc.chain with tap }) hk hbk h0 0
    obtain ⟨c₄, e₄⟩ := JtagChain.readBSR_nothing (Target.chain L) (c := { sc.chain with tap }) hk hbk h0
      (sc.setDecodeFilter names).maxNeededBsrBits
    rw [← hi] at e₃ e₄
    obtain ⟨sc₁, es₁⟩ := sample_eq (sc.setDecodeFilter []) hb hs hsel hidle e₃
    obtain ⟨sc₂, es₂⟩ := sample_eq (sc.setDecodeFilter names) hb hs hsel hidle e₄
    exact ⟨{}, sc₁, {}, sc₂, es₁, es₂, fun name => (ite_self (none : Option PinState)).symm⟩
  · -- the two readings are made from the same chain
    obtain ⟨m, hm⟩ : ∃ m, m = (sc.setDecodeFilter names).maxNeededBsrBits := ⟨_, rfl⟩
    have hpos : 1 ≤ dev.boundaryLength + sc.chain.bypassBits := Nat.pos_of_ne_zero h0
    obtain ⟨raw, tap₃, e₃, hl₃, hcells₃⟩ := JtagChain.readBSR_cells L (c := { sc.chain with tap }) hr₂.synced
      hr₂.delivers hn hk hbk hline 0 (if_neg fun h => absurd h.1 (lt_irrefl 0)).symm hpos
    have e₃' := hi ▸ e₃
    obtain ⟨sc₁, es₁⟩ := sample_eq (sc.setDecodeFilter []) hb hs hsel hidle e₃'
    by_cases hp : 0 < m ∧ m < dev.boundaryLength
    · obtain ⟨part, tap₄, e₄, hl₄, hcells₄⟩ := JtagChain.readBSR_cells L (c := { sc.chain with tap }) hr₂.synced
        hr₂.delivers hn hk hbk hline m (if_pos hp).symm (by omega)
      rw [hm, ← hi] at e₄
      obtain ⟨sc₂, es₂⟩ := sample_eq (sc.setDecodeFilter names) hb hs hsel hidle e₄
      refine ⟨_, sc₁, _, sc₂, es₁, es₂, fun name => (lookup_filterScan names sc _ name).trans ?_⟩
      have hfull : filterScan (sc.setDecodeFilter []).decodeFilter (decodeBoundaryScan dev raw) =
        decodeBoundaryScan dev raw := if_pos rfl
      have hnames : names ≠ [] := by
        rintro rfl
        exact absurd hp.1 (by rw [hm]; exact lt_irrefl 0)
      simp only [if_true, hfull]
      by_cases hname : names = [] ∨ name ∈ names
      · have hmem : name ∈ (sc.setDecodeFilter names).decodeFilter :=
          mem_setDecodeFilter.mpr (hname.resolve_left hnames)
        rw [if_pos hname, if_pos hname]
        refine lookup_decodeBoundaryScan (ne_nil_of_length hl₄ hp.1) (ne_nil_of_length hl₃ (by omega)) ?_
        intro cell hc hpin he
        have hpos := (hcells dev hb).nonneg hc hpin
        have hlt := position_lt_maxNeeded (sc.setDecodeFilter names) hb hc hpin hpos (he ▸ hmem)
        rw [← hm] at hlt
        rw [getBit_of_cells hcells₄ hpos hlt, getBit_of_cells hcells₃ hpos (by omega)]
      · rw [if_neg hname, if_neg hname]
    · rw [← JtagChain.readBSR_whole (Target.chain L) (c := { sc.chain with tap }) hk hbk hp, hm, ← hi] at e₃
      obtain ⟨sc₂, es₂⟩ := sample_eq (sc.setDecodeFilter names) hb hs hsel hidle e₃
      exact ⟨_, sc₁, _, sc₂, es₁, es₂, lookup_filterScan names sc _⟩

/-! ### A filter on one of two pins -/

/-- Two cells, that see one pin each. -/
def twoPins : BSDLDevice where
  instructionLength := 2
  instructions := AList.singleton "SAMPLE".toList 1
  boundaryLength := 2
  boundaryCells := [{ position := 0, pinName := ['A'] }, { position := 1, pinName := ['B'] }]

/-- A device of this model that sees a high level on both pins, alone on its chain. -/
def twoPinsScanner : Scanner (List (Device BoundaryDevice)) where
  deviceIndex := 0
  chain := JtagChain.idle [⟨0, 0, 2, [], some twoPins⟩]
    [⟨{ BoundaryDevice.powered ⟨2, [false, false], [true, false], 2, [false], zero_ne_bypass, one_ne_bypass⟩ with
      inputs := fun _ _ => true }, []⟩]

theorem sample_filtered_twoPins :
    ∃ full sc₁ filtered sc₂, sample (Target.chain BoundaryDevice.logic) (twoPinsScanner.setDecodeFilter []) =
        some (full, sc₁) ∧
      sample (Target.chain BoundaryDevice.logic) (twoPinsScanner.setDecodeFilter [['A']]) = some (filtered, sc₂) ∧
      filtered.pinStates.lookup ['A'] = full.pinStates.lookup ['A'] ∧ filtered.pinStates.lookup ['B'] = none := by
  have hb : ∀ dev, twoPinsScanner.bsdlDevice = some dev → dev = twoPins := fun dev h => (Option.some.inj h).symm
  have hs : twoPins.sampleOpcode = some 1 := by decide +kernel
  have hcells : ∀ dev, twoPinsScanner.bsdlDevice = some dev → CellsInPlace dev := by
    intro dev h i cell hget _
    rw [hb dev h] at hget
    match i, hget with
    | 0, hget => rw [← Option.some.inj hget]; rfl
    | 1, hget => rw [← Option.some.inj hget]; rfl
  have hline : ∀ dev op, twoPinsScanner.bsdlDevice = some dev → dev.sampleOpcode = some op →
      InLine twoPinsScanner.deviceIndex.toNat dev.boundaryLength ((List.zipWith (BoundaryDevice.logic.update .ir)
        twoPinsScanner.chain.tap.cores (placed twoPinsScanner.deviceIndex.toNat op twoPinsScanner.chain.devices)).map
          (BoundaryDevice.logic.capture .dr)) := by
    intro dev op h h'
    rw [hb dev h] at h' ⊢
    rw [hs, Option.some.injEq] at h'
    rw [← h']
    unfold InLine
    decide +kernel
  obtain ⟨full, sc₁, filtered, sc₂, e₁, e₂, hall⟩ := sample_filtered BoundaryDevice.logic [['A']] hcells
    ⟨JtagChain.idle_synced _ _, rfl, JtagChain.idle_delivers _ _⟩
    ⟨rfl, by simp [twoPinsScanner, JtagChain.idle]⟩ hline
  exact ⟨full, sc₁, filtered, sc₂, e₁, e₂, hall ['A'], hall ['B']⟩

end Scanner

end OwlTap.BoundaryScan
