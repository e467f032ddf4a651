import OwlTap.BoundaryScan.DriverRules
import OwlTap.Jtag.Captures

/-!
# What an interconnect test observes

The test drives with one object and samples with another, and each selects an instruction in
every device of the chain: to sample a receiver is to take EXTEST from the driver. So every
value that a passed step has observed was captured while the driver held BYPASS, or SAMPLE if
it is its own receiver (`interconnect_never_drives`).
-/

namespace OwlTap.BoundaryScan

open OwlTap Ftdi Bsdl Jtag

/-! ### Accepted nets -/

theorem receivers_of_parseNet {tokens : List Text} {net : NetDef} (h : parseNet tokens = .ok net) : net.receivers ≠ [] := by
  match tokens with
  | name :: driver :: receiver :: receivers =>
    rw [parseNet] at h
    cases hd : parseDevPin driver with
    | error e => rw [hd] at h; cases h
    | ok d =>
      cases hr : parseDevPin receiver with
      | error e => rw [hd, List.mapM_cons, hr] at h; cases h
      | ok r =>
        cases hrs : receivers.mapM parseDevPin with
        | error e => rw [hd, List.mapM_cons, hr, hrs] at h; cases h
        | ok rs =>
          rw [hd, List.mapM_cons, hr, hrs] at h
          obtain rfl := Except.ok.inj h
          exact List.cons_ne_nil r rs
  | [] => cases h
  | [_] => cases h
  | [_, _] => cases h

theorem receivers_of_parseLines {lines : List Text} {lineNo : ℕ} {nets : List NetDef} (h : parseLines lineNo lines = .ok nets) :
    ∀ net ∈ nets, net.receivers ≠ [] := by
  induction lines generalizing lineNo nets with
  | nil =>
    obtain rfl := Except.ok.inj h
    exact fun net hm => absurd hm List.not_mem_nil
  | cons line lines ih =>
    rw [parseLines] at h
    split at h
    · exact ih h
    split at h
    · cases h
    rename_i net hnet
    cases hrest : parseLines (lineNo + 1) lines with
    | error e => rw [hrest] at h; cases h
    | ok rest =>
      rw [hrest] at h
      obtain rfl := Except.ok.inj h
      exact List.forall_mem_cons.mpr ⟨receivers_of_parseNet hnet, ih hrest⟩

/-- Every net of an accepted file has a receiver. -/
theorem receivers_of_parseIctFile {path : Text} {contents : Option Text} {nets : List NetDef}
    (h : parseIctFile path contents = .ok nets) : ∀ net ∈ nets, net.receivers ≠ [] := by
  cases contents with
  | none => cases h
  | some contents => exact receivers_of_parseLines h

/-! ### Samplings of a chain at rest -/

section Chain

variable {δ : Type} {L : TestLogic δ} {devices : List ChainDevice}

/-- The accesses of drivers and scanners leave the chain at rest. -/
theorem kept_rested : Kept (Target.chain L) devices (JtagChain.Rested L devices) where
  known h := h.devices
  sample _ _ := keeps_selectInstruction
  extest _ _ _ := keeps_selectInstruction
  idle cycles c a c' h e := by
    obtain ⟨tap, e', h', -⟩ := h.clkIdle cycles
    obtain ⟨-, rfl⟩ := Prod.mk.inj (Option.some.inj (e'.symm.trans e))
    exact h'
  read i data part c r c' h e := (h.readBSR e).1
  write i data len c ok c' h e := (h.writeBSR e).1
where
  keeps_selectInstruction {i : ℤ} {op : BitVec 32} : Method.Keeps (JtagChain.Rested L devices)
      (JtagChain.selectInstruction (Target.chain L) i op) := by
    intro c ok c' h e
    rcases h.selectInstruction i op with ⟨lastError, e'⟩ | ⟨k, tap, -, -, e', h', -⟩
    · obtain ⟨-, rfl⟩ := Prod.mk.inj (Option.some.inj (e'.symm.trans e))
      exact h.fail lastError
    · obtain ⟨-, rfl⟩ := Prod.mk.inj (Option.some.inj (e'.symm.trans e))
      exact h'

/-- The sampling of device `i` has said nothing, or has captured once, after SAMPLE was put into the device and
BYPASS into all others. -/
def Sampled (L : TestLogic δ) (devices : List ChainDevice) (i : ℤ) (scan : ScanResult)
    (before after : JtagChain (List (Device δ))) : Prop :=
  (∀ name, scan.getPin name = .unknown) ∨
  ∃ (k : ℕ) (dev : BSDLDevice) (op : BitVec 32), i = k ∧ bsdlAt devices k = some dev ∧ dev.sampleOpcode = some op ∧
    JtagChain.Rested L devices before ∧ TapController.Captures L before.tap after.tap
      [List.zipWith (L.update .ir) before.tap.cores (placed k op devices)]

theorem sampled_sample {i : ℤ} {sc sc' : Scanner (List (Device δ))} {scan : ScanResult}
    (h : sc.Has (JtagChain.Rested L devices) i) (e : Scanner.sample (Target.chain L) sc = some (scan, sc')) :
    Sampled L devices i scan sc.chain sc'.chain := by
  have hfail : ∀ {msg : Scanner (List (Device δ)) → String} {sc₁ : Scanner (List (Device δ))},
      Scanner.fail msg sc₁ = some (scan, sc') → Sampled L devices i scan sc.chain sc'.chain := fun {msg sc₁} e => by
    obtain ⟨rfl, -⟩ := Prod.mk.inj (Option.some.inj e)
    exact .inl fun name => rfl
  have hb := h.bsdlDevice_eq kept_rested
  rw [Scanner.sample] at e
  split at e
  · exact hfail e
  rename_i dev hdev
  split at e
  · exact hfail e
  rename_i op hop
  obtain rfl := h.2
  obtain ⟨selected, sc₁, honSel, e⟩ := Method.bind_eq_some.mp e
  obtain ⟨c₁, hsel, rfl⟩ := Method.on_eq_some.mp honSel
  rcases h.1.selectInstruction sc.deviceIndex op with ⟨lastError, e₁⟩ | ⟨k, tap, hk, hlt, e₁, h₁, hcores₁, hcap₁⟩
  · obtain ⟨rfl, rfl⟩ := Prod.mk.inj (Option.some.inj (e₁.symm.trans hsel))
    rw [if_neg Bool.false_ne_true] at e
    exact hfail e
  · obtain ⟨rfl, rfl⟩ := Prod.mk.inj (Option.some.inj (e₁.symm.trans hsel))
    simp only [if_true] at e
    obtain ⟨idled, sc₂, honIdle, e⟩ := Method.bind_eq_some.mp e
    obtain ⟨c₂, hidle, rfl⟩ := Method.on_eq_some.mp honIdle
    obtain ⟨tap₂, e₂, h₂, hcores₂, hcap₂⟩ := h₁.clkIdle 2
    obtain ⟨-, rfl⟩ := Prod.mk.inj (Option.some.inj (e₂.symm.trans hidle))
    obtain ⟨⟨ok, raw⟩, sc₃, honRead, e⟩ := Method.bind_eq_some.mp e
    obtain ⟨c₃, hread, rfl⟩ := Method.on_eq_some.mp honRead
    obtain ⟨h₃, hscanned⟩ := h₂.readBSR hread
    cases hscanned with
    | refused _ =>
      simp only [Bool.false_eq_true, if_false] at e
      exact hfail e
    | made ys _ _ hcap₃ =>
      obtain ⟨-, rfl⟩ := Prod.mk.inj (Option.some.inj e)
      refine .inr ⟨k, dev, op, hk, ?_, hop, h.1, ?_⟩
      · rw [← hk, ← hb, hdev]
      · have := (hcap₁.trans hcap₂).trans hcap₃
        rwa [if_pos rfl, show (_ : TapController (List (Device δ))).cores = _ from hcores₂, hcores₁] at this

theorem sampled_sampleReceivers {recvs : List DevPin} {samples samples' : List (Sampling (List (Device δ)))}
    {b b' : Bench (List (Device δ))} (hb : b.Has (JtagChain.Rested L devices))
    (hs : ∀ s ∈ samples, Sampled L devices s.device s.scan s.before s.after)
    (e : Bench.sampleReceivers (Target.chain L) recvs samples b = some (samples', b')) :
    ∀ s ∈ samples', Sampled L devices s.device s.scan s.before s.after := by
  induction recvs generalizing samples b with
  | nil =>
    obtain ⟨rfl, -⟩ := Prod.mk.inj (Option.some.inj e)
    exact hs
  | cons recv recvs ih =>
    obtain ⟨samples₁, b₁, hrecv, e⟩ := Method.bind_eq_some.mp e
    have hb₁ := Bench.keeps_sampleReceiver kept_rested samples recv _ _ _ hb hrecv
    refine ih hb₁ ?_ e
    rw [Bench.sampleReceiver] at hrecv
    split at hrecv
    · obtain ⟨rfl, -⟩ := Prod.mk.inj (Option.some.inj hrecv)
      exact hs
    split at hrecv
    · cases hrecv
    · obtain ⟨rfl, -⟩ := Prod.mk.inj (Option.some.inj hrecv)
      exact hs
    rename_i data hentry
    obtain ⟨k, hk, hget⟩ := Bench.entry_eq_some hentry
    obtain ⟨⟨scan, b₂⟩, hsample, hpair⟩ := Option.map_eq_some_iff.mp hrecv
    obtain ⟨rfl, rfl⟩ := Prod.mk.inj hpair
    obtain ⟨sc', hsc, rfl⟩ := Method.on_eq_some.mp hsample
    refine List.forall_mem_append.mpr ⟨hs, List.forall_mem_singleton.mpr ?_⟩
    rw [hk] at hsc ⊢
    refine sampled_sample ⟨hb.chain, ?_⟩ hsc
    show ((b.scanners[(k : ℤ).toNat]?).join.getD data).deviceIndex = k
    rw [Int.toNat_natCast, hget]
    exact hb.scanners k data hget

end Chain

/-! ### Passed steps -/

/-- BYPASS is in force. -/
def InBypass (d : BoundaryDevice) : Prop := d.instruction = some (List.replicate d.spec.irWidth true)

/-- SAMPLE of the model is in force. -/
def InSample (dev : BSDLDevice) (d : BoundaryDevice) : Prop :=
  ∃ op, dev.sampleOpcode = some op ∧ d.instruction = some ((List.range d.spec.irWidth).map op.getLsbD)

/-- The device drives a value on a pin: EXTEST of the model is in force, and neither BYPASS nor SAMPLE; and the update
latches hold the value. -/
structure Drives (dev : BSDLDevice) (pin : Text) (value : ℤ) (d : BoundaryDevice) : Prop where
  /-- EXTEST is in force. -/
  extest : ∃ op, dev.extestOpcode = some op ∧ d.instruction = some ((List.range d.spec.irWidth).map op.getLsbD)
  /-- Not BYPASS. -/
  bypass : ¬InBypass d
  /-- Not SAMPLE. -/
  sample : ¬InSample dev d
  /-- The latch of the pin's output cell. -/
  latch : ∃ cell, dev.getOutputCellForPin pin = some cell ∧ d.latches[cell.position.toNat]? = some (decide (value ≠ 0))

/-- The devices at each CAPTURE-DR of a sampling. -/
def Sampling.captures (s : Sampling (List (Device BoundaryDevice))) : List (List BoundaryDevice) :=
  (FtdiDevice.capturesSince (Target.chain BoundaryDevice.logic) s.before.tap.device s.after.tap.device).map
    (List.map Device.core)

/-- A value has been observed for a receiver, and the only CAPTURE-DR of its sampling found the driver in BYPASS, or in
SAMPLE if it is the receiver too. -/
def ObservedUndriven (devices : List ChainDevice) (net : NetDef) (value : ℤ) (recv : DevPin)
    (s : Sampling (List (Device BoundaryDevice))) : Prop :=
  s.device = recv.deviceIndex ∧ s.scan.getPin recv.pin = expectedState value ∧
    ∃ dev cores d, bsdlAt devices net.driver.deviceIndex = some dev ∧ s.captures = [cores] ∧
      cores[net.driver.deviceIndex.toNat]? = some d ∧
      (if recv.deviceIndex = net.driver.deviceIndex then InSample dev d else InBypass d) ∧
      ¬Drives dev net.driver.pin value d

variable {devices : List ChainDevice} {b b' : Bench (List (Device BoundaryDevice))}

/-- A pin is driven on a device with a model only. -/
theorem bsdlAt_of_drive (hb : b.Has (JtagChain.Rested BoundaryDevice.logic devices)) {driver : DevPin} {value : ℤ}
    (e : Bench.drive (Target.chain BoundaryDevice.logic) driver value b = some (true, b')) :
    ∃ (k : ℕ) (dev : BSDLDevice), driver.deviceIndex = k ∧ bsdlAt devices k = some dev := by
  rw [Bench.drive] at e
  split at e
  · cases e
  · cases e
  rename_i data hentry
  obtain ⟨k, hk, hget⟩ := Bench.entry_eq_some hentry
  obtain ⟨allowed, b₁, honDriver, e⟩ := Method.bind_eq_some.mp e
  cases allowed with
  | false => cases e
  | true =>
    obtain ⟨pd, hallowed, -⟩ := Method.on_eq_some.mp honDriver
    obtain ⟨hallowed, -⟩ := Prod.mk.inj (Option.some.inj hallowed)
    rw [hk, Int.toNat_natCast, hget] at hallowed
    have hpd : PinDriver.Has (JtagChain.Rested BoundaryDevice.logic devices) k { data with chain := b.chain } :=
      ⟨hb.chain, hb.drivers k data hget⟩
    have hbsdl := hpd.bsdl_eq kept_rested
    rw [PinDriver.extestAllowed] at hallowed
    split at hallowed
    · cases hallowed
    · rename_i dev hdev
      exact ⟨k, dev, hk, hbsdl.symm.trans hdev⟩

/-- The instruction of the driver when a device is sampled. -/
theorem instruction_of_sampled {k j : ℕ} {dev dev' : BSDLDevice} {op : BitVec 32}
    {c : JtagChain (List (Device BoundaryDevice))} (h : JtagChain.Rested BoundaryDevice.logic devices c)
    (hdev : bsdlAt devices k = some dev) (hdev' : bsdlAt devices j = some dev') (hop : dev'.sampleOpcode = some op) :
    ∃ d, (List.zipWith (BoundaryDevice.logic.update .ir) c.tap.cores (placed j op devices))[k]? = some d ∧
      if j = k then InSample dev d else InBypass d := by
  have hk : k < devices.length := by
    rw [bsdlAt, if_pos (Int.natCast_nonneg k), Int.toNat_natCast] at hdev
    obtain ⟨cd, hcd, -⟩ := Option.bind_eq_some_iff.mp hdev
    exact (List.getElem?_eq_some_iff.mp hcd).1
  have hlen : devices.length = c.tap.cores.length := by
    rw [← h.devices]
    exact h.widths.length
  have hk' : k < c.tap.cores.length := hlen ▸ hk
  have hwidth : devices[k].irLength = c.tap.cores[k].spec.irWidth := by
    have hget := congrArg (·[k]?) h.widths.widths
    simp only [h.devices, List.getElem?_map, List.getElem?_eq_getElem hk, List.getElem?_eq_getElem hk', Option.map_some,
      Option.some.injEq] at hget
    exact hget
  refine ⟨(c.tap.cores[k]).updateIr ((placed j op devices).getD k []), ?_, ?_⟩
  · rw [List.getElem?_zipWith, List.getElem?_eq_getElem hk', placed, List.getElem?_mapIdx,
      List.getElem?_eq_getElem hk, List.getD_eq_getElem?_getD, List.getElem?_mapIdx, List.getElem?_eq_getElem hk]
    rfl
  · have hplaced : (placed j op devices).getD k [] = if k = j then (List.range c.tap.cores[k].spec.irWidth).map op.getLsbD
        else List.replicate c.tap.cores[k].spec.irWidth true := by
      rw [placed, List.getD_eq_getElem?_getD, List.getElem?_mapIdx, List.getElem?_eq_getElem hk, Option.map_some,
        Option.getD_some, hwidth]
    rw [hplaced]
    by_cases hjk : j = k
    · subst hjk
      obtain rfl := Option.some.inj (hdev.symm.trans hdev')
      rw [if_pos rfl, if_pos rfl]
      exact ⟨op, hop, rfl⟩
    · rw [if_neg hjk, if_neg (Ne.symm hjk)]
      rfl

/-- A passed step has observed every receiver while its driver did not drive. -/
theorem undriven_of_pass (hb : b.Has (JtagChain.Rested BoundaryDevice.logic devices)) {net : NetDef} {value : ℤ}
    {r : StepRun (List (Device BoundaryDevice))}
    (e : Bench.runStep (Target.chain BoundaryDevice.logic) net value b = some (r, b')) (hpass : r.step.pass = true) :
    ∀ recv ∈ net.receivers, ∃ s ∈ r.samples, ObservedUndriven devices net r.step.drivenValue recv s := by
  obtain ⟨ok, b₁, hdrive, e⟩ := Method.bind_eq_some.mp e
  cases ok with
  | false =>
    obtain ⟨rfl, -⟩ := Prod.mk.inj (Option.some.inj e)
    cases hpass
  | true =>
    rw [if_pos rfl] at e
    obtain ⟨samples, b₂, hsamples, e⟩ := Method.bind_eq_some.mp e
    obtain ⟨rfl, -⟩ := Prod.mk.inj (Option.some.inj e)
    obtain ⟨k, dev, hk, hdev⟩ := bsdlAt_of_drive hb hdrive
    have hb₁ := Bench.keeps_drive kept_rested _ _ _ _ _ hb hdrive
    have hall := sampled_sampleReceivers hb₁ (fun s hs => absurd hs List.not_mem_nil) hsamples
    intro recv hrecv
    have hobs : observe samples recv = expectedState value := by
      have := List.all_eq_true.mp hpass _ (List.mem_map_of_mem hrecv)
      exact of_decide_eq_true this
    have hknown : expectedState value ≠ .unknown := by
      rw [expectedState]
      split
      · exact nofun
      · exact nofun
    rw [observe] at hobs
    split at hobs
    · exact absurd hobs.symm hknown
    rename_i s hfind
    have hs : s ∈ samples := List.mem_of_find?_eq_some hfind
    have hfound := List.find?_some hfind
    have hdevice : s.device = recv.deviceIndex := of_decide_eq_true hfound
    refine ⟨s, hs, hdevice, hobs, ?_⟩
    rcases hall s hs with hunknown | ⟨j, dev', op, hj, hdev', hop, hrest, hcap⟩
    · exact absurd ((hunknown recv.pin).symm.trans hobs).symm hknown
    · obtain ⟨d, hget, hin⟩ := instruction_of_sampled hrest hdev hdev' hop
      have hin' : if recv.deviceIndex = net.driver.deviceIndex then InSample dev d else InBypass d := by
        simpa only [← hdevice, hj, hk, Int.natCast_inj] using hin
      refine ⟨dev, _, d, hk ▸ hdev, hcap.eq, by rw [hk]; exact hget, hin', fun hdrives => ?_⟩
      split at hin'
      · exact hdrives.sample hin'
      · exact hdrives.bypass hin'

theorem undriven_of_runNets (hb : b.Has (JtagChain.Rested BoundaryDevice.logic devices)) {nets : List NetDef}
    {runs : List (NetDef × List (StepRun (List (Device BoundaryDevice))))}
    (e : Bench.runNets (Target.chain BoundaryDevice.logic) nets b = some (runs, b')) :
    ∀ run ∈ runs, run.1 ∈ nets ∧ ∀ r ∈ run.2, r.step.pass = true → ∀ recv ∈ run.1.receivers, ∃ s ∈ r.samples,
      ObservedUndriven devices run.1 r.step.drivenValue recv s := by
  induction nets generalizing b runs with
  | nil =>
    obtain ⟨rfl, -⟩ := Prod.mk.inj (Option.some.inj e)
    exact fun run hm => absurd hm List.not_mem_nil
  | cons net nets ih =>
    obtain ⟨run, b₁, hnet, e⟩ := Method.bind_eq_some.mp e
    obtain ⟨rest, b₂, hnets, e⟩ := Method.bind_eq_some.mp e
    obtain ⟨rfl, rfl⟩ := Prod.mk.inj (Option.some.inj e)
    have hb₁ := Bench.keeps_runNet kept_rested net _ _ _ hb hnet
    obtain ⟨low, b₃, hlow, hnet⟩ := Method.bind_eq_some.mp hnet
    obtain ⟨high, b₄, hhigh, hnet⟩ := Method.bind_eq_some.mp hnet
    obtain ⟨rfl, -⟩ := Prod.mk.inj (Option.some.inj hnet)
    have hb₃ := Bench.keeps_runStep kept_rested net 0 _ _ _ hb hlow
    refine List.forall_mem_cons.mpr ⟨⟨List.mem_cons_self, ?_⟩, fun run hm => ?_⟩
    · refine List.forall_mem_cons.mpr ⟨undriven_of_pass hb hlow, List.forall_mem_singleton.mpr ?_⟩
      exact undriven_of_pass hb₃ hhigh
    · exact ⟨List.mem_cons_of_mem _ (ih hb₁ hnets run hm).1, (ih hb₁ hnets run hm).2⟩

/-- **A test never observes while it drives.** In every test of an accepted net list, on every chain at rest whose devices
the host knows, a passed step has receivers, and each was observed while the driver held BYPASS, or SAMPLE. -/
theorem interconnect_never_drives {path : Text} {contents : Option Text} {nets : List NetDef}
    (hparse : parseIctFile path contents = .ok nets) (hb : b.Has (JtagChain.Rested BoundaryDevice.logic devices))
    {result : InterconnectResult}
    (e : runInterconnectTest (Target.chain BoundaryDevice.logic) nets b = some (result, b')) :
    ∃ runs, Bench.runNets (Target.chain BoundaryDevice.logic) nets b = some (runs, b') ∧
      result = .ofNets (runs.map .ofRun) ∧ ∀ run ∈ runs, ∀ r ∈ run.2, r.step.pass = true →
        run.1.receivers ≠ [] ∧ ∀ recv ∈ run.1.receivers, ∃ s ∈ r.samples,
          ObservedUndriven devices run.1 r.step.drivenValue recv s := by
  obtain ⟨runs, b₁, hruns, e⟩ := Method.bind_eq_some.mp e
  obtain ⟨rfl, rfl⟩ := Prod.mk.inj (Option.some.inj e)
  refine ⟨runs, hruns, rfl, fun run hm r hr hpass => ?_⟩
  obtain ⟨hnet, hall⟩ := undriven_of_runNets hb hruns run hm
  exact ⟨receivers_of_parseIctFile hparse _ hnet, hall r hr hpass⟩

/-! ### A net that is not there -/

/-- A device with one cell. -/
def cellSpec : BoundarySpec := ⟨2, [false, false], [true, false], 1, [false], zero_ne_bypass, one_ne_bypass⟩

/-- Its model: the cell drives a pin, or sees it. -/
def cellModel (pin : Text) (function : CellFunction) : BSDLDevice where
  instructionLength := 2
  instructions := (AList.singleton "EXTEST".toList (0 : BitVec 32)).insert "SAMPLE".toList 1
  boundaryLength := 1
  boundaryCells := [{ position := 0, pinName := pin, function }]
  pins := AList.singleton pin { name := pin }

/-- Two of them, as the host knows them. -/
def benchDevices : List ChainDevice :=
  [{ position := 0, idcode := 0, irLength := 2, bsdl := some (cellModel "OUT".toList .output2) },
    { position := 1, idcode := 0, irLength := 2, bsdl := some (cellModel "IN".toList .input) }]

/-- A bench with them: the second sees a high level, whatever the first drives. -/
def bench : Bench (List (Device BoundaryDevice)) where
  chain := JtagChain.idle benchDevices
    [⟨.powered cellSpec, []⟩, ⟨{ BoundaryDevice.powered cellSpec with inputs := fun _ _ => true }, []⟩]
  scanners := [some ⟨0, [], ""⟩, some ⟨1, [], ""⟩]
  drivers := [some ⟨0, [], ""⟩, some ⟨1, [], ""⟩]

/-- A net between them. -/
def benchNets : List NetDef := [⟨"N".toList, ⟨0, "OUT".toList⟩, [⟨1, "IN".toList⟩]⟩]

theorem bench_has : bench.Has (JtagChain.Rested BoundaryDevice.logic benchDevices) where
  chain := ⟨⟨JtagChain.idle_synced _ _, rfl, JtagChain.idle_delivers _ _⟩,
    ⟨rfl, by simp [bench, benchDevices, JtagChain.idle]⟩, rfl⟩
  scanners i data h := by
    obtain _ | _ | i := i
    · rw [← Option.some.inj (Option.some.inj h)]; rfl
    · rw [← Option.some.inj (Option.some.inj h)]; rfl
    · cases h
  drivers i data h := by
    obtain _ | _ | i := i
    · rw [← Option.some.inj (Option.some.inj h)]; rfl
    · rw [← Option.some.inj (Option.some.inj h)]; rfl
    · cases h

theorem interconnect_never_drives_bench :
    ∃ result b' runs, runInterconnectTest (Target.chain BoundaryDevice.logic) benchNets bench = some (result, b') ∧
      Bench.runNets (Target.chain BoundaryDevice.logic) benchNets bench = some (runs, b') ∧
      ∀ run ∈ runs, ∀ r ∈ run.2, r.step.pass = true → ∀ recv ∈ run.1.receivers, ∃ s ∈ r.samples,
        ObservedUndriven benchDevices run.1 r.step.drivenValue recv s := by
  have hparse : parseIctFile [] (some "# a net\nN 0:out 1:in".toList) = .ok benchNets := by decide +kernel
  have hruns : (runInterconnectTest (Target.chain BoundaryDevice.logic) benchNets bench).isSome := by decide +kernel
  obtain ⟨⟨result, b'⟩, e⟩ := Option.isSome_iff_exists.mp hruns
  obtain ⟨runs, e', -, hall⟩ := interconnect_never_drives hparse bench_has e
  exact ⟨result, b', runs, e, e', fun run hm r hr hpass => (hall run hm r hr hpass).2⟩

/-- Which values passed. -/
def passed {σ : Type} (runs : List (NetDef × List (StepRun σ))) : List (List (ℤ × Bool)) :=
  runs.map fun run => run.2.map fun r => (r.step.drivenValue, r.step.pass)

/-- The high value passes while the driver is in BYPASS, also on a pin that the driver refuses to set. -/
theorem bench_passes_in_bypass :
    parseIctFile [] (some "# a net\nN 0:out 1:in".toList) = .ok benchNets ∧
      (∃ runs b', Bench.runNets (Target.chain BoundaryDevice.logic) benchNets bench = some (runs, b') ∧
        ∃ run ∈ runs, ∃ r ∈ run.2, r.step.pass = true ∧ ∃ s ∈ r.samples, ∃ cores d, s.captures = [cores] ∧
          cores[0]? = some d ∧ InBypass d ∧ ¬Drives (cellModel "OUT".toList .output2) "OUT".toList r.step.drivenValue d) ∧
      ∃ b b' b'', Bench.onDriver 0 ⟨0, [], ""⟩ (PinDriver.setPin (Target.chain BoundaryDevice.logic) "NC".toList 1) bench =
          some (false, b) ∧
        Bench.runStep (Target.chain BoundaryDevice.logic) ⟨[], ⟨0, "NC".toList⟩, [⟨1, "IN".toList⟩]⟩ 1 bench =
          some (b', b'') ∧ b'.step.pass = true := by
  refine ⟨by decide +kernel, ?_, ?_⟩
  · have hpassed : (Bench.runNets (Target.chain BoundaryDevice.logic) benchNets bench).map (fun r => passed r.1) =
        some [[(0, false), (1, true)]] := by decide +kernel
    obtain ⟨⟨runs, b'⟩, e, hpassed⟩ := Option.map_eq_some_iff.mp hpassed
    obtain ⟨run, rest, rfl, hrun, -⟩ := List.map_eq_cons_iff.mp hpassed
    obtain ⟨low, rs, hsteps, -, hrun⟩ := List.map_eq_cons_iff.mp hrun
    obtain ⟨high, rs', rfl, hhigh, -⟩ := List.map_eq_cons_iff.mp hrun
    have hr : high ∈ run.2 := by rw [hsteps]; exact List.mem_cons_of_mem _ List.mem_cons_self
    have hpass : high.step.pass = true := congrArg Prod.snd hhigh
    obtain ⟨hnet, hall⟩ := undriven_of_runNets bench_has e run List.mem_cons_self
    have hnet : run.1 = ⟨"N".toList, ⟨0, "OUT".toList⟩, [⟨1, "IN".toList⟩]⟩ := List.mem_singleton.mp hnet
    obtain ⟨s, hs, -, -, dev, cores, d, hdev, hcap, hd, hin, hdrives⟩ :=
      hall high hr hpass ⟨1, "IN".toList⟩ (by rw [hnet]; exact List.mem_singleton_self _)
    rw [hnet] at hdev hd hin hdrives
    obtain rfl : cellModel "OUT".toList .output2 = dev := Option.some.inj hdev
    exact ⟨_, b', e, run, List.mem_cons_self, high, hr, hpass, s, hs, cores, d, hcap, hd, hin, hdrives⟩
  · have hset : (Bench.onDriver 0 ⟨0, [], ""⟩ (PinDriver.setPin (Target.chain BoundaryDevice.logic) "NC".toList 1)
        bench).map Prod.fst = some false := by decide +kernel
    have hstep : (Bench.runStep (Target.chain BoundaryDevice.logic) ⟨[], ⟨0, "NC".toList⟩, [⟨1, "IN".toList⟩]⟩ 1
        bench).map (fun r => r.1.step.pass) = some true := by decide +kernel
    obtain ⟨⟨ok, b⟩, eset, rfl⟩ := Option.map_eq_some_iff.mp hset
    obtain ⟨⟨r, b'⟩, estep, hpass⟩ := Option.map_eq_some_iff.mp hstep
    exact ⟨b, r, b', eset, estep, hpass⟩

end OwlTap.BoundaryScan
