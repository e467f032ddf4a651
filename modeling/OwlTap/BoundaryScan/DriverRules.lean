import OwlTap.BoundaryScan.InterconnectTest

/-!
# What drivers and scanners keep

A property of the chain that the accesses made by drivers and scanners keep (`Kept`) is kept
by all their methods. EXTEST is selected only in a device whose model the guard lets pass,
and otherwise nothing but SAMPLE.
-/

namespace OwlTap.BoundaryScan

open OwlTap Ftdi Bsdl Jtag

variable {σ : Type} {T : Target σ}

/-- The model of the device at an index, if there is such a device and such a model. -/
def bsdlAt (devices : List ChainDevice) (i : ℤ) : Option BSDLDevice :=
  (if 0 ≤ i then devices[i.toNat]? else none).bind ChainDevice.bsdl

/-- The accesses made by drivers and scanners keep a property of a chain of these devices. -/
structure Kept (T : Target σ) (devices : List ChainDevice) (I : JtagChain σ → Prop) : Prop where
  /-- The devices are these. -/
  known : ∀ {c}, I c → c.devices = devices
  /-- SAMPLE is selected. -/
  sample : ∀ {i dev op}, bsdlAt devices i = some dev → dev.sampleOpcode = some op →
    Method.Keeps I (JtagChain.selectInstruction T i op)
  /-- EXTEST is selected in a device that the guard lets pass. -/
  extest : ∀ {i dev op}, bsdlAt devices i = some dev → (deviceAllowsLiveExtest dev).1 = true →
    dev.extestOpcode = some op → Method.Keeps I (JtagChain.selectInstruction T i op)
  /-- Idle cycles. -/
  idle : ∀ cycles, Method.Keeps I (JtagChain.onTap (TapController.clkIdle T cycles))
  /-- The boundary register is read. -/
  read : ∀ i data part, Method.Keeps I (JtagChain.readBSR T i data part)
  /-- It is written. -/
  write : ∀ i data len, Method.Keeps I (JtagChain.writeBSR T i data len)

variable {devices : List ChainDevice} {I : JtagChain σ → Prop}

/-! ### Drivers -/

namespace PinDriver

/-- A driver of device `i` of a chain with the property. -/
def Has (I : JtagChain σ → Prop) (i : ℤ) (pd : PinDriver σ) : Prop := I pd.chain ∧ pd.deviceIndex = i

variable {i : ℤ}

theorem Has.bsdl_eq (h : Kept T devices I) {pd : PinDriver σ} (hpd : pd.Has I i) : pd.bsdl = bsdlAt devices i := by
  rw [bsdl, JtagChain.deviceAt, h.known hpd.1, hpd.2]
  rfl

theorem keeps_onChain {α : Type} {m : Method (JtagChain σ) α} (hm : Method.Keeps I m) :
    Method.Keeps (Has I i) (onChain m) :=
  hm.on (fun _ h => h.1) fun _ _ h hz => ⟨hz, h.2⟩

theorem keeps_fail (msg : PinDriver σ → String) : Method.Keeps (Has I i) (fail msg) := by
  intro pd ok pd' hpd e
  obtain ⟨-, rfl⟩ := Prod.mk.inj (Option.some.inj e)
  exact hpd

theorem Has.initBsrFromSafe {pd : PinDriver σ} (hpd : pd.Has I i) : pd.initBsrFromSafe.Has I i := by
  unfold PinDriver.initBsrFromSafe
  split
  · exact hpd
  · exact hpd

theorem Has.loadSnapshot {pd : PinDriver σ} (hpd : pd.Has I i) (rawBsr : List Byte) : (pd.loadSnapshot rawBsr).Has I i := by
  unfold PinDriver.loadSnapshot
  split
  · exact hpd
  · exact hpd

theorem keeps_captureCurrentState (h : Kept T devices I) : Method.Keeps (Has I i) (captureCurrentState T) := by
  intro pd ok pd' hpd e
  have hb := hpd.bsdl_eq h
  rw [captureCurrentState] at e
  split at e
  · exact keeps_fail _ _ _ _ hpd e
  rename_i dev hdev
  split at e
  · exact keeps_fail _ _ _ _ hpd e
  rename_i op hop
  rw [hpd.2] at e
  refine Method.Keeps.bind (keeps_onChain (h.sample (hb ▸ hdev) hop)) (fun selected => ?_) _ _ _ hpd e
  cases selected with
  | false => exact keeps_fail _
  | true =>
    refine (keeps_onChain (h.idle 2)).bind fun _ => (keeps_onChain (h.read i [] 0)).bind fun r => ?_
    obtain ⟨_ | _, raw⟩ := r
    · exact keeps_fail _
    · exact (Method.Keeps.modify fun pd hpd => hpd.loadSnapshot raw).bind fun _ => .pure _

/-- What `guarded` keeps, if its body does for the device's model. -/
theorem keeps_guarded (h : Kept T devices I) {body : BSDLDevice → Method (PinDriver σ) Bool}
    (hbody : ∀ dev, bsdlAt devices i = some dev → (deviceAllowsLiveExtest dev).1 = true → Method.Keeps (Has I i) (body dev)) :
    Method.Keeps (Has I i) (guarded T body) := by
  intro pd ok pd' hpd e
  have hb := hpd.bsdl_eq h
  rw [guarded] at e
  split at e
  · exact keeps_fail _ _ _ _ hpd e
  rename_i dev hdev
  split at e
  swap
  · exact keeps_fail _ _ _ _ hpd e
  rename_i hallowed
  have hg : (deviceAllowsLiveExtest dev).1 = true := by
    rw [extestAllowed, hdev] at hallowed
    exact hallowed
  have hbody := hbody dev (hb ▸ hdev) hg
  split at e
  · obtain ⟨⟨captured, pd₁⟩, hcap, e⟩ := Option.bind_eq_some_iff.mp e
    have hpd₁ := keeps_captureCurrentState h _ _ _ hpd hcap
    cases captured with
    | true => exact hbody _ _ _ hpd₁ e
    | false => exact hbody _ _ _ hpd₁.initBsrFromSafe e
  · exact hbody _ _ _ hpd e

theorem keeps_stage (f : List Byte → Except String (List Byte)) : Method.Keeps (Has I i) (stage f) := by
  intro pd ok pd' hpd e
  rw [stage] at e
  split at e
  · exact keeps_fail _ _ _ _ hpd e
  · obtain ⟨-, rfl⟩ := Prod.mk.inj (Option.some.inj e)
    exact hpd

theorem keeps_setPin (h : Kept T devices I) (pinName : Text) (value : ℤ) : Method.Keeps (Has I i) (setPin T pinName value) :=
  keeps_guarded h fun _ _ _ => keeps_stage _

theorem keeps_setPinHighZ (h : Kept T devices I) (pinName : Text) : Method.Keeps (Has I i) (setPinHighZ T pinName) :=
  keeps_guarded h fun _ _ _ => keeps_stage _

theorem keeps_applyOutputs (h : Kept T devices I) : Method.Keeps (Has I i) (applyOutputs T) := by
  refine keeps_guarded h fun dev hdev hg => ?_
  intro pd ok pd' hpd e
  rw [driveOutputs] at e
  split at e
  · exact keeps_fail _ _ _ _ hpd e
  rename_i op hop
  rw [hpd.2] at e
  refine Method.Keeps.bind (keeps_onChain (h.extest hdev hg hop)) (fun selected => ?_) _ _ _ hpd e
  cases selected with
  | false => exact keeps_fail _
  | true =>
    refine (keeps_onChain (h.write i pd.bsrData dev.boundaryLength)).bind fun written => ?_
    cases written with
    | false => exact keeps_fail _
    | true => exact .pure _

end PinDriver

/-! ### Scanners -/

namespace Scanner

/-- A scanner of device `i` of a chain with the property. -/
def Has (I : JtagChain σ → Prop) (i : ℤ) (sc : Scanner σ) : Prop := I sc.chain ∧ sc.deviceIndex = i

variable {i : ℤ}

theorem Has.bsdlDevice_eq (h : Kept T devices I) {sc : Scanner σ} (hsc : sc.Has I i) : sc.bsdlDevice = bsdlAt devices i := by
  rw [bsdlDevice, JtagChain.deviceAt, h.known hsc.1, hsc.2]
  rfl

theorem keeps_onChain {α : Type} {m : Method (JtagChain σ) α} (hm : Method.Keeps I m) :
    Method.Keeps (Has I i) (onChain m) :=
  hm.on (fun _ h => h.1) fun _ _ h hz => ⟨hz, h.2⟩

theorem keeps_fail (msg : Scanner σ → String) : Method.Keeps (Has I i) (fail msg) := by
  intro sc r sc' hsc e
  obtain ⟨-, rfl⟩ := Prod.mk.inj (Option.some.inj e)
  exact hsc

theorem keeps_sample (h : Kept T devices I) : Method.Keeps (Has I i) (sample T) := by
  intro sc r sc' hsc e
  have hb := hsc.bsdlDevice_eq h
  rw [sample] at e
  split at e
  · exact keeps_fail _ _ _ _ hsc e
  rename_i dev hdev
  split at e
  · exact keeps_fail _ _ _ _ hsc e
  rename_i op hop
  rw [hsc.2] at e
  refine Method.Keeps.bind (keeps_onChain (h.sample (hb ▸ hdev) hop)) (fun selected => ?_) _ _ _ hsc e
  cases selected with
  | false => exact keeps_fail _
  | true =>
    refine (keeps_onChain (h.idle 2)).bind fun _ => (keeps_onChain (h.read i [] _)).bind fun r => ?_
    obtain ⟨_ | _, raw⟩ := r
    · exact keeps_fail _
    · exact .pure _

end Scanner

/-! ### Benches -/

namespace Bench

/-- A bench whose chain has the property, with one scanner and one driver for each device. -/
structure Has (I : JtagChain σ → Prop) (b : Bench σ) : Prop where
  /-- The chain has the property. -/
  chain : I b.chain
  /-- The scanners are in their places. -/
  scanners : ∀ (i : ℕ) data, b.scanners[i]? = some (some data) → data.deviceIndex = i
  /-- So are the drivers. -/
  drivers : ∀ (i : ℕ) data, b.drivers[i]? = some (some data) → data.deviceIndex = i

theorem entry_eq_some {α : Type} {xs : List (Option α)} {i : ℤ} {x : α} (h : entry xs i = some (some x)) :
    ∃ k : ℕ, i = k ∧ xs[k]? = some (some x) := by
  rw [entry] at h
  split at h
  · cases h
  · refine ⟨i.toNat, by omega, ?_⟩
    exact Option.join_eq_some_iff.mp (Option.some.inj h)

theorem getElem?_set_some {α : Type} {xs : List (Option α)} {i j : ℕ} {x y : α} (h : (xs.set i (some x))[j]? = some (some y)) :
    (i = j ∧ x = y) ∨ xs[j]? = some (some y) := by
  rw [List.getElem?_set] at h
  split at h
  · rename_i hij
    split at h
    · exact .inl ⟨hij, Option.some.inj (Option.some.inj h)⟩
    · cases h
  · exact .inr h

theorem keeps_onDriver {α : Type} {i : ℕ} {data : DriverData} {m : Method (PinDriver σ) α} (hdata : data.deviceIndex = i)
    (hm : Method.Keeps (PinDriver.Has I i) m) : Method.Keeps (Has I) (onDriver i data m) := by
  refine hm.on (fun b hb => ⟨hb.chain, ?_⟩) fun b pd hb hpd => ⟨hpd.1, hb.scanners, fun j d hd => ?_⟩
  · show ((b.drivers[i]?).join.getD data).deviceIndex = i
    cases hget : (b.drivers[i]?).join with
    | none => exact hdata
    | some d => exact hb.drivers i d (Option.join_eq_some_iff.mp hget)
  · rcases getElem?_set_some hd with ⟨rfl, rfl⟩ | hold
    · exact hpd.2
    · exact hb.drivers j d hold

theorem keeps_onScanner {α : Type} {i : ℕ} {data : ScannerData} {m : Method (Scanner σ) α} (hdata : data.deviceIndex = i)
    (hm : Method.Keeps (Scanner.Has I i) m) : Method.Keeps (Has I) (onScanner i data m) := by
  refine hm.on (fun b hb => ⟨hb.chain, ?_⟩) fun b sc hb hsc => ⟨hsc.1, fun j d hd => ?_, hb.drivers⟩
  · show ((b.scanners[i]?).join.getD data).deviceIndex = i
    cases hget : (b.scanners[i]?).join with
    | none => exact hdata
    | some d => exact hb.scanners i d (Option.join_eq_some_iff.mp hget)
  · rcases getElem?_set_some hd with ⟨rfl, rfl⟩ | hold
    · exact hsc.2
    · exact hb.scanners j d hold

theorem keeps_drive (h : Kept T devices I) (driver : DevPin) (drivenVal : ℤ) : Method.Keeps (Has I) (drive T driver drivenVal) := by
  intro b ok b' hb e
  rw [drive] at e
  split at e
  · cases e
  · obtain ⟨-, rfl⟩ := Prod.mk.inj (Option.some.inj e)
    exact hb
  rename_i data hentry
  obtain ⟨k, hk, hget⟩ := entry_eq_some hentry
  have hdata := hb.drivers k data hget
  rw [hk, Int.toNat_natCast] at e
  have hallowed : Method.Keeps (PinDriver.Has I k) fun pd : PinDriver σ => some (pd.extestAllowed, pd) := by
    intro pd a pd' hpd e
    obtain ⟨-, rfl⟩ := Prod.mk.inj (Option.some.inj e)
    exact hpd
  refine (keeps_onDriver hdata hallowed).bind (fun allowed => ?_) _ _ _ hb e
  cases allowed with
  | false => exact .pure _
  | true =>
    exact (keeps_onDriver hdata (PinDriver.keeps_setPin h _ _)).bind fun _ =>
      keeps_onDriver hdata (PinDriver.keeps_applyOutputs h)

theorem keeps_sampleReceiver (h : Kept T devices I) (samples : List (Sampling σ)) (recv : DevPin) :
    Method.Keeps (Has I) (sampleReceiver T samples recv) := by
  intro b r b' hb e
  rw [sampleReceiver] at e
  split at e
  · obtain ⟨-, rfl⟩ := Prod.mk.inj (Option.some.inj e)
    exact hb
  split at e
  · cases e
  · obtain ⟨-, rfl⟩ := Prod.mk.inj (Option.some.inj e)
    exact hb
  rename_i data hentry
  obtain ⟨k, hk, hget⟩ := entry_eq_some hentry
  rw [hk, Int.toNat_natCast] at e
  obtain ⟨⟨scan, b₁⟩, hsample, e⟩ := Option.map_eq_some_iff.mp e
  obtain ⟨-, rfl⟩ := Prod.mk.inj e
  exact keeps_onScanner (hb.scanners k data hget) (Scanner.keeps_sample h) _ _ _ hb hsample

theorem keeps_sampleReceivers (h : Kept T devices I) (recvs : List DevPin) (samples : List (Sampling σ)) :
    Method.Keeps (Has I) (sampleReceivers T recvs samples) := by
  induction recvs generalizing samples with
  | nil => exact .pure _
  | cons recv recvs ih => exact (keeps_sampleReceiver h samples recv).bind ih

theorem keeps_runStep (h : Kept T devices I) (net : NetDef) (drivenVal : ℤ) : Method.Keeps (Has I) (runStep T net drivenVal) := by
  refine (keeps_drive h net.driver drivenVal).bind fun ok => ?_
  cases ok with
  | false => exact .pure _
  | true => exact (keeps_sampleReceivers h net.receivers []).bind fun _ => .pure _

theorem keeps_runNet (h : Kept T devices I) (net : NetDef) : Method.Keeps (Has I) (runNet T net) :=
  (keeps_runStep h net 0).bind fun _ => (keeps_runStep h net 1).bind fun _ => .pure _

theorem keeps_runNets (h : Kept T devices I) (nets : List NetDef) : Method.Keeps (Has I) (runNets T nets) := by
  induction nets with
  | nil => exact .pure _
  | cons net nets ih => exact (keeps_runNet h net).bind fun _ => ih.bind fun _ => .pure _

end Bench

/-- An interconnect test keeps it. -/
theorem keeps_runInterconnectTest (h : Kept T devices I) (nets : List NetDef) :
    Method.Keeps (Bench.Has I) (runInterconnectTest T nets) :=
  (Bench.keeps_runNets h nets).bind fun _ => .pure _

end OwlTap.BoundaryScan
