import OwlTap.BoundaryScan.AttachedDevice

/-!
# What EXTEST drives

An EXTEST session lasts from the UPDATE-IR that makes EXTEST the instruction in force to the
one that ends that. At its beginning the pins are driven with what the update latches hold,
before the staging buffer is shifted out. A capture has left zeros there: SAMPLE is PRELOAD
too, and `readBSR` shifts zeros in. So a session begins with the staged bits if and only if
these are zeros.
-/

namespace OwlTap.BoundaryScan

open OwlTap Ftdi Bsdl Jtag

/-! ### Runs -/

namespace PinDriver

/-- The device that is driven. -/
def target (pd : PinDriver (List (Device BoundaryDevice))) : Option BoundaryDevice :=
  pd.chain.tap.cores[pd.deviceIndex.toNat]?

/-- What its pins have been driven with. -/
def driven (pd : PinDriver (List (Device BoundaryDevice))) : List (List Bool) :=
  (pd.target.map BoundaryDevice.driven).getD []

/-- EXTEST is the instruction in force in it. -/
def inExtest (pd : PinDriver (List (Device BoundaryDevice))) : Bool :=
  pd.target.any fun d => d.instruction = some d.spec.extest

/-- The staged bits of the boundary register. -/
def staged {σ : Type} (pd : PinDriver σ) : List Bool :=
  match pd.bsdl with
  | none => []
  | some dev => bits pd.bsrData dev.boundaryLength

/-- `applyOutputs` goes ahead: it is not refused, and the model has an EXTEST opcode. -/
def CanDrive {σ : Type} (pd : PinDriver σ) : Prop :=
  pd.extestAllowed = true ∧ ∃ dev op, pd.bsdl = some dev ∧ dev.extestOpcode = some op

end PinDriver

/-- One operation of a run. -/
structure PinStep where
  /-- The driver before it. -/
  before : PinDriver (List (Device BoundaryDevice))
  /-- The operation. -/
  op : PinOp
  /-- Its result. -/
  ok : Bool
  /-- The driver after it. -/
  after : PinDriver (List (Device BoundaryDevice))

namespace PinStep

/-- What the pins were driven with during the operation. -/
def newlyDriven (s : PinStep) : List (List Bool) := s.after.driven.drop s.before.driven.length

/-- What was applied last in the EXTEST session: none outside a session, and until something is applied. -/
def session (s : PinStep) (applied : Option (List Bool)) : Option (List Bool) :=
  if s.after.inExtest then if s.op = .applyOutputs ∧ s.ok then some s.after.staged else applied else none

/-- The pins are driven with the staging buffer being applied, or the one applied before in the session. -/
def StagedOnly (s : PinStep) (applied : Option (List Bool)) : Prop :=
  ∀ b ∈ s.newlyDriven, (s.op = .applyOutputs ∧ b = s.after.staged) ∨ applied = some b

/-- If the operation enters EXTEST, it is the bits `base` that are staged. -/
def EntersWith (base : List Bool) (s : PinStep) (applied : Option (List Bool)) : Prop :=
  s.op = .applyOutputs → s.before.CanDrive → applied = none → s.before.staged = base

end PinStep

/-- The steps of a run of operations. -/
def PinDriver.steps : List PinOp → PinDriver (List (Device BoundaryDevice)) → Option (List PinStep)
  | [], _ => some []
  | op :: ops, pd => do
    let (ok, pd') ← op.run (Target.chain BoundaryDevice.logic) pd
    let rest ← steps ops pd'
    some (⟨pd, op, ok, pd'⟩ :: rest)

/-- A property of every step of a run, and of what was applied last before it. -/
def Throughout (P : PinStep → Option (List Bool) → Prop) : Option (List Bool) → List PinStep → Prop
  | _, [] => True
  | applied, s :: ss => P s applied ∧ Throughout P (s.session applied) ss

/-! ### The invariant -/

/-- What is known of a driver between two operations. -/
structure Driving (pd : PinDriver (List (Device BoundaryDevice))) (k : ℕ) (dev : BSDLDevice) (base : List Bool)
    (applied : Option (List Bool)) (d : BoundaryDevice) : Prop where
  /-- The driver is the one of device `k`. -/
  index : pd.deviceIndex = k
  /-- The chain is attached. -/
  attached : Attached pd.chain k dev d
  /-- The staging buffer covers the boundary register. -/
  staging : bytesFor dev.boundaryLength ≤ pd.bsrData.length
  /-- The latches hold what was applied last in the session, or `base`. -/
  latches : d.latches = applied.getD base
  /-- In a session, EXTEST is in force. -/
  extest : applied ≠ none → d.instruction = some d.spec.extest

section

variable {pd : PinDriver (List (Device BoundaryDevice))} {k : ℕ} {dev : BSDLDevice} {d : BoundaryDevice}

theorem target_of_attached (hi : pd.deviceIndex = k) (h : Attached pd.chain k dev d) : pd.target = some d := by
  rw [PinDriver.target, hi, Int.toNat_natCast]
  exact h.device

theorem driven_of_attached (hi : pd.deviceIndex = k) (h : Attached pd.chain k dev d) : pd.driven = d.driven := by
  rw [PinDriver.driven, target_of_attached hi h]
  rfl

theorem inExtest_of_attached (hi : pd.deviceIndex = k) (h : Attached pd.chain k dev d) :
    pd.inExtest = decide (d.instruction = some d.spec.extest) := by
  rw [PinDriver.inExtest, target_of_attached hi h, Option.any_some]

theorem bsdl_of_attached (hi : pd.deviceIndex = k) (h : Attached pd.chain k dev d) : pd.bsdl = some dev := by
  rw [PinDriver.bsdl, hi, JtagChain.deviceAt_of_lt h.lt_devices, Option.bind_some]
  exact h.bsdl_getElem h.lt_devices

theorem staged_of_attached (hi : pd.deviceIndex = k) (h : Attached pd.chain k dev d) :
    pd.staged = bits pd.bsrData dev.boundaryLength := by
  unfold PinDriver.staged
  rw [bsdl_of_attached hi h]

theorem onChain_of_eq {σ α : Type} {m : Method (JtagChain σ) α} (pd : PinDriver σ) {a : α} {chain : JtagChain σ}
    (h : m pd.chain = some (a, chain)) : PinDriver.onChain m pd = some (a, { pd with chain }) :=
  Method.on_of_eq _ h

/-- Without a SAMPLE opcode nothing is captured. -/
theorem captureCurrentState_none (hi : pd.deviceIndex = k) (h : Attached pd.chain k dev d)
    (hs : dev.sampleOpcode = none) :
    PinDriver.captureCurrentState (Target.chain BoundaryDevice.logic) pd =
      some (false, { pd with lastError := "SAMPLE instruction not found in BSDL" }) := by
  unfold PinDriver.captureCurrentState
  simp only [bsdl_of_attached hi h, hs]
  rfl

/-- A capture leaves SAMPLE in force and zeros in the latches. -/
theorem captureCurrentState_some (hi : pd.deviceIndex = k) (h : Attached pd.chain k dev d) {op : BitVec 32}
    (hs : dev.sampleOpcode = some op) :
    ∃ pd', PinDriver.captureCurrentState (Target.chain BoundaryDevice.logic) pd = some (true, pd') ∧
      pd'.deviceIndex = k ∧ bytesFor dev.boundaryLength ≤ pd'.bsrData.length ∧
      Attached pd'.chain k dev ((d.updateIr d.spec.sample).updateDr (List.replicate dev.boundaryLength false)) := by
  obtain ⟨tap₁, e₁, h₁, hb₁⟩ := h.selectInstruction op
  rw [h.describes.sample op hs] at h₁
  obtain ⟨tap₂, e₂, h₂, hb₂⟩ := h₁.clkIdle hb₁ 2
  obtain ⟨tap₃, raw, e₃, h₃⟩ := h₂.readBSR hb₂ (.inr rfl)
  have e₁' := onChain_of_eq pd e₁
  have e₂' := onChain_of_eq { pd with chain := { pd.chain with tap := tap₁ } } e₂
  have e₃' := onChain_of_eq { pd with chain := { pd.chain with tap := tap₂ } } e₃
  obtain ⟨pd₃, hpd₃, hi₃, h₃'⟩ : ∃ pd₃ : PinDriver (List (Device BoundaryDevice)),
      pd₃ = { pd with chain := { pd.chain with tap := tap₃ } } ∧ pd₃.deviceIndex = k ∧
      Attached pd₃.chain k dev ((d.updateIr d.spec.sample).updateDr (List.replicate dev.boundaryLength false)) :=
    ⟨_, rfl, hi, h₃⟩
  refine ⟨pd₃.loadSnapshot raw, ?_, ?_⟩
  · unfold PinDriver.captureCurrentState
    simp only [bsdl_of_attached hi h, hs, hi]
    rw [Method.bind_of_eq _ e₁', if_pos rfl, Method.bind_of_eq _ e₂', Method.bind_of_eq _ e₃', if_pos rfl,
      Method.modify_bind, Method.pure_apply, hpd₃]
  · unfold PinDriver.loadSnapshot
    rw [bsdl_of_attached hi₃ h₃']
    exact ⟨hi₃, bytesFor_le_snapshot dev raw, h₃'⟩

/-- To apply the outputs is to make EXTEST the instruction in force, and then to load the latches. -/
theorem driveOutputs_some (hi : pd.deviceIndex = k) (h : Attached pd.chain k dev d) {op : BitVec 32}
    (hs : dev.extestOpcode = some op) (hl : bytesFor dev.boundaryLength ≤ pd.bsrData.length) :
    ∃ tap, PinDriver.driveOutputs (Target.chain BoundaryDevice.logic) dev pd =
        some (true, { pd with chain := { pd.chain with tap } }) ∧
      Attached { pd.chain with tap } k dev
        ((d.updateIr d.spec.extest).updateDr (bits pd.bsrData dev.boundaryLength)) := by
  obtain ⟨tap₁, e₁, h₁, hb₁⟩ := h.selectInstruction op
  rw [h.describes.extest op hs] at h₁
  obtain ⟨tap₂, e₂, h₂⟩ := h₁.writeBSR hb₁ (.inl rfl) hl
  have e₁' := onChain_of_eq pd e₁
  have e₂' := onChain_of_eq { pd with chain := { pd.chain with tap := tap₁ } } e₂
  refine ⟨tap₂, ?_, h₂⟩
  unfold PinDriver.driveOutputs
  simp only [hs, hi]
  rw [Method.bind_of_eq _ e₁', if_pos rfl, Method.bind_of_eq _ e₂', if_pos rfl, Method.pure_apply]

end

/-! ### One operation -/

section

variable {k : ℕ} {dev : BSDLDevice} {base : List Bool} {applied : Option (List Bool)} {d : BoundaryDevice}

/-- The two updates of an application drive the pins twice: with what the latches held, and with the
staged bits. -/
theorem driven_apply (d : BoundaryDevice) (b : List Bool) :
    ((d.updateIr d.spec.extest).updateDr b).driven = d.driven ++ [d.latches, b] := by
  simp [BoundaryDevice.updateDr, BoundaryDevice.updateIr, BoundaryDevice.drive, BoundaryDevice.Boundary]

theorem latches_apply (d : BoundaryDevice) (b : List Bool) :
    ((d.updateIr d.spec.extest).updateDr b).latches = b := by
  simp [BoundaryDevice.updateDr, BoundaryDevice.updateIr, BoundaryDevice.Boundary]

/-- The two updates of a capture drive nothing. -/
theorem driven_capture {d : BoundaryDevice} (hne : d.spec.sample ≠ d.spec.extest) (b : List Bool) :
    ((d.updateIr d.spec.sample).updateDr b).driven = d.driven := by
  simp [BoundaryDevice.updateDr, BoundaryDevice.updateIr, BoundaryDevice.drive, hne]

theorem latches_capture (d : BoundaryDevice) (b : List Bool) :
    ((d.updateIr d.spec.sample).updateDr b).latches = b := by
  simp [BoundaryDevice.updateDr, BoundaryDevice.updateIr, BoundaryDevice.Boundary]

/-- An operation that makes no scan. -/
theorem Driving.quiet {s : PinStep} (h : Driving s.before k dev base applied d)
    (hi : s.after.deviceIndex = s.before.deviceIndex) (hc : s.after.chain = s.before.chain)
    (hl : bytesFor dev.boundaryLength ≤ s.after.bsrData.length) (hop : ¬(s.op = .applyOutputs ∧ s.ok = true)) :
    Driving s.after k dev base (s.session applied) d ∧ s.newlyDriven = [] := by
  have ha : Attached s.after.chain k dev d := hc ▸ h.attached
  have hi' : s.after.deviceIndex = k := hi.trans h.index
  have hsession : s.session applied = applied := by
    rw [PinStep.session, inExtest_of_attached hi' ha, if_neg hop]
    cases applied with
    | none => exact ite_self _
    | some b => exact if_pos (decide_eq_true (h.extest (by simp)))
  refine ⟨hsession.symm ▸ ⟨hi', ha, hl, h.latches, h.extest⟩, ?_⟩
  rw [PinStep.newlyDriven, driven_of_attached hi' ha, driven_of_attached h.index h.attached, List.drop_length]

/-- An operation that makes no scan and applies nothing. -/
theorem Driving.quiet_step {s : PinStep} (h : Driving s.before k dev base applied d)
    (hi : s.after.deviceIndex = s.before.deviceIndex) (hc : s.after.chain = s.before.chain)
    (hl : bytesFor dev.boundaryLength ≤ s.after.bsrData.length) (hop : ¬(s.op = .applyOutputs ∧ s.ok = true))
    (hdrive : ¬(s.op = .applyOutputs ∧ s.before.CanDrive)) :
    (∃ d', Driving s.after k dev base (s.session applied) d') ∧ (s.StagedOnly applied ↔ s.EntersWith base applied) := by
  obtain ⟨h', hnil⟩ := h.quiet hi hc hl hop
  refine ⟨⟨d, h'⟩, fun _ hap hcan => absurd ⟨hap, hcan⟩ hdrive, fun _ b hb => ?_⟩
  rw [hnil] at hb
  cases hb

/-- A staging operation changes the staging buffer only. -/
theorem stage_spec {σ : Type} (pd : PinDriver σ) {f : List Byte → Except String (List Byte)}
    (hf : ∀ buf buf', f buf = .ok buf' → buf.length ≤ buf'.length) :
    ∃ ok pd', PinDriver.stage f pd = some (ok, pd') ∧ pd'.deviceIndex = pd.deviceIndex ∧ pd'.chain = pd.chain ∧
      pd.bsrData.length ≤ pd'.bsrData.length := by
  unfold PinDriver.stage
  cases h : f pd.bsrData with
  | error e => exact ⟨false, _, rfl, rfl, rfl, le_refl _⟩
  | ok buf => exact ⟨true, _, rfl, rfl, rfl, hf _ _ h⟩

theorem Driving.bsrData_ne_nil {pd : PinDriver (List (Device BoundaryDevice))} (h : Driving pd k dev base applied d) :
    pd.bsrData ≠ [] := by
  have hl := h.staging
  have hc := h.attached.describes.cell
  rw [← h.attached.describes.boundary] at hc
  intro hnil
  rw [hnil, bytesFor, List.length_nil] at hl
  omega

/-- So does a guarded one. -/
theorem guarded_stage_spec {pd : PinDriver (List (Device BoundaryDevice))} (h : Driving pd k dev base applied d)
    {f : BSDLDevice → List Byte → Except String (List Byte)}
    (hf : ∀ buf buf', f dev buf = .ok buf' → buf.length ≤ buf'.length) :
    ∃ ok pd', PinDriver.guarded (Target.chain BoundaryDevice.logic) (fun dev => PinDriver.stage (f dev)) pd =
        some (ok, pd') ∧ pd'.deviceIndex = pd.deviceIndex ∧ pd'.chain = pd.chain ∧
      pd.bsrData.length ≤ pd'.bsrData.length := by
  have hb := bsdl_of_attached h.index h.attached
  cases hg : (deviceAllowsLiveExtest dev).1 with
  | false => exact ⟨false, _, PinDriver.guarded_of_blocked _ hb hg _, rfl, rfl, le_refl _⟩
  | true =>
    rw [PinDriver.guarded_of_allowed _ hb hg h.bsrData_ne_nil]
    exact stage_spec pd hf

/-- What the latches hold when nothing has been applied: zeros after a capture, and what they held at
first when the model has no SAMPLE opcode and nothing is ever captured. -/
def baseline (dev : BSDLDevice) (d : BoundaryDevice) : List Bool :=
  if dev.sampleOpcode.isSome then List.replicate dev.boundaryLength false else d.latches

/-- A driver whose last capture went through is outside an EXTEST session, with zeros in the latches. -/
theorem driving_of_capture {pd : PinDriver (List (Device BoundaryDevice))} {d₀ : BoundaryDevice}
    (hi : pd.deviceIndex = k) (hl : bytesFor dev.boundaryLength ≤ pd.bsrData.length)
    (h : Attached pd.chain k dev ((d.updateIr d.spec.sample).updateDr (List.replicate dev.boundaryLength false)))
    {op : BitVec 32} (hs : dev.sampleOpcode = some op) :
    Driving pd k dev (baseline dev d₀) none
      ((d.updateIr d.spec.sample).updateDr (List.replicate dev.boundaryLength false)) := by
  refine ⟨hi, h, hl, ?_, fun hne => absurd rfl hne⟩
  rw [latches_capture, Option.getD_none, baseline, hs]
  rfl

theorem Driving.extestAllowed {pd : PinDriver (List (Device BoundaryDevice))} (h : Driving pd k dev base applied d) :
    pd.extestAllowed = (deviceAllowsLiveExtest dev).1 := by
  unfold PinDriver.extestAllowed
  rw [bsdl_of_attached h.index h.attached]

/-- An application drives what the latches hold, and then the staged bits. -/
theorem Driving.apply_step {pd : PinDriver (List (Device BoundaryDevice))} (h : Driving pd k dev base applied d)
    (hcan : pd.CanDrive) {tap : TapController (List (Device BoundaryDevice))}
    (ha' : Attached { pd.chain with tap } k dev
      ((d.updateIr d.spec.extest).updateDr (bits pd.bsrData dev.boundaryLength))) {s : PinStep}
    (hs : s = ⟨pd, .applyOutputs, true, { pd with chain := { pd.chain with tap } }⟩) :
    (∃ d', Driving s.after k dev base (s.session applied) d') ∧ (s.StagedOnly applied ↔ s.EntersWith base applied) := by
  have hi' : s.after.deviceIndex = k := by rw [hs]; exact h.index
  have ha : Attached s.after.chain k dev
      ((d.updateIr d.spec.extest).updateDr (bits pd.bsrData dev.boundaryLength)) := by rw [hs]; exact ha'
  have hop : s.op = .applyOutputs := by rw [hs]
  have hok : s.ok = true := by rw [hs]
  have hbefore : s.before = pd := by rw [hs]
  have hdata : s.after.bsrData = pd.bsrData := by rw [hs]
  have hstaged : s.before.staged = s.after.staged := by
    rw [staged_of_attached hi' ha, hbefore, staged_of_attached h.index h.attached, hdata]
  have hbits : s.after.staged = bits pd.bsrData dev.boundaryLength := by rw [staged_of_attached hi' ha, hdata]
  have hsession : s.session applied = some s.after.staged := by
    have hin : ((d.updateIr d.spec.extest).updateDr (bits pd.bsrData dev.boundaryLength)).instruction =
      some ((d.updateIr d.spec.extest).updateDr (bits pd.bsrData dev.boundaryLength)).spec.extest := rfl
    rw [PinStep.session, inExtest_of_attached hi' ha, if_pos (decide_eq_true hin), if_pos ⟨hop, hok⟩]
  have hnew : s.newlyDriven = [d.latches, s.after.staged] := by
    rw [PinStep.newlyDriven, driven_of_attached hi' ha, hbefore, driven_of_attached h.index h.attached, driven_apply,
      List.drop_left, hbits]
  have hdriving : Driving s.after k dev base (some s.after.staged)
      ((d.updateIr d.spec.extest).updateDr (bits pd.bsrData dev.boundaryLength)) := by
    refine ⟨hi', ha, by rw [hdata]; exact h.staging, ?_, fun _ => rfl⟩
    rw [latches_apply, Option.getD_some, hbits]
  refine ⟨⟨_, hsession.symm ▸ hdriving⟩, ?_⟩
  · rw [PinStep.StagedOnly, PinStep.EntersWith, hnew, hstaged]
    cases applied with
    | some b =>
      refine ⟨fun _ _ _ hnone => absurd hnone (by simp), fun _ b' hmem => ?_⟩
      rcases List.mem_cons.mp hmem with rfl | hmem
      · exact .inr (by rw [h.latches, Option.getD_some])
      · exact .inl ⟨hop, List.mem_singleton.mp hmem⟩
    | none =>
      have hlatches : d.latches = base := h.latches
      constructor
      · intro hall _ _ _
        rcases hall d.latches List.mem_cons_self with ⟨-, he⟩ | he
        · rw [← he, hlatches]
        · cases he
      · intro henter b' hmem
        have he := henter hop (hbefore ▸ hcan) rfl
        rcases List.mem_cons.mp hmem with rfl | hmem
        · exact .inl ⟨hop, hlatches.trans he.symm⟩
        · exact .inl ⟨hop, List.mem_singleton.mp hmem⟩

/-- One operation: it goes through, and drives staged bits only if and only if it enters EXTEST with
the bits that the latches hold. -/
theorem Driving.step {pd : PinDriver (List (Device BoundaryDevice))} {d₀ : BoundaryDevice}
    (h : Driving pd k dev (baseline dev d₀) applied d) (op : PinOp) :
    ∃ ok pd', op.run (Target.chain BoundaryDevice.logic) pd = some (ok, pd') ∧
      (∃ d', Driving pd' k dev (baseline dev d₀) ((PinStep.mk pd op ok pd').session applied) d') ∧
      ((PinStep.mk pd op ok pd').StagedOnly applied ↔ (PinStep.mk pd op ok pd').EntersWith (baseline dev d₀) applied) := by
  have hb := bsdl_of_attached h.index h.attached
  cases op with
  | captureCurrentState =>
    cases hs : dev.sampleOpcode with
    | none =>
      exact ⟨false, _, captureCurrentState_none h.index h.attached hs,
        Driving.quiet_step (s := ⟨pd, .captureCurrentState, false, _⟩) h rfl rfl h.staging (by simp) (by simp)⟩
    | some code =>
      obtain ⟨pd', e, hi', hl', ha'⟩ := captureCurrentState_some h.index h.attached hs
      have hsession : (PinStep.mk pd .captureCurrentState true pd').session applied = none := by
        have hne : (((d.updateIr d.spec.sample).updateDr (List.replicate dev.boundaryLength false)).instruction =
            some ((d.updateIr d.spec.sample).updateDr (List.replicate dev.boundaryLength false)).spec.extest) ↔
              d.spec.sample = d.spec.extest := by
          simp [BoundaryDevice.updateDr, BoundaryDevice.updateIr]
        rw [PinStep.session, inExtest_of_attached hi' ha', decide_eq_false (fun he => h.attached.describes.ne (hne.mp he))]
        rfl
      have hdriving : Driving pd' k dev (baseline dev d₀) none _ := driving_of_capture hi' hl' ha' hs
      refine ⟨true, pd', e, ⟨_, hsession.symm ▸ hdriving⟩, fun _ hap => by simp at hap, fun _ b hmem => ?_⟩
      · rw [PinStep.newlyDriven, driven_of_attached hi' ha', driven_of_attached h.index h.attached,
          driven_capture h.attached.describes.ne, List.drop_length] at hmem
        cases hmem
  | setPin pinName value =>
    obtain ⟨ok, pd', e, hi, hc, hl⟩ := guarded_stage_spec h
      (f := fun dev bsrData => stagePinOutput bsrData dev pinName value) fun _ _ he => length_le_stagePinOutput he
    exact ⟨ok, pd', e, Driving.quiet_step (s := ⟨pd, .setPin pinName value, ok, pd'⟩) h hi hc (h.staging.trans hl)
      (by simp) (by simp)⟩
  | setPinHighZ pinName =>
    obtain ⟨ok, pd', e, hi, hc, hl⟩ := guarded_stage_spec h
      (f := fun dev bsrData => stagePinHighZ bsrData dev pinName) fun _ _ he => length_le_stagePinHighZ he
    exact ⟨ok, pd', e, Driving.quiet_step (s := ⟨pd, .setPinHighZ pinName, ok, pd'⟩) h hi hc (h.staging.trans hl)
      (by simp) (by simp)⟩
  | resetToSafe =>
    have e : pd.resetToSafe = { pd with bsrData := initBsrFromSafeValues dev } := by
      unfold PinDriver.resetToSafe PinDriver.initBsrFromSafe
      rw [hb]
    refine ⟨true, pd.resetToSafe, rfl, Driving.quiet_step (s := ⟨pd, .resetToSafe, true, pd.resetToSafe⟩) h ?_ ?_ ?_
      (by simp) (by simp)⟩
    · rw [e]
    · rw [e]
    · rw [e]
      exact bytesFor_le_safeValues dev
  | applyOutputs =>
    have hrun : PinOp.applyOutputs.run (Target.chain BoundaryDevice.logic) pd =
      PinDriver.guarded _ (PinDriver.driveOutputs _) pd := rfl
    cases hg : (deviceAllowsLiveExtest dev).1 with
    | false =>
      refine ⟨false, _, hrun.trans (PinDriver.guarded_of_blocked _ hb hg _),
        Driving.quiet_step (s := ⟨pd, .applyOutputs, false, _⟩) h rfl rfl h.staging (by simp) ?_⟩
      rintro ⟨-, hallowed, -⟩
      rw [h.extestAllowed, hg] at hallowed
      cases hallowed
    | true =>
      have hgo := hrun.trans (PinDriver.guarded_of_allowed _ hb hg h.bsrData_ne_nil _)
      cases hs : dev.extestOpcode with
      | none =>
        have e : PinDriver.driveOutputs (Target.chain BoundaryDevice.logic) dev pd =
            some (false, { pd with lastError := "EXTEST instruction not found in BSDL" }) := by
          unfold PinDriver.driveOutputs
          rw [hs]
          rfl
        refine ⟨false, _, hgo.trans e, Driving.quiet_step (s := ⟨pd, .applyOutputs, false, _⟩) h rfl rfl h.staging
          (by simp) ?_⟩
        rintro ⟨-, -, dev', code, hb', hs'⟩
        rw [hb, Option.some.injEq] at hb'
        rw [← hb', hs] at hs'
        cases hs'
      | some code =>
        have hcan : pd.CanDrive := ⟨h.extestAllowed.trans hg, dev, code, hb, hs⟩
        obtain ⟨tap, e, ha'⟩ := driveOutputs_some h.index h.attached hs h.staging
        exact ⟨true, _, hgo.trans e, h.apply_step hcan ha' rfl⟩

/-- A run of operations. -/
theorem Driving.steps {pd : PinDriver (List (Device BoundaryDevice))} {d₀ : BoundaryDevice}
    (h : Driving pd k dev (baseline dev d₀) applied d) (ops : List PinOp) :
    ∃ ss, pd.steps ops = some ss ∧ (Throughout PinStep.StagedOnly applied ss ↔
      Throughout (PinStep.EntersWith (baseline dev d₀)) applied ss) := by
  induction ops generalizing pd applied d with
  | nil => exact ⟨[], rfl, Iff.rfl⟩
  | cons op ops ih =>
    obtain ⟨ok, pd', e, ⟨d', h'⟩, hiff⟩ := h.step op
    obtain ⟨ss, es, hiffs⟩ := ih h'
    refine ⟨⟨pd, op, ok, pd'⟩ :: ss, ?_, and_congr hiff hiffs⟩
    unfold PinDriver.steps
    simp only [e, es, Option.bind_eq_bind, Option.bind_some]

/-- A new driver: nothing has been driven, and no session has begun. -/
theorem create_driving {c : JtagChain (List (Device BoundaryDevice))} (h : Attached c k dev d) :
    ∃ pd d', PinDriver.create (Target.chain BoundaryDevice.logic) c k = some pd ∧ pd.driven = d.driven ∧
      Driving pd k dev (baseline dev d) none d' := by
  obtain ⟨pd₀, hpd₀⟩ : ∃ pd₀ : PinDriver (List (Device BoundaryDevice)), pd₀ = { deviceIndex := k, chain := c } :=
    ⟨_, rfl⟩
  have hi : pd₀.deviceIndex = k := by rw [hpd₀]
  have ha : Attached pd₀.chain k dev d := by rw [hpd₀]; exact h
  have hcreate : PinDriver.create (Target.chain BoundaryDevice.logic) c k =
      (PinDriver.captureCurrentState (Target.chain BoundaryDevice.logic) pd₀).map
        fun (ok, pd) => if ok then pd else pd.initBsrFromSafe := by
    have hready : pd₀.isReady = true := by
      rw [PinDriver.isReady, bsdl_of_attached hi ha]
      rfl
    rw [PinDriver.create, ← hpd₀]
    exact if_pos hready
  cases hs : dev.sampleOpcode with
  | none =>
    obtain ⟨pd, hpd⟩ : ∃ pd : PinDriver (List (Device BoundaryDevice)), pd =
        { pd₀ with bsrData := initBsrFromSafeValues dev, lastError := "SAMPLE instruction not found in BSDL" } :=
      ⟨_, rfl⟩
    have hi' : pd.deviceIndex = k := by rw [hpd]; exact hi
    have ha' : Attached pd.chain k dev d := by rw [hpd]; exact ha
    refine ⟨pd, d, ?_, driven_of_attached hi' ha', hi', ha', ?_, ?_, fun hne => absurd rfl hne⟩
    · rw [hcreate, captureCurrentState_none hi ha hs, hpd]
      have hb : PinDriver.bsdl { pd₀ with lastError := "SAMPLE instruction not found in BSDL" } = some dev :=
        bsdl_of_attached hi ha
      simp only [Option.map_some, Bool.false_eq_true, if_false]
      unfold PinDriver.initBsrFromSafe
      rw [hb]
    · rw [hpd]
      exact bytesFor_le_safeValues dev
    · rw [Option.getD_none, baseline, hs]
      rfl
  | some code =>
    obtain ⟨pd, e, hi', hl', ha'⟩ := captureCurrentState_some hi ha hs
    refine ⟨pd, _, ?_, ?_, driving_of_capture hi' hl' ha' hs⟩
    · rw [hcreate, e]
      rfl
    · rw [driven_of_attached hi' ha', driven_capture ha.describes.ne]

/-- **What EXTEST drives.** Construct a driver for a device of a chain at rest, with a model that
describes the device, and perform any operations. Every one of them goes through, and the
construction drives nothing. The pins are driven with the staging buffer being applied, or with
the one applied before in the same EXTEST session, and with nothing else, if and only if every
`applyOutputs` that begins a session has staged what a capture leaves in the latches: zeros. -/
theorem staged_only_iff {c : JtagChain (List (Device BoundaryDevice))} (h : Attached c k dev d) (ops : List PinOp) :
    ∃ pd ss, PinDriver.create (Target.chain BoundaryDevice.logic) c k = some pd ∧ pd.driven = d.driven ∧
      pd.steps ops = some ss ∧ (Throughout PinStep.StagedOnly none ss ↔
        Throughout (PinStep.EntersWith (baseline dev d)) none ss) := by
  obtain ⟨pd, d', e, hd, h'⟩ := create_driving h
  obtain ⟨ss, es, hiff⟩ := h'.steps ops
  exact ⟨pd, ss, e, hd, es, hiff⟩

end

/-! ### A pin that is staged high -/

/-- A device with a boundary register of one cell. -/
def lampSpec : BoundarySpec := ⟨2, [false, false], [true, false], 1, [false], zero_ne_bypass, one_ne_bypass⟩

/-- Its model: the cell drives the pin `LAMP`. -/
def lampModel : BSDLDevice where
  instructionLength := 2
  instructions := (AList.singleton "EXTEST".toList (0 : BitVec 32)).insert "SAMPLE".toList 1
  boundaryLength := 1
  boundaryCells := [{ position := 0, pinName := "LAMP".toList, function := .output2 }]
  pins := AList.singleton "LAMP".toList { name := "LAMP".toList, direction := .out }

/-- A chain of this device alone. -/
def lampChain : JtagChain (List (Device BoundaryDevice)) :=
  JtagChain.idle [{ position := 0, idcode := 0, irLength := 2, bsdl := some lampModel }] [⟨.powered lampSpec, []⟩]

theorem lampChain_attached : Attached lampChain 0 lampModel (.powered lampSpec) where
  rest := ⟨JtagChain.idle_synced _ _, rfl, JtagChain.idle_delivers _ _⟩
  widths := ⟨rfl, by simp [lampChain, JtagChain.idle]⟩
  loaded := rfl
  device := rfl
  describes := by
    have hs : lampModel.sampleOpcode = some 1 := by decide +kernel
    have he : lampModel.extestOpcode = some 0 := by decide +kernel
    refine ⟨rfl, by decide, fun op h => ?_, fun op h => ?_, by decide⟩
    · rw [hs, Option.some.injEq] at h
      rw [← h]
      decide
    · rw [he, Option.some.injEq] at h
      rw [← h]
      decide

/-- Light the lamp. -/
def lampOps : List PinOp := [.setPin "LAMP".toList 1, .applyOutputs]

/-- What shows of a step. -/
def PinStep.summary (s : PinStep) : PinOp × List (List Bool) × List Bool := (s.op, s.newlyDriven, s.after.staged)

/-- The run: what was driven in each operation, and what was staged after it. -/
theorem lamp_run :
    ((PinDriver.create (Target.chain BoundaryDevice.logic) lampChain 0).bind fun pd => pd.steps lampOps).map
        (List.map PinStep.summary) = some [(.setPin "LAMP".toList 1, [], [true]), (.applyOutputs, [[false], [true]], [true])] := by
  decide +kernel

theorem staged_only_lamp :
    ∃ pd ss, PinDriver.create (Target.chain BoundaryDevice.logic) lampChain (0 : ℕ) = some pd ∧
      pd.steps lampOps = some ss ∧ (Throughout PinStep.StagedOnly none ss ↔
        Throughout (PinStep.EntersWith [false]) none ss) := by
  obtain ⟨pd, ss, e, -, es, hiff⟩ := staged_only_iff lampChain_attached lampOps
  have hbase : baseline lampModel (.powered lampSpec) = [false] := by decide +kernel
  exact ⟨pd, ss, e, es, by rwa [hbase] at hiff⟩

/-- The lamp is staged high, but the pin is driven low first. -/
theorem lamp_driven_low :
    Attached lampChain 0 lampModel (.powered lampSpec) ∧
      ∃ pd ss, PinDriver.create (Target.chain BoundaryDevice.logic) lampChain 0 = some pd ∧
        pd.steps lampOps = some ss ∧ ¬Throughout PinStep.StagedOnly none ss := by
  obtain ⟨ss, hss, hmap⟩ := Option.map_eq_some_iff.mp lamp_run
  obtain ⟨pd, hpd, hsteps⟩ := Option.bind_eq_some_iff.mp hss
  refine ⟨lampChain_attached, pd, ss, hpd, hsteps, ?_⟩
  obtain ⟨s₁, ss, rfl, hs₁, hmap⟩ := List.map_eq_cons_iff.mp hmap
  obtain ⟨s₂, ss, rfl, hs₂, -⟩ := List.map_eq_cons_iff.mp hmap
  rintro ⟨-, hall, -⟩
  have hdriven : s₂.newlyDriven = [[false], [true]] := congrArg (fun r => r.2.1) hs₂
  have hstaged : s₂.after.staged = [true] := congrArg (fun r => r.2.2) hs₂
  have hop : s₁.op ≠ .applyOutputs := by
    rw [show s₁.op = .setPin "LAMP".toList 1 from congrArg Prod.fst hs₁]
    simp
  have hnone : s₁.session none = none := by
    rw [PinStep.session, if_neg (show ¬(s₁.op = .applyOutputs ∧ s₁.ok = true) from fun h => hop h.1), ite_self]
  rcases hall [false] (by rw [hdriven]; exact List.mem_cons_self) with ⟨-, he⟩ | he
  · rw [hstaged] at he
    cases he
  · rw [hnone] at he
    cases he

end OwlTap.BoundaryScan
