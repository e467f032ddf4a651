import OwlTap.BoundaryScan.StagedWrites

/-!
# What setting a pin stages

`setPin` and `setPinHighZ` change the staging buffer with one function of the model, the pin and the
value (`PinRequest.stage`); whether this succeeds does not depend on the buffer. What is written
afterwards is this buffer (`writeCall_contents`), and it is written if and only if the model has an
EXTEST opcode and both scans succeed (`drives`).
-/

namespace OwlTap.BoundaryScan

open OwlTap Ftdi Bsdl Jtag

/-- A pin and what it is to be driven to, with a negative value for high impedance. -/
structure PinRequest where
  pinName : Text
  value : ℤ
  deriving DecidableEq

namespace PinRequest

/-- What a request makes of a staging buffer. -/
def stage (r : PinRequest) (dev : BSDLDevice) (bsrData : List Byte) : Except String (List Byte) :=
  if r.value < 0 then stagePinHighZ bsrData dev r.pinName else stagePinOutput bsrData dev r.pinName r.value

/-- It fails in every buffer, or in none. -/
theorem stage_cases (r : PinRequest) (dev : BSDLDevice) :
    (∃ msg, ∀ buf, r.stage dev buf = .error msg) ∨ ∀ buf, ∃ buf', r.stage dev buf = .ok buf' := by
  unfold stage
  split
  · unfold stagePinHighZ
    cases dev.getOutputCellForPin r.pinName with
    | none => exact .inl ⟨_, fun _ => rfl⟩
    | some cell =>
      simp only
      split
      · exact .inl ⟨_, fun _ => rfl⟩
      · cases dev.getControlCellFor cell with
        | none => exact .inl ⟨_, fun _ => rfl⟩
        | some control => exact .inr fun _ => ⟨_, rfl⟩
  · unfold stagePinOutput
    cases dev.getOutputCellForPin r.pinName with
    | none => exact .inl ⟨_, fun _ => rfl⟩
    | some cell =>
      simp only
      cases dev.getControlCellFor cell with
      | none => exact .inr fun _ => ⟨_, rfl⟩
      | some control => exact .inr fun _ => ⟨_, rfl⟩

/-- The buffer does not become shorter. -/
theorem length_le_stage {r : PinRequest} {dev : BSDLDevice} {buf buf' : List Byte} (h : r.stage dev buf = .ok buf') :
    buf.length ≤ buf'.length := by
  unfold stage at h
  split at h
  · exact length_le_stagePinHighZ h
  · exact length_le_stagePinOutput h

end PinRequest

/-- A buffer that stands for `buf`: it is `buf`, or there are no bits to be written of either. -/
def StandsFor (dev : BSDLDevice) (buf bsrData : List Byte) : Prop :=
  dev.boundaryLength = 0 ∨ (bsrData = buf ∧ bsrData ≠ [])

theorem StandsFor.contents {dev : BSDLDevice} {buf bsrData : List Byte} (h : StandsFor dev buf bsrData) :
    bits bsrData dev.boundaryLength = bits buf dev.boundaryLength := by
  rcases h with h0 | ⟨rfl, -⟩
  · rw [h0, bits_zero, bits_zero]
  · rfl

/-- It fails or succeeds for both, and after that the one stands for the other again. -/
theorem StandsFor.stage {dev : BSDLDevice} {buf bsrData bsrData' : List Byte} {r : PinRequest} (h : StandsFor dev buf bsrData)
    (e : r.stage dev bsrData = .ok bsrData') : ∃ buf', r.stage dev buf = .ok buf' ∧ StandsFor dev buf' bsrData' := by
  rcases r.stage_cases dev with ⟨msg, herror⟩ | hok
  · rw [herror] at e
    cases e
  obtain ⟨buf', hbuf'⟩ := hok buf
  refine ⟨buf', hbuf', ?_⟩
  rcases h with h0 | ⟨rfl, hne⟩
  · exact .inl h0
  · obtain rfl := Except.ok.inj (e.symm.trans hbuf')
    refine .inr ⟨rfl, fun hnil => hne ?_⟩
    have hlength := PinRequest.length_le_stage e
    rw [hnil] at hlength
    exact List.length_eq_zero_iff.mp (Nat.le_zero.mp hlength)

theorem StandsFor.stage_error {dev : BSDLDevice} {buf bsrData : List Byte} {r : PinRequest} {msg : String}
    (e : r.stage dev bsrData = .error msg) : r.stage dev buf = .error msg := by
  rcases r.stage_cases dev with ⟨msg', herror⟩ | hok
  · rw [herror, Except.error.injEq] at e
    rw [herror, e]
  · obtain ⟨buf', hbuf'⟩ := hok bsrData
    rw [hbuf'] at e
    cases e

namespace PinDriver

variable {σ : Type} (T : Target σ)

/-- The call that `set_pin` makes first. -/
def request (r : PinRequest) : Method (PinDriver σ) Bool :=
  if r.value < 0 then setPinHighZ T r.pinName else setPin T r.pinName r.value

/-- Whether the outputs can be driven: the model has an EXTEST opcode, it can be loaded, and the BSR data can be
shifted out. -/
def drives (pd : PinDriver σ) : Bool :=
  (do
    let dev ← pd.bsdl
    let extestOpcode ← dev.extestOpcode
    let pd ← fill T pd
    let (selected, chain) ← JtagChain.selectInstruction T pd.deviceIndex extestOpcode pd.chain
    let (written, _) ← JtagChain.writeBSR T pd.deviceIndex pd.bsrData dev.boundaryLength chain
    pure (selected && written) : Option Bool).getD false

variable {T}

theorem request_eq (r : PinRequest) : request T r = guarded T fun dev => stage (r.stage dev) := by
  unfold request PinRequest.stage
  split
  · rfl
  · rfl

/-! ### Where the buffer stands -/

variable {devices : List ChainDevice} {I : JtagChain σ → Prop} {i : ℤ} {dev : BSDLDevice} {buf : List Byte}

/-- A driver that is not refused goes on with a buffer that is filled. -/
theorem guarded_of_ready (h : Kept T devices I) {pd : PinDriver σ} (hpd : pd.Has I i) (hdev : bsdlAt devices i = some dev)
    (hg : (deviceAllowsLiveExtest dev).1 = true) (body : BSDLDevice → Method (PinDriver σ) Bool) :
    guarded T body pd = (fill T pd).bind (body dev) := by
  have hb : pd.bsdl = some dev := (hpd.bsdl_eq h).trans hdev
  have hallowed : pd.extestAllowed = true := by
    unfold extestAllowed
    rwa [hb]
  rw [guarded_eq, hb]
  exact if_pos hallowed

/-- A buffer that has been filled stands for itself. -/
theorem standsFor_fill (h : Kept T devices I) {pd pd' : PinDriver σ} (hpd : pd.Has I i) (hdev : bsdlAt devices i = some dev)
    (e : fill T pd = some pd') : pd'.Holds I i (StandsFor dev pd'.bsrData) := by
  by_cases hempty : pd.bsrData = []
  · have hstaged := holds_fill h (show pd.Holds I i (UpToDate devices i) from ⟨hpd, .inl hempty⟩) hdev e
    refine ⟨hstaged.1, ?_⟩
    by_cases h0 : dev.boundaryLength = 0
    · exact .inl h0
    · have hcovers := hstaged.2.covers
      refine .inr ⟨rfl, fun hnil => ?_⟩
      rw [hnil, bytesFor, List.length_nil] at hcovers
      omega
  · unfold fill at e
    rw [if_neg (by simpa using hempty)] at e
    obtain rfl := Option.some.inj e
    exact ⟨hpd, .inr ⟨rfl, hempty⟩⟩

/-- Filling a buffer that stands for another changes nothing. -/
theorem holds_standsFor_fill (h : Kept T devices I) {pd pd' : PinDriver σ} (hpd : pd.Holds I i (StandsFor dev buf))
    (hdev : bsdlAt devices i = some dev) (e : fill T pd = some pd') : pd'.Holds I i (StandsFor dev buf) := by
  have hself := standsFor_fill h hpd.1 hdev e
  refine ⟨hself.1, ?_⟩
  rcases hpd.2 with h0 | ⟨rfl, hne⟩
  · exact .inl h0
  · unfold fill at e
    rw [if_neg (by simpa using hne)] at e
    obtain rfl := Option.some.inj e
    exact .inr ⟨rfl, hne⟩

/-- Setting a pin: the buffer stands for what it stood for, or for what the request makes of that. -/
theorem request_cases (h : Kept T devices I) {pd pd' : PinDriver σ} {r : PinRequest} {ok : Bool} (hpd : pd.Has I i)
    (hdev : bsdlAt devices i = some dev) (hg : (deviceAllowsLiveExtest dev).1 = true)
    (hfill : ∀ pd₁, fill T pd = some pd₁ → StandsFor dev buf pd₁.bsrData) (e : request T r pd = some (ok, pd')) :
    (∃ msg, r.stage dev buf = .error msg ∧ ok = false ∧ pd'.Holds I i (StandsFor dev buf)) ∨
      ∃ buf', r.stage dev buf = .ok buf' ∧ ok = true ∧ pd'.Holds I i (StandsFor dev buf') := by
  rw [request_eq, guarded_of_ready h hpd hdev hg] at e
  obtain ⟨pd₁, hpd₁, e⟩ := Option.bind_eq_some_iff.mp e
  have hhas := (standsFor_fill h hpd hdev hpd₁).1
  have hstands := hfill pd₁ hpd₁
  rcases stage_cases e with ⟨msg, hstage, rfl, rfl⟩ | ⟨bsrData, hstage, rfl, rfl⟩
  · exact .inl ⟨msg, StandsFor.stage_error hstage, rfl, hhas, hstands⟩
  · obtain ⟨buf', hbuf', hstands'⟩ := hstands.stage hstage
    exact .inr ⟨buf', hbuf', rfl, hhas, hstands'⟩

/-- Driving the outputs leaves the buffer alone. -/
theorem holds_applyOutputs (h : Kept T devices I) (hdev : bsdlAt devices i = some dev)
    (hg : (deviceAllowsLiveExtest dev).1 = true) : Method.Keeps (Holds I i (StandsFor dev buf)) (applyOutputs T) := by
  intro pd applied pd' hpd e
  rw [applyOutputs, guarded_of_ready h hpd.1 hdev hg] at e
  obtain ⟨pd₁, hfill, e⟩ := Option.bind_eq_some_iff.mp e
  rw [driveOutputs_eq] at e
  exact (holds_selectExtest h hdev hg).andThen (holds_shiftOut h dev) _ _ _ (holds_standsFor_fill h hpd hdev hfill) e

/-- Outputs that have been driven have been written, and what was written is the buffer. -/
theorem writeCall_contents (h : Kept T devices I) {pd pd' : PinDriver σ} (hpd : pd.Holds I i (StandsFor dev buf))
    (hdev : bsdlAt devices i = some dev) (hg : (deviceAllowsLiveExtest dev).1 = true)
    (e : applyOutputs T pd = some (true, pd')) :
    ∃ w, writeCall T pd = some w ∧ w.contents = bits buf dev.boundaryLength := by
  have hb : pd.bsdl = some dev := (hpd.1.bsdl_eq h).trans hdev
  rw [applyOutputs_eq hb] at e
  obtain ⟨pd₂, hbefore, -⟩ := Method.andThen_eq_true.mp e
  have hcall := writeCall_eq_some.mpr ⟨dev, pd₂, hb, hbefore, rfl⟩
  refine ⟨_, hcall, ?_⟩
  rw [beforeWrite, guarded_of_ready h hpd.1 hdev hg] at hbefore
  obtain ⟨pd₁, hfill, hselect⟩ := Option.bind_eq_some_iff.mp hbefore
  exact (holds_selectExtest h hdev hg _ _ _ (holds_standsFor_fill h hpd hdev hfill) hselect).2.contents

/-- What it is that can be done. -/
theorem exists_of_drives {pd : PinDriver σ} (h : drives T pd = true) : ∃ dev op pd₁ c c', pd.bsdl = some dev ∧
    dev.extestOpcode = some op ∧ fill T pd = some pd₁ ∧
    JtagChain.selectInstruction T pd₁.deviceIndex op pd₁.chain = some (true, c) ∧
    JtagChain.writeBSR T pd₁.deviceIndex pd₁.bsrData dev.boundaryLength c = some (true, c') := by
  unfold drives at h
  rw [Option.getD_eq_iff] at h
  rcases h with h | ⟨-, hfalse⟩
  · obtain ⟨dev, hdev, h⟩ := Option.bind_eq_some_iff.mp h
    obtain ⟨op, hop, h⟩ := Option.bind_eq_some_iff.mp h
    obtain ⟨pd₁, hfill, h⟩ := Option.bind_eq_some_iff.mp h
    obtain ⟨⟨selected, c⟩, hselect, h⟩ := Option.bind_eq_some_iff.mp h
    obtain ⟨⟨written, c'⟩, hwrite, h⟩ := Option.bind_eq_some_iff.mp h
    obtain ⟨rfl, rfl⟩ := Bool.and_eq_true_iff.mp (Option.some.inj h)
    exact ⟨dev, op, pd₁, c, c', hdev, hop, hfill, hselect, hwrite⟩
  · cases hfalse

/-- Outputs that can be driven are driven. -/
theorem applied_of_drives (h : Kept T devices I) {pd pd' : PinDriver σ} {applied : Bool} (hpd : pd.Has I i)
    (hdev : bsdlAt devices i = some dev) (hg : (deviceAllowsLiveExtest dev).1 = true) (hdrives : drives T pd = true)
    (e : applyOutputs T pd = some (applied, pd')) : applied = true := by
  obtain ⟨dev', op, pd₁, c, c', hb, hop, hfill, hselect, hwrite⟩ := exists_of_drives hdrives
  obtain rfl := Option.some.inj (hb.symm.trans ((hpd.bsdl_eq h).trans hdev))
  rw [applyOutputs, guarded_of_ready h hpd hdev hg, hfill, Option.bind_some] at e
  unfold driveOutputs at e
  rw [hop] at e
  have hselected : onChain (JtagChain.selectInstruction T pd₁.deviceIndex op) pd₁ = some (true, { pd₁ with chain := c }) :=
    Method.on_of_eq _ hselect
  have hwritten : onChain (JtagChain.writeBSR T pd₁.deviceIndex pd₁.bsrData dev'.boundaryLength) { pd₁ with chain := c } =
      some (true, { pd₁ with chain := c' }) := Method.on_of_eq _ hwrite
  simp only at e
  rw [Method.bind_of_eq _ hselected, if_pos rfl, Method.bind_of_eq _ hwritten] at e
  exact (Prod.mk.inj (Option.some.inj e)).1.symm

end PinDriver

end OwlTap.BoundaryScan
