import OwlTap.BoundaryScan.DriverRules
import OwlTap.Jtag.BoundaryAccess

/-!
# What drivers write

A staging buffer is `Staged` from a model when it was a snapshot of that model's boundary register
or its safe values at first, and pins were set in it by means of that model. As long as the model
of a device stays the same, the methods of its driver keep this (`UpToDate`), and the buffer that
`applyOutputs` hands to `writeBSR` is one of these (`current_writeCall`).
-/

namespace OwlTap.BoundaryScan

open OwlTap Ftdi Bsdl Jtag

/-! ### Staged buffers -/

/-- A buffer whose bits all come from one model: what was read of its boundary register or its
safe values, with pins set in it. -/
inductive Staged (dev : BSDLDevice) : List Byte → Prop where
  | snapshot {rawBsr : List Byte} (h : rawBsr.length = bytesFor dev.boundaryLength) : Staged dev (applyBsrSnapshot dev rawBsr)
  | safe : Staged dev (initBsrFromSafeValues dev)
  | output {buf buf' : List Byte} {pinName : Text} {value : ℤ} (h : Staged dev buf)
      (e : stagePinOutput buf dev pinName value = .ok buf') : Staged dev buf'
  | highZ {buf buf' : List Byte} {pinName : Text} (h : Staged dev buf)
      (e : stagePinHighZ buf dev pinName = .ok buf') : Staged dev buf'

/-- It covers the boundary register. -/
theorem Staged.covers {dev : BSDLDevice} {buf : List Byte} (h : Staged dev buf) : bytesFor dev.boundaryLength ≤ buf.length := by
  induction h with
  | snapshot h => exact bytesFor_le_snapshot dev _
  | safe => exact bytesFor_le_safeValues dev
  | output h e ih => exact ih.trans (length_le_stagePinOutput e)
  | highZ h e ih => exact ih.trans (length_le_stagePinHighZ e)

/-- A buffer that is empty, or staged from the model of device `i`. -/
def UpToDate (devices : List ChainDevice) (i : ℤ) (buf : List Byte) : Prop :=
  buf = [] ∨ ∃ dev, bsdlAt devices i = some dev ∧ Staged dev buf

namespace PinDriver

variable {σ : Type} (T : Target σ)

/-! ### The parts of an operation -/

/-- The driver with its buffer filled, when it is empty. -/
def fill (pd : PinDriver σ) : Option (PinDriver σ) :=
  if pd.bsrData.isEmpty then (captureCurrentState T pd).map fun (ok, pd) => if ok then pd else pd.initBsrFromSafe
  else some pd

/-- Load the EXTEST instruction. -/
def selectExtest (dev : BSDLDevice) : Method (PinDriver σ) Bool := fun pd =>
  match dev.extestOpcode with
  | none => fail (fun _ => "EXTEST instruction not found in BSDL") pd
  | some extestOpcode =>
    (do
      if ← onChain (JtagChain.selectInstruction T pd.deviceIndex extestOpcode) then pure true
      else fail (fun pd => pd.chain.lastError) : Method (PinDriver σ) Bool) pd

/-- Shift out the BSR data. -/
def shiftOut (dev : BSDLDevice) : Method (PinDriver σ) Bool := fun pd =>
  (do
    if ← onChain (JtagChain.writeBSR T pd.deviceIndex pd.bsrData dev.boundaryLength) then pure true
    else fail (fun pd => pd.chain.lastError) : Method (PinDriver σ) Bool) pd

variable {T}

/-- `applyOutputs` calls `writeBSR` once EXTEST is loaded. -/
theorem driveOutputs_eq (dev : BSDLDevice) : driveOutputs T dev = Method.andThen (selectExtest T dev) (shiftOut T dev) := by
  funext pd
  unfold driveOutputs Method.andThen selectExtest
  cases dev.extestOpcode with
  | none => rfl
  | some op =>
    simp only
    cases hsel : JtagChain.selectInstruction T pd.deviceIndex op pd.chain with
    | none =>
      have hnone : onChain (JtagChain.selectInstruction T pd.deviceIndex op) pd = none := by
        rw [onChain, Method.on, hsel]
        rfl
      rw [Method.bind_of_none _ hnone, Method.bind_of_none _ hnone]
      rfl
    | some r =>
      obtain ⟨selected, c⟩ := r
      have hon : onChain (JtagChain.selectInstruction T pd.deviceIndex op) pd = some (selected, { pd with chain := c }) :=
        Method.on_of_eq _ hsel
      rw [Method.bind_of_eq _ hon, Method.bind_of_eq _ hon]
      cases selected with
      | false => rfl
      | true => rfl

/-- An operation that begins with `guarded` is refused, or it goes on with a buffer that is filled. -/
theorem guarded_eq (body : BSDLDevice → Method (PinDriver σ) Bool) (pd : PinDriver σ) :
    guarded T body pd =
      match pd.bsdl with
      | none => fail (fun _ => "Driver not ready") pd
      | some dev => if pd.extestAllowed then (fill T pd).bind (body dev) else fail extestBlockedReason pd := by
  unfold guarded fill
  cases pd.bsdl with
  | none => rfl
  | some dev =>
    simp only
    split
    · split
      · rw [Option.bind_map]
        rfl
      · rfl
    · rfl

/-- When it ends, it has been refused and nothing has changed, or it has gone on. -/
theorem guarded_cases {body : BSDLDevice → Method (PinDriver σ) Bool} {pd pd' : PinDriver σ} {ok : Bool}
    (e : guarded T body pd = some (ok, pd')) :
    (ok = false ∧ ∃ lastError, pd' = { pd with lastError }) ∨
      ∃ dev pd₁, pd.bsdl = some dev ∧ pd.extestAllowed = true ∧ fill T pd = some pd₁ ∧ body dev pd₁ = some (ok, pd') := by
  rw [guarded_eq] at e
  split at e
  · obtain ⟨rfl, rfl⟩ := Prod.mk.inj (Option.some.inj e)
    exact .inl ⟨rfl, _, rfl⟩
  rename_i dev hdev
  split at e
  · rename_i hallowed
    obtain ⟨pd₁, hfill, hbody⟩ := Option.bind_eq_some_iff.mp e
    exact .inr ⟨dev, pd₁, hdev, hallowed, hfill, hbody⟩
  · obtain ⟨rfl, rfl⟩ := Prod.mk.inj (Option.some.inj e)
    exact .inl ⟨rfl, _, rfl⟩

/-! ### The call of `writeBSR` -/

variable (T) in
/-- `applyOutputs` up to its call of `writeBSR`: whether it comes to this, and the driver then. -/
def beforeWrite : Method (PinDriver σ) Bool := guarded T (selectExtest T)

end PinDriver

/-- A call of `JtagChain::writeBSR` by a driver. -/
structure BsrWrite where
  /-- The device. -/
  deviceIndex : ℤ
  /-- The staging buffer. -/
  bsrData : List Byte
  /-- How many of its bits are written. -/
  bsrBits : ℕ
  /-- The model that is then loaded for the device. -/
  bsdl : Option BSDLDevice

/-- What is written. -/
def BsrWrite.contents (w : BsrWrite) : List Bool := bits w.bsrData w.bsrBits

/-- The buffer covers the boundary register of the model then loaded, and is staged from it. -/
def BsrWrite.Current (w : BsrWrite) : Prop :=
  ∃ dev, w.bsdl = some dev ∧ w.bsrBits = dev.boundaryLength ∧ dev.boundaryLength ≤ 8 * w.bsrData.length ∧
    Staged dev w.bsrData

namespace PinDriver

variable {σ : Type} (T : Target σ)

/-- The call that `applyOutputs` makes, if it makes one. -/
def writeCall (pd : PinDriver σ) : Option BsrWrite := do
  let dev ← pd.bsdl
  let (true, pd) ← beforeWrite T pd | none
  pure ⟨pd.deviceIndex, pd.bsrData, dev.boundaryLength, pd.bsdl⟩

variable {T}

theorem writeCall_eq_some {pd : PinDriver σ} {w : BsrWrite} : writeCall T pd = some w ↔
    ∃ dev pd', pd.bsdl = some dev ∧ beforeWrite T pd = some (true, pd') ∧
      w = ⟨pd'.deviceIndex, pd'.bsrData, dev.boundaryLength, pd'.bsdl⟩ := by
  unfold writeCall
  cases pd.bsdl with
  | none => exact ⟨nofun, fun ⟨_, _, h, _⟩ => nomatch h⟩
  | some dev =>
    cases hb : beforeWrite T pd with
    | none => exact ⟨nofun, fun ⟨_, _, _, h, _⟩ => nomatch h⟩
    | some r =>
      obtain ⟨_ | _, pd₁⟩ := r
      · refine ⟨nofun, ?_⟩
        rintro ⟨_, _, -, h, -⟩
        cases h
      · constructor
        · intro h
          exact ⟨dev, pd₁, rfl, rfl, (Option.some.inj h).symm⟩
        · rintro ⟨_, _, hdev, h, rfl⟩
          obtain rfl := Option.some.inj hdev
          obtain ⟨-, rfl⟩ := Prod.mk.inj (Option.some.inj h)
          rfl

/-- `applyOutputs` is what comes before its call of `writeBSR`, and then this call. -/
theorem applyOutputs_eq {pd : PinDriver σ} {dev : BSDLDevice} (hdev : pd.bsdl = some dev) :
    applyOutputs T pd = Method.andThen (beforeWrite T) (shiftOut T dev) pd := by
  unfold applyOutputs beforeWrite Method.andThen
  rw [guarded_eq, guarded_eq, hdev]
  simp only
  split
  · cases fill T pd with
    | none => rfl
    | some pd₁ =>
      rw [Option.bind_some, Option.bind_some, driveOutputs_eq]
      rfl
  · rfl

/-! ### Buffers stay up to date -/

variable {devices : List ChainDevice} {I : JtagChain σ → Prop} {i : ℤ}

/-- A driver of device `i` of a chain with a property, whose buffer has another. -/
def Holds (I : JtagChain σ → Prop) (i : ℤ) (B : List Byte → Prop) (pd : PinDriver σ) : Prop :=
  pd.Has I i ∧ B pd.bsrData

variable {B : List Byte → Prop}

theorem Holds.upToDate {pd : PinDriver σ} {dev : BSDLDevice} (h : pd.Holds I i (Staged dev))
    (hdev : bsdlAt devices i = some dev) : pd.Holds I i (UpToDate devices i) := ⟨h.1, .inr ⟨dev, hdev, h.2⟩⟩

/-- A call on the chain leaves the buffer alone. -/
theorem holds_onChain {α : Type} {m : Method (JtagChain σ) α} (hm : Method.Keeps I m) :
    Method.Keeps (Holds I i B) (onChain m) :=
  hm.on (fun _ h => h.1.1) fun _ _ h hz => ⟨⟨hz, h.1.2⟩, h.2⟩

theorem holds_fail (msg : PinDriver σ → String) : Method.Keeps (Holds I i B) (fail msg) := by
  intro pd ok pd' hpd e
  obtain ⟨-, rfl⟩ := Prod.mk.inj (Option.some.inj e)
  exact hpd

/-- Loading EXTEST does too. -/
theorem holds_selectExtest (h : Kept T devices I) {dev : BSDLDevice} (hdev : bsdlAt devices i = some dev)
    (hg : (deviceAllowsLiveExtest dev).1 = true) : Method.Keeps (Holds I i B) (selectExtest T dev) := by
  intro pd ok pd' hpd e
  unfold selectExtest at e
  split at e
  · exact holds_fail _ _ _ _ hpd e
  rename_i op hop
  rw [hpd.1.2] at e
  refine Method.Keeps.bind (holds_onChain (h.extest hdev hg hop)) (fun selected => ?_) _ _ _ hpd e
  cases selected with
  | false => exact holds_fail _
  | true => exact .pure _

/-- And so does writing it out. -/
theorem holds_shiftOut (h : Kept T devices I) (dev : BSDLDevice) : Method.Keeps (Holds I i B) (shiftOut T dev) := by
  intro pd ok pd' hpd e
  unfold shiftOut at e
  rw [hpd.1.2] at e
  refine Method.Keeps.bind (holds_onChain (h.write i pd.bsrData dev.boundaryLength)) (fun written => ?_) _ _ _ hpd e
  cases written with
  | false => exact holds_fail _
  | true => exact .pure _

theorem holds_initBsrFromSafe (h : Kept T devices I) {dev : BSDLDevice} {pd : PinDriver σ} (hpd : pd.Has I i)
    (hdev : bsdlAt devices i = some dev) : pd.initBsrFromSafe.Holds I i (Staged dev) := by
  refine ⟨hpd.initBsrFromSafe, ?_⟩
  unfold PinDriver.initBsrFromSafe
  rw [hpd.bsdl_eq h, hdev]
  exact .safe

/-- After a reset to the safe values the buffer is up to date. -/
theorem upToDate_resetToSafe (h : Kept T devices I) {pd : PinDriver σ} (hpd : pd.Holds I i (UpToDate devices i)) :
    pd.resetToSafe.Holds I i (UpToDate devices i) := by
  unfold resetToSafe
  cases hdev : bsdlAt devices i with
  | none =>
    unfold PinDriver.initBsrFromSafe
    rw [hpd.1.bsdl_eq h, hdev]
    exact hpd
  | some dev => exact (holds_initBsrFromSafe h hpd.1 hdev).upToDate hdev

/-- What a capture reads has as many bits as the model's boundary register. -/
theorem holds_loadSnapshot (h : Kept T devices I) {dev : BSDLDevice} {pd : PinDriver σ} (hpd : pd.Has I i)
    (hdev : bsdlAt devices i = some dev) {rawBsr : List Byte} (hraw : rawBsr.length = bytesFor dev.boundaryLength) :
    (pd.loadSnapshot rawBsr).Holds I i (Staged dev) := by
  refine ⟨hpd.loadSnapshot rawBsr, ?_⟩
  unfold PinDriver.loadSnapshot
  rw [hpd.bsdl_eq h, hdev]
  exact .snapshot hraw

/-- A capture that succeeds fills the buffer from the device's model. -/
theorem captureCurrentState_cases (h : Kept T devices I) {pd pd' : PinDriver σ} {ok : Bool} (hpd : pd.Holds I i (UpToDate devices i))
    (e : captureCurrentState T pd = some (ok, pd')) : pd'.Holds I i (UpToDate devices i) ∧
      (ok = true → ∃ dev, bsdlAt devices i = some dev ∧ pd'.Holds I i (Staged dev)) := by
  have hfail : ∀ (msg : PinDriver σ → String) {pd₁ : PinDriver σ}, pd₁.Holds I i (UpToDate devices i) →
      fail msg pd₁ = some (ok, pd') → pd'.Holds I i (UpToDate devices i) ∧
        (ok = true → ∃ dev, bsdlAt devices i = some dev ∧ pd'.Holds I i (Staged dev)) := by
    intro msg pd₁ hpd₁ e
    obtain ⟨rfl, rfl⟩ := Prod.mk.inj (Option.some.inj e)
    exact ⟨hpd₁, nofun⟩
  have hb := hpd.1.bsdl_eq h
  rw [captureCurrentState] at e
  split at e
  · exact hfail _ hpd e
  rename_i dev hdev
  have hdev : bsdlAt devices i = some dev := hb ▸ hdev
  split at e
  · exact hfail _ hpd e
  rename_i op hop
  rw [hpd.1.2] at e
  obtain ⟨selected, pd₁, e₁, e⟩ := Method.bind_eq_some.mp e
  have hpd₁ := holds_onChain (h.sample hdev hop) _ _ _ hpd e₁
  cases selected with
  | false => exact hfail (fun pd => pd.chain.lastError) hpd₁ e
  | true =>
    obtain ⟨idled, pd₂, e₂, e⟩ := Method.bind_eq_some.mp e
    have hpd₂ := holds_onChain (h.idle 2) _ _ _ hpd₁ e₂
    obtain ⟨⟨read, rawBsr⟩, pd₃, e₃, e⟩ := Method.bind_eq_some.mp e
    have hpd₃ := holds_onChain (h.read i [] 0) _ _ _ hpd₂ e₃
    cases read with
    | false => exact hfail (fun pd => pd.chain.lastError) hpd₃ e
    | true =>
      obtain ⟨rfl, rfl⟩ := Prod.mk.inj (Option.some.inj e)
      have hraw : rawBsr.length = bytesFor dev.boundaryLength := by
        obtain ⟨c, hread, -⟩ := Method.on_eq_some.mp e₃
        have hmodel : (pd₂.chain.deviceAt i).bind ChainDevice.bsdl = some dev := by
          have hbsdl := hpd₂.1.bsdl_eq h
          rwa [PinDriver.bsdl, hpd₂.1.2, hdev] at hbsdl
        exact (JtagChain.readBSR_padded hmodel hread).1
      have hstaged := holds_loadSnapshot h hpd₃.1 hdev hraw
      exact ⟨hstaged.upToDate hdev, fun _ => ⟨dev, hdev, hstaged⟩⟩

/-- A buffer that is filled is staged from the device's model. -/
theorem holds_fill (h : Kept T devices I) {pd pd' : PinDriver σ} {dev : BSDLDevice} (hpd : pd.Holds I i (UpToDate devices i))
    (hdev : bsdlAt devices i = some dev) (e : fill T pd = some pd') : pd'.Holds I i (Staged dev) := by
  unfold fill at e
  split at e
  · obtain ⟨⟨ok, pd₁⟩, hcapture, rfl⟩ := Option.map_eq_some_iff.mp e
    obtain ⟨hpd₁, hok⟩ := captureCurrentState_cases h hpd hcapture
    cases ok with
    | false => exact holds_initBsrFromSafe h hpd₁.1 hdev
    | true =>
      obtain ⟨dev', hdev', hstaged⟩ := hok rfl
      obtain rfl := Option.some.inj (hdev.symm.trans hdev')
      exact hstaged
  · rename_i hne
    obtain rfl := Option.some.inj e
    rcases hpd.2 with hnil | ⟨dev', hdev', hstaged⟩
    · exact absurd (List.isEmpty_iff.mpr hnil) hne
    · obtain rfl := Option.some.inj (hdev.symm.trans hdev')
      exact ⟨hpd.1, hstaged⟩

/-! ### Operations -/

theorem guard_of_allowed {pd : PinDriver σ} {dev : BSDLDevice} (hdev : pd.bsdl = some dev) (hallowed : pd.extestAllowed = true) :
    (deviceAllowsLiveExtest dev).1 = true := by
  unfold extestAllowed at hallowed
  rwa [hdev] at hallowed

/-- An operation that begins with `guarded`, from what it does to a buffer that is staged from the model. -/
theorem upToDate_guarded (h : Kept T devices I) {body : BSDLDevice → Method (PinDriver σ) Bool}
    (hbody : ∀ dev, bsdlAt devices i = some dev → (deviceAllowsLiveExtest dev).1 = true →
      Method.Keeps (Holds I i (Staged dev)) (body dev)) :
    Method.Keeps (Holds I i (UpToDate devices i)) (guarded T body) := by
  intro pd ok pd' hpd e
  rcases guarded_cases e with ⟨-, lastError, rfl⟩ | ⟨dev, pd₁, hdev, hallowed, hfill, e⟩
  · exact hpd
  · have hat : bsdlAt devices i = some dev := hpd.1.bsdl_eq h ▸ hdev
    have hpd₁ := holds_fill h hpd hat hfill
    exact (hbody dev hat (guard_of_allowed hdev hallowed) _ _ _ hpd₁ e).upToDate hat

/-- What staging comes to. -/
theorem stage_cases {f : List Byte → Except String (List Byte)} {pd pd' : PinDriver σ} {ok : Bool}
    (e : stage f pd = some (ok, pd')) :
    (∃ msg, f pd.bsrData = .error msg ∧ ok = false ∧ pd' = { pd with lastError := msg }) ∨
      ∃ bsrData, f pd.bsrData = .ok bsrData ∧ ok = true ∧ pd' = { pd with bsrData } := by
  unfold stage at e
  cases hf : f pd.bsrData with
  | error msg =>
    rw [hf] at e
    obtain ⟨rfl, rfl⟩ := Prod.mk.inj (Option.some.inj e)
    exact .inl ⟨msg, rfl, rfl, rfl⟩
  | ok bsrData =>
    rw [hf] at e
    obtain ⟨rfl, rfl⟩ := Prod.mk.inj (Option.some.inj e)
    exact .inr ⟨bsrData, rfl, rfl, rfl⟩

theorem holds_stage {f : List Byte → Except String (List Byte)} (hf : ∀ buf buf', B buf → f buf = .ok buf' → B buf') :
    Method.Keeps (Holds I i B) (stage f) := by
  intro pd ok pd' hpd e
  rcases stage_cases e with ⟨msg, -, -, rfl⟩ | ⟨bsrData, hok, -, rfl⟩
  · exact hpd
  · exact ⟨hpd.1, hf _ _ hpd.2 hok⟩

theorem upToDate_setPin (h : Kept T devices I) (pinName : Text) (value : ℤ) :
    Method.Keeps (Holds I i (UpToDate devices i)) (setPin T pinName value) :=
  upToDate_guarded h fun _ _ _ => holds_stage fun _ _ => Staged.output

theorem upToDate_setPinHighZ (h : Kept T devices I) (pinName : Text) :
    Method.Keeps (Holds I i (UpToDate devices i)) (setPinHighZ T pinName) :=
  upToDate_guarded h fun _ _ _ => holds_stage fun _ _ => Staged.highZ

theorem upToDate_applyOutputs (h : Kept T devices I) :
    Method.Keeps (Holds I i (UpToDate devices i)) (applyOutputs T) := by
  refine upToDate_guarded h fun dev hdev hg => ?_
  rw [driveOutputs_eq]
  exact (holds_selectExtest h hdev hg).andThen (holds_shiftOut h dev)

/-- A driver that is made for a device. -/
theorem upToDate_create (h : Kept T devices I) {chain : JtagChain σ} (hc : I chain) {pd : PinDriver σ}
    (e : create T chain i = some pd) : pd.Holds I i (UpToDate devices i) := by
  have hnew : Holds I i (UpToDate devices i) ({ deviceIndex := i, chain } : PinDriver σ) := ⟨⟨hc, rfl⟩, .inl rfl⟩
  unfold create at e
  dsimp only at e
  split at e
  · obtain ⟨⟨ok, pd₁⟩, hcapture, rfl⟩ := Option.map_eq_some_iff.mp e
    have hpd₁ := (captureCurrentState_cases h hnew hcapture).1
    cases ok with
    | true => exact hpd₁
    | false => exact upToDate_resetToSafe h hpd₁
  · obtain rfl := Option.some.inj e
    exact hnew

/-- **What is written is up to date.** If the buffer of a driver is empty or staged from the model that is loaded for its
device, `applyOutputs` calls `writeBSR` with a buffer that covers this model's boundary register and is staged from it. -/
theorem current_writeCall (h : Kept T devices I) {pd : PinDriver σ} (hpd : pd.Holds I i (UpToDate devices i)) {w : BsrWrite}
    (e : writeCall T pd = some w) : w.Current := by
  obtain ⟨dev, pd', hdev, hbefore, rfl⟩ := writeCall_eq_some.mp e
  rcases guarded_cases hbefore with ⟨hok, -⟩ | ⟨dev', pd₁, hdev', hallowed, hfill, hselect⟩
  · cases hok
  obtain rfl := Option.some.inj (hdev.symm.trans hdev')
  have hat : bsdlAt devices i = some dev := hpd.1.bsdl_eq h ▸ hdev
  have hpd' := holds_selectExtest h hat (guard_of_allowed hdev hallowed) _ _ _ (holds_fill h hpd hat hfill) hselect
  have hcovers := hpd'.2.covers
  unfold bytesFor at hcovers
  exact ⟨dev, (hpd'.1.bsdl_eq h).trans hat, rfl, by dsimp only; omega, hpd'.2⟩

end PinDriver

end OwlTap.BoundaryScan
