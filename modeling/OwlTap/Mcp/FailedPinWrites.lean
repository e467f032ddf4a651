import OwlTap.BoundaryScan.PinStaging
import OwlTap.Mcp.BoundaryWrites

/-!
# Pins that could not be set

`set_pin` stages a pin and then drives the outputs. A request that fails before it has staged its
pin leaves the staging buffer as it was; one that fails afterwards leaves the pin staged, and the
next request for the device drives it (`failed_pin_driven`). So the contents that requests write are
those of the requests that succeed alone, if none fails after it has staged its pin
(`contents_without_failures`).
-/

namespace OwlTap.Mcp

open OwlTap Ftdi Bsdl Jtag BoundaryScan Hardware

variable {σ : Type}

/-! ### Sequences of requests -/

/-- What shows of a request to set a pin. -/
structure PinWrite where
  request : PinRequest
  /-- Whether it succeeds. -/
  ok : Bool
  /-- What it writes to the boundary register. -/
  contents : List (List Bool)
  deriving DecidableEq

/-- What a request writes to the boundary register. -/
def pinContents (T : Target σ) (i : ℤ) (ctx : HardwareContext σ) (r : PinRequest) : List (List Bool) :=
  ((Request.setPin i r.pinName r.value).writes T ctx).map BsrWrite.contents

/-- Requests to set pins of a device, one after the other, that each meet a condition on the context as it is then. The
hardware may change between them, in any way. -/
inductive PinWrites (T : Target σ) (i : ℤ) (C : HardwareContext σ → PinRequest → Prop) :
    HardwareContext σ → List PinWrite → Prop where
  | nil (ctx : HardwareContext σ) : PinWrites T i C ctx []
  | cons {ctx ctx₁ ctx₂ : HardwareContext σ} {ws : List PinWrite} (r : PinRequest) (hC : C ctx r) {response : Response}
      (e : setPin T i r.pinName r.value ctx = some (response, ctx₁)) (hp : ctx₂.pinDrivers = ctx₁.pinDrivers)
      (hd : ctx₂.chain.devices = ctx₁.chain.devices) (rest : PinWrites T i C ctx₂ ws) :
      PinWrites T i C ctx (⟨r, response.isOk, pinContents T i ctx r⟩ :: ws)

/-- The requests that succeed. -/
def succeeded (ws : List PinWrite) : List PinWrite := ws.filter PinWrite.ok

theorem succeeded_cons_of_ok {w : PinWrite} {ws : List PinWrite} (h : w.ok = true) : succeeded (w :: ws) = w :: succeeded ws :=
  List.filter_cons_of_pos h

theorem succeeded_cons_of_failed {w : PinWrite} {ws : List PinWrite} (h : w.ok = false) : succeeded (w :: ws) = succeeded ws :=
  List.filter_cons_of_neg fun hok => Bool.false_ne_true (h.symm.trans hok)

/-- A request does not fail after it has staged its pin: the model has an EXTEST opcode then, and both scans succeed. -/
def drivesOnceStaged (T : Target σ) (i : ℤ) (ctx : HardwareContext σ) (r : PinRequest) : Bool :=
  (stagedPin T i r.pinName r.value ctx).all (PinDriver.drives T)

/-- The model and the buffer with which the next request for a device begins, after the driver has been made and its
buffer filled; none if the request will be refused. -/
def baseline (T : Target σ) (i : ℤ) (ctx : HardwareContext σ) : Option (BSDLDevice × List Byte) := do
  let (.ok data, ctx) ← HardwareContext.pinDriver T i ctx | none
  let pd : PinDriver σ := { data with chain := ctx.chain }
  let dev ← pd.bsdl
  if pd.extestAllowed then
    let pd ← PinDriver.fill T pd
    pure (dev, pd.bsrData)
  else none

/-- What a sequence of requests writes, from a buffer on, if all of them succeed. -/
def contentsFrom (dev : BSDLDevice) : List Byte → List PinRequest → List (List (List Bool))
  | _, [] => []
  | buf, r :: rs =>
    match r.stage dev buf with
    | .error _ => contentsFrom dev buf rs
    | .ok buf' => [bits buf' dev.boundaryLength] :: contentsFrom dev buf' rs

/-! ### One request -/

variable {T : Target σ} {i : ℤ} {ctx ctx' : HardwareContext σ} {dev : BSDLDevice} {buf : List Byte} {r : PinRequest}
  {response : Response}

/-- The parts of `set_pin`. -/
theorem setPin_cases (e : setPin T i r.pinName r.value ctx = some (response, ctx')) :
    (∃ what, HardwareContext.pinDriver T i ctx = some (.error what, ctx') ∧ response.isOk = false) ∨
      ∃ data ctx₁ pd, HardwareContext.pinDriver T i ctx = some (.ok data, ctx₁) ∧
        ((PinDriver.request T r { data with chain := ctx₁.chain } = some (false, pd) ∧ response.isOk = false ∧
            ctx' = ctx₁.setPinDriver i pd) ∨
          ∃ applied pd', PinDriver.request T r { data with chain := ctx₁.chain } = some (true, pd) ∧
            PinDriver.applyOutputs T pd = some (applied, pd') ∧ response.isOk = applied ∧
              ctx' = ctx₁.setPinDriver i pd') := by
  obtain ⟨answer, ctx₁, hdriver, hrest⟩ := Method.bind_eq_some.mp e
  cases answer with
  | error what =>
    obtain ⟨rfl, rfl⟩ := Prod.mk.inj (Option.some.inj hrest)
    exact .inl ⟨what, hdriver, rfl⟩
  | ok data =>
    obtain ⟨⟨answer, pd'⟩, hpd, he⟩ := Option.map_eq_some_iff.mp hrest
    obtain ⟨rfl, rfl⟩ := Prod.mk.inj he
    obtain ⟨ok, pd, success, hrequest, hpd⟩ : ∃ ok pd success, PinDriver.request T r { data with chain := ctx₁.chain } = some (ok, pd) ∧
        (if ok then do if ← PinDriver.applyOutputs T then pure (.ok success) else fun pd => some (.error pd.lastError, pd)
          else fun pd => some (.error pd.lastError, pd) : Method (PinDriver σ) Response) pd = some (answer, pd') := by
      unfold PinDriver.request
      dsimp only at hpd
      split at hpd
      · rename_i hneg
        obtain ⟨ok, pd, hrequest, hpd⟩ := Method.bind_eq_some.mp hpd
        exact ⟨ok, pd, _, by rw [if_pos hneg]; exact hrequest, hpd⟩
      · rename_i hpos
        obtain ⟨ok, pd, hrequest, hpd⟩ := Method.bind_eq_some.mp hpd
        exact ⟨ok, pd, _, by rw [if_neg hpos]; exact hrequest, hpd⟩
    refine .inr ⟨data, ctx₁, pd, hdriver, ?_⟩
    cases ok with
    | false =>
      obtain ⟨rfl, rfl⟩ := Prod.mk.inj (Option.some.inj hpd)
      exact .inl ⟨hrequest, rfl, rfl⟩
    | true =>
      obtain ⟨applied, pd₁, happly, hpd⟩ := Method.bind_eq_some.mp hpd
      cases applied with
      | false =>
        obtain ⟨rfl, rfl⟩ := Prod.mk.inj (Option.some.inj hpd)
        exact .inr ⟨false, pd₁, hrequest, happly, rfl, rfl⟩
      | true =>
        obtain ⟨rfl, rfl⟩ := Prod.mk.inj (Option.some.inj hpd)
        exact .inr ⟨true, pd₁, hrequest, happly, rfl, rfl⟩

theorem stagedPin_of_request {data : DriverData} {ctx₁ : HardwareContext σ} {ok : Bool} {pd : PinDriver σ}
    (hdriver : HardwareContext.pinDriver T i ctx = some (.ok data, ctx₁))
    (hrequest : PinDriver.request T r { data with chain := ctx₁.chain } = some (ok, pd)) :
    stagedPin T i r.pinName r.value ctx = if ok then some pd else none := by
  unfold stagedPin
  rw [hdriver]
  unfold PinDriver.request at hrequest
  simp only [Option.bind_eq_bind, Option.bind_some]
  rw [hrequest]
  cases ok with
  | false => rfl
  | true => rfl

/-- What a request makes of the buffer: nothing when the pin cannot be staged. Otherwise the pin is staged in it, whether
or not the request succeeds then, and when it succeeds this is what it writes. -/
inductive Stages (T : Target σ) (i : ℤ) (dev : BSDLDevice) (ctx : HardwareContext σ) (r : PinRequest) (ok : Bool) :
    List Byte → List Byte → Prop where
  | failed {buf : List Byte} {msg : String} (h : r.stage dev buf = .error msg) (hok : ok = false) : Stages T i dev ctx r ok buf buf
  | staged {buf buf' : List Byte} (h : r.stage dev buf = .ok buf') (hdrives : drivesOnceStaged T i ctx r = true → ok = true)
      (hcontents : ok = true → pinContents T i ctx r = [bits buf' dev.boundaryLength]) : Stages T i dev ctx r ok buf buf'

/-- The driver of the device is kept, with a model that allows it to be driven, and its buffer stands for `buf`. -/
def StagesIn (i : ℤ) (dev : BSDLDevice) (buf : List Byte) (ctx : HardwareContext σ) : Prop :=
  ∃ data, ctx.pinDrivers.lookup i = some data ∧ bsdlAt ctx.chain.devices data.deviceIndex = some dev ∧
    (deviceAllowsLiveExtest dev).1 = true ∧ StandsFor dev buf data.bsrData

theorem StagesIn.congr (h : StagesIn i dev buf ctx) (hp : ctx'.pinDrivers = ctx.pinDrivers)
    (hd : ctx'.chain.devices = ctx.chain.devices) : StagesIn i dev buf ctx' := by
  unfold StagesIn
  rw [hp, hd]
  exact h

/-- What is put back of a driver. -/
theorem stagesIn_setPinDriver {devices : List ChainDevice} {j : ℤ} {pd : PinDriver σ}
    (hpd : pd.Holds (HasDevices devices) j (StandsFor dev buf)) (hdev : bsdlAt devices j = some dev)
    (hg : (deviceAllowsLiveExtest dev).1 = true) : StagesIn i dev buf (ctx.setPinDriver i pd) := by
  refine ⟨pd.toDriverData, AList.lookup_insert _, ?_, hg, hpd.2⟩
  show bsdlAt pd.chain.devices pd.deviceIndex = some dev
  rw [hpd.1.1, hpd.1.2]
  exact hdev

/-- A request whose driver is not refused. -/
theorem stages_of_driver {data : DriverData} {ctx₁ : HardwareContext σ}
    (hdriver : HardwareContext.pinDriver T i ctx = some (.ok data, ctx₁))
    (hdev : bsdlAt ctx₁.chain.devices data.deviceIndex = some dev) (hg : (deviceAllowsLiveExtest dev).1 = true)
    (hfill : ∀ pd₁, PinDriver.fill T { data with chain := ctx₁.chain } = some pd₁ → StandsFor dev buf pd₁.bsrData)
    (e : setPin T i r.pinName r.value ctx = some (response, ctx')) :
    ∃ buf', Stages T i dev ctx r response.isOk buf buf' ∧ StagesIn i dev buf' ctx' := by
  have hk := kept_devices T ctx₁.chain.devices
  rcases setPin_cases e with ⟨what, hwhat, -⟩ | ⟨data', ctx₂, pd, hdriver', hparts⟩
  · cases (Prod.mk.inj (Option.some.inj (hdriver.symm.trans hwhat))).1
  obtain ⟨hdata, rfl⟩ := Prod.mk.inj (Option.some.inj (hdriver.symm.trans hdriver'))
  obtain rfl := Except.ok.inj hdata
  have hhas : PinDriver.Has (HasDevices ctx₁.chain.devices) data.deviceIndex { data with chain := ctx₁.chain } := ⟨rfl, rfl⟩
  rcases hparts with ⟨hrequest, hok, rfl⟩ | ⟨applied, pd', hrequest, happly, hok, rfl⟩
  · rcases PinDriver.request_cases hk hhas hdev hg hfill hrequest with ⟨msg, hstage, -, hpd⟩ | ⟨buf', -, htrue, -⟩
    · exact ⟨buf, .failed hstage hok, stagesIn_setPinDriver hpd hdev hg⟩
    · cases htrue
  · rcases PinDriver.request_cases hk hhas hdev hg hfill hrequest with ⟨msg, -, hfalse, -⟩ | ⟨buf', hstage, -, hpd⟩
    · cases hfalse
    have hstaged : stagedPin T i r.pinName r.value ctx = some pd := stagedPin_of_request hdriver hrequest
    refine ⟨buf', .staged hstage (fun hdrives => ?_) fun htrue => ?_,
      stagesIn_setPinDriver (PinDriver.holds_applyOutputs hk hdev hg _ _ _ hpd happly) hdev hg⟩
    · unfold drivesOnceStaged at hdrives
      rw [hstaged] at hdrives
      rw [hok]
      exact PinDriver.applied_of_drives hk hpd.1 hdev hg hdrives happly
    · rw [hok] at htrue
      subst htrue
      obtain ⟨w, hcall, hcontents⟩ := PinDriver.writeCall_contents hk hpd hdev hg happly
      rw [pinContents, Request.writes, hstaged, Option.bind_some, hcall]
      exact congrArg (fun c => [c]) hcontents

/-- Every request for the device begins with this buffer. -/
def BeginsWith (T : Target σ) (i : ℤ) (dev : BSDLDevice) (buf : List Byte) (ctx : HardwareContext σ) : Prop :=
  ∀ r response ctx', setPin T i r.pinName r.value ctx = some (response, ctx') →
    ∃ buf', Stages T i dev ctx r response.isOk buf buf' ∧ StagesIn i dev buf' ctx'

theorem StagesIn.beginsWith (h : StagesIn i dev buf ctx) : BeginsWith T i dev buf ctx := by
  obtain ⟨data, hlookup, hdev, hg, hstands⟩ := h
  have hdriver : HardwareContext.pinDriver T i ctx = some (.ok data, ctx) := by
    unfold HardwareContext.pinDriver
    rw [hlookup]
  have hpd : PinDriver.Holds (HasDevices ctx.chain.devices) data.deviceIndex (StandsFor dev buf)
      { data with chain := ctx.chain } := ⟨⟨rfl, rfl⟩, hstands⟩
  intro r response ctx' e
  exact stages_of_driver hdriver hdev hg
    (fun pd₁ hfill => (PinDriver.holds_standsFor_fill (kept_devices T _) hpd hdev hfill).2) e

theorem beginsWith_of_baseline (h : baseline T i ctx = some (dev, buf)) : BeginsWith T i dev buf ctx := by
  intro r response ctx' e
  obtain ⟨⟨answer, ctx₁⟩, hdriver, h⟩ := Option.bind_eq_some_iff.mp h
  cases answer with
  | error what => cases h
  | ok data =>
    obtain ⟨dev', hdev, h⟩ := Option.bind_eq_some_iff.mp h
    split at h
    · rename_i hallowed
      obtain ⟨pd, hfill, h⟩ := Option.bind_eq_some_iff.mp h
      obtain ⟨rfl, rfl⟩ := Prod.mk.inj (Option.some.inj h)
      have hat : bsdlAt ctx₁.chain.devices data.deviceIndex = some dev' := hdev
      refine stages_of_driver hdriver hat (PinDriver.guard_of_allowed hdev hallowed) (fun pd₁ hfill₁ => ?_) e
      obtain rfl := Option.some.inj (hfill.symm.trans hfill₁)
      exact (PinDriver.standsFor_fill (kept_devices T _) (show PinDriver.Has (HasDevices ctx₁.chain.devices) data.deviceIndex
        { data with chain := ctx₁.chain } from ⟨rfl, rfl⟩) hat hfill).2
    · cases h

/-! ### Requests that are refused -/

/-- There is no device, or its driver is kept and may not be driven. -/
def Refuses (i : ℤ) (ctx : HardwareContext σ) : Prop :=
  (ctx.pinDrivers.lookup i = none ∧ ctx.hasDevice i = false) ∨ ∃ data, ctx.pinDrivers.lookup i = some data ∧
    ∀ dev, bsdlAt ctx.chain.devices data.deviceIndex = some dev → (deviceAllowsLiveExtest dev).1 = false

theorem Refuses.congr (h : Refuses i ctx) (hp : ctx'.pinDrivers = ctx.pinDrivers)
    (hd : ctx'.chain.devices = ctx.chain.devices) : Refuses i ctx' := by
  unfold Refuses HardwareContext.hasDevice
  rw [hp, hd]
  exact h

/-- A request whose driver may not be driven fails. -/
theorem refused_of_driver {data : DriverData} {ctx₁ : HardwareContext σ}
    (hdriver : HardwareContext.pinDriver T i ctx = some (.ok data, ctx₁))
    (hnot : ∀ dev, bsdlAt ctx₁.chain.devices data.deviceIndex = some dev → (deviceAllowsLiveExtest dev).1 = false)
    (e : setPin T i r.pinName r.value ctx = some (response, ctx')) : response.isOk = false ∧ Refuses i ctx' := by
  have hrefused : ∀ {ok pd}, PinDriver.request T r { data with chain := ctx₁.chain } = some (ok, pd) →
      ok = false ∧ pd.chain = ctx₁.chain ∧ pd.deviceIndex = data.deviceIndex := by
    intro ok pd hrequest
    rw [PinDriver.request_eq] at hrequest
    rcases PinDriver.guarded_cases hrequest with ⟨hok, lastError, rfl⟩ | ⟨dev, pd₁, hdev, hallowed, -⟩
    · exact ⟨hok, rfl, rfl⟩
    · have hg := PinDriver.guard_of_allowed hdev hallowed
      rw [hnot dev hdev] at hg
      cases hg
  rcases setPin_cases e with ⟨what, hwhat, -⟩ | ⟨data', ctx₂, pd, hdriver', hparts⟩
  · cases (Prod.mk.inj (Option.some.inj (hdriver.symm.trans hwhat))).1
  obtain ⟨hdata, rfl⟩ := Prod.mk.inj (Option.some.inj (hdriver.symm.trans hdriver'))
  obtain rfl := Except.ok.inj hdata
  rcases hparts with ⟨hrequest, hok, rfl⟩ | ⟨applied, pd', hrequest, -, -, -⟩
  · obtain ⟨-, hchain, hindex⟩ := hrefused hrequest
    refine ⟨hok, .inr ⟨pd.toDriverData, AList.lookup_insert _, ?_⟩⟩
    show ∀ dev, bsdlAt pd.chain.devices pd.deviceIndex = some dev → _
    rw [hchain, hindex]
    exact hnot
  · cases (hrefused hrequest).1

theorem pinDriver_eq_error {what : String} {ctx₁ : HardwareContext σ}
    (h : HardwareContext.pinDriver T i ctx = some (.error what, ctx₁)) :
    ctx₁ = ctx ∧ ctx.pinDrivers.lookup i = none ∧ ctx.hasDevice i = false := by
  unfold HardwareContext.pinDriver at h
  split at h
  · cases h
  rename_i hlookup
  split at h
  · obtain ⟨pd, -, h⟩ := Option.map_eq_some_iff.mp h
    cases h
  · rename_i hno
    obtain ⟨-, rfl⟩ := Prod.mk.inj (Option.some.inj h)
    exact ⟨rfl, hlookup, Bool.eq_false_iff.mpr hno⟩

/-- Requests that are refused go on being refused. -/
theorem Refuses.step (h : Refuses i ctx) (e : setPin T i r.pinName r.value ctx = some (response, ctx')) :
    response.isOk = false ∧ Refuses i ctx' := by
  rcases h with ⟨hlookup, hno⟩ | ⟨data, hlookup, hnot⟩
  · rcases setPin_cases e with ⟨what, hwhat, hok⟩ | ⟨data, ctx₁, pd, hdriver, -⟩
    · obtain ⟨rfl, -⟩ := pinDriver_eq_error hwhat
      exact ⟨hok, .inl ⟨hlookup, hno⟩⟩
    · unfold HardwareContext.pinDriver at hdriver
      rw [hlookup, hno] at hdriver
      cases hdriver
  · have hdriver : HardwareContext.pinDriver T i ctx = some (.ok data, ctx) := by
      unfold HardwareContext.pinDriver
      rw [hlookup]
    exact refused_of_driver hdriver hnot e

/-- Without a baseline, requests are refused. -/
theorem refuses_of_baseline (h : baseline T i ctx = none) (e : setPin T i r.pinName r.value ctx = some (response, ctx')) :
    response.isOk = false ∧ Refuses i ctx' := by
  rcases setPin_cases e with ⟨what, hwhat, hok⟩ | ⟨data, ctx₁, pd, hdriver, hparts⟩
  · obtain ⟨rfl, hlookup, hno⟩ := pinDriver_eq_error hwhat
    exact ⟨hok, .inl ⟨hlookup, hno⟩⟩
  by_cases hallowed : PinDriver.extestAllowed ({ data with chain := ctx₁.chain } : PinDriver σ) = true
  · -- the driver would have been filled
    exfalso
    obtain ⟨ok, hrequest⟩ : ∃ ok, PinDriver.request T r { data with chain := ctx₁.chain } = some (ok, pd) := by
      rcases hparts with ⟨hrequest, -⟩ | ⟨applied, pd', hrequest, -⟩
      · exact ⟨false, hrequest⟩
      · exact ⟨true, hrequest⟩
    rw [PinDriver.request_eq, PinDriver.guarded_eq] at hrequest
    unfold baseline at h
    rw [hdriver] at h
    simp only [Option.bind_eq_bind, Option.bind_some] at h
    cases hdev : PinDriver.bsdl ({ data with chain := ctx₁.chain } : PinDriver σ) with
    | none =>
      unfold PinDriver.extestAllowed at hallowed
      rw [hdev] at hallowed
      cases hallowed
    | some dev =>
      rw [hdev] at h hrequest
      simp only [hallowed, if_true] at h hrequest
      obtain ⟨pd₁, hfill, -⟩ := Option.bind_eq_some_iff.mp hrequest
      rw [hfill] at h
      cases h
  · refine refused_of_driver hdriver (fun dev hdev => ?_) e
    unfold PinDriver.extestAllowed at hallowed
    rw [show PinDriver.bsdl ({ data with chain := ctx₁.chain } : PinDriver σ) = some dev from hdev] at hallowed
    exact Bool.eq_false_iff.mpr hallowed

/-! ### Whole sequences -/

/-- A sequence without requests that fail after staging writes what its successful requests stage. -/
theorem contents_of_beginsWith {C : HardwareContext σ → PinRequest → Prop} {ws : List PinWrite}
    (hC : ∀ ctx r, C ctx r → ∀ response ctx', setPin T i r.pinName r.value ctx = some (response, ctx') →
      drivesOnceStaged T i ctx r = true ∨ response.isOk = true)
    (h : PinWrites T i C ctx ws) (hbegins : BeginsWith T i dev buf ctx) :
    (succeeded ws).map PinWrite.contents = contentsFrom dev buf ((succeeded ws).map PinWrite.request) := by
  induction h generalizing buf with
  | nil => rfl
  | @cons ctx ctx₁ ctx₂ ws r hr response e hp hd rest ih =>
    obtain ⟨buf', hstages, hnext⟩ := hbegins r response ctx₁ e
    have ih := ih (hnext.congr hp hd).beginsWith
    cases hstages with
    | failed hstage hok =>
      rw [succeeded_cons_of_failed hok]
      exact ih
    | staged hstage hdrives hcontents =>
      have hok : response.isOk = true := (hC _ r hr response ctx₁ e).elim hdrives id
      rw [succeeded_cons_of_ok hok, List.map_cons, List.map_cons, contentsFrom, hstage, ih]
      simp only [hcontents hok]

/-- A sequence of requests that are refused has no successful one. -/
theorem succeeded_of_refuses {C : HardwareContext σ → PinRequest → Prop} {ws : List PinWrite} (h : PinWrites T i C ctx ws)
    (hrefuses : ∀ (r : PinRequest) response ctx', setPin T i r.pinName r.value ctx = some (response, ctx') →
      response.isOk = false ∧ Refuses i ctx') : succeeded ws = [] := by
  induction h with
  | nil => rfl
  | @cons ctx ctx₁ ctx₂ ws r hr response e hp hd rest ih =>
    obtain ⟨hok, hnext⟩ := hrefuses r response ctx₁ e
    rw [succeeded_cons_of_failed hok]
    exact ih fun r response ctx' e => (hnext.congr hp hd).step e

/-- What such a sequence writes depends only on the baseline and on its successful requests. -/
theorem contents_of_baseline {C : HardwareContext σ → PinRequest → Prop} {ws : List PinWrite}
    (hC : ∀ ctx r, C ctx r → ∀ response ctx', setPin T i r.pinName r.value ctx = some (response, ctx') →
      drivesOnceStaged T i ctx r = true ∨ response.isOk = true)
    (h : PinWrites T i C ctx ws) : (succeeded ws).map PinWrite.contents = match baseline T i ctx with
      | none => []
      | some (dev, buf) => contentsFrom dev buf ((succeeded ws).map PinWrite.request) := by
  cases hb : baseline T i ctx with
  | none => rw [succeeded_of_refuses h fun _ _ _ e => refuses_of_baseline hb e, List.map_nil]
  | some b => exact contents_of_beginsWith hC h (beginsWith_of_baseline hb)

/-- Requests all of which succeed meet the condition that they do. -/
theorem PinWrites.of_ok {ws : List PinWrite} (h : PinWrites T i (fun _ _ => True) ctx ws) (hok : ∀ w ∈ ws, w.ok = true) :
    PinWrites T i (fun ctx r => ∀ response ctx', setPin T i r.pinName r.value ctx = some (response, ctx') →
      response.isOk = true) ctx ws := by
  induction h with
  | nil ctx => exact .nil ctx
  | @cons ctx ctx₁ ctx₂ ws r hr response e hp hd rest ih =>
    have hr : ∀ response ctx', setPin T i r.pinName r.value ctx = some (response, ctx') → response.isOk = true := by
      intro response' ctx' e'
      obtain ⟨rfl, -⟩ := Prod.mk.inj (Option.some.inj (e.symm.trans e'))
      exact hok _ List.mem_cons_self
    exact .cons r hr e hp hd (ih fun w hw => hok w (List.mem_cons_of_mem _ hw))

/-- **A failed pin write has no later effect.** Take a sequence of `set_pin` requests for one device, none of which fails
after it has staged its pin, and the requests among them that succeed, carried out on any hardware with the same baseline
so that they all succeed. Each of them writes the same contents to the boundary register in both sequences. -/
theorem contents_without_failures {σ₁ σ₂ : Type} {T₁ : Target σ₁} {T₂ : Target σ₂} {i : ℤ} {ctx₁ : HardwareContext σ₁}
    {ctx₂ : HardwareContext σ₂} {ws₁ ws₂ : List PinWrite} (hbase : baseline T₁ i ctx₁ = baseline T₂ i ctx₂)
    (h₁ : PinWrites T₁ i (fun ctx r => drivesOnceStaged T₁ i ctx r = true) ctx₁ ws₁)
    (h₂ : PinWrites T₂ i (fun _ _ => True) ctx₂ ws₂) (hok : ∀ w ∈ ws₂, w.ok = true)
    (hrequests : ws₂.map PinWrite.request = (succeeded ws₁).map PinWrite.request) :
    ws₂.map PinWrite.contents = (succeeded ws₁).map PinWrite.contents := by
  have hall : succeeded ws₂ = ws₂ := List.filter_eq_self.mpr hok
  have hcontents₁ := contents_of_baseline (fun _ _ hr _ _ _ => .inl hr) h₁
  have hcontents₂ := contents_of_baseline (fun _ _ hr response ctx' e => .inr (hr response ctx' e)) (h₂.of_ok hok)
  rw [hall, hrequests] at hcontents₂
  rw [hcontents₁, hcontents₂, hbase]

/-! ### Two lamps -/

/-- Requests carried out one after the other while they meet the condition, on hardware that does not change by itself. -/
def setPins (T : Target σ) (i : ℤ) (C : HardwareContext σ → PinRequest → Bool) :
    List PinRequest → HardwareContext σ → Option (List PinWrite)
  | [], _ => some []
  | r :: rs, ctx =>
    if C ctx r then do
      let (response, ctx') ← setPin T i r.pinName r.value ctx
      let ws ← setPins T i C rs ctx'
      pure (⟨r, response.isOk, pinContents T i ctx r⟩ :: ws)
    else none

theorem pinWrites_of_setPins {C : HardwareContext σ → PinRequest → Bool} {D : HardwareContext σ → PinRequest → Prop}
    (hD : ∀ ctx r, C ctx r = true → D ctx r) {rs : List PinRequest} {ws : List PinWrite} (h : setPins T i C rs ctx = some ws) :
    PinWrites T i D ctx ws := by
  induction rs generalizing ctx ws with
  | nil =>
    obtain rfl := Option.some.inj h
    exact .nil ctx
  | cons r rs ih =>
    unfold setPins at h
    split at h
    · rename_i hr
      obtain ⟨⟨response, ctx'⟩, e, h⟩ := Option.bind_eq_some_iff.mp h
      obtain ⟨ws', hws', h⟩ := Option.bind_eq_some_iff.mp h
      obtain rfl := Option.some.inj h
      exact .cons r (hD ctx r hr) e rfl rfl (ih hws')
    · cases h

/-- A device that drives one lamp with each of two pins. -/
def twoLamps : BSDLDevice where
  instructionLength := 2
  instructions := (AList.singleton "EXTEST".toList (0 : BitVec 32)).insert "SAMPLE".toList 1
  boundaryLength := 2
  boundaryCells := [{ position := 0, pinName := ['A'], function := .output2 },
    { position := 1, pinName := ['B'], function := .output2 }]
  pins := (AList.singleton ['A'] { name := ['A'], direction := .out }).insert ['B'] { name := ['B'], direction := .out }

/-- A context with such a device and a driver for it, whose buffer has both lamps dark. -/
def lampsContext (outcomes : List Outcome) : HardwareContext (List (Device BoundaryDevice)) :=
  let chain := JtagChain.idle [{ position := 0, idcode := 0, irLength := 2, bsdl := some twoLamps }]
    [⟨.powered ⟨2, [false, false], [true, false], 2, [false], zero_ne_bypass, one_ne_bypass⟩, []⟩]
  { config := {}
    chain := { chain with tap := { chain.tap with device := { chain.tap.device with outcomes } } }
    scanners := ∅
    pinDrivers := AList.singleton 0 { deviceIndex := 0, bsrData := [0] }
    left := .runTestIdle }

theorem baseline_lampsContext (outcomes : List Outcome) :
    baseline (Target.chain BoundaryDevice.logic) 0 (lampsContext outcomes) = some (twoLamps, [0]) := rfl

/-- Light the second lamp. -/
def lightB : PinRequest := ⟨['B'], 1⟩

/-- It is lit alone. -/
def litB : PinWrite := ⟨lightB, true, [[false, true]]⟩

theorem litB_alone : PinWrites (Target.chain BoundaryDevice.logic) 0 (fun _ _ => True) (lampsContext []) [litB] := by
  have hrun : setPins (Target.chain BoundaryDevice.logic) 0 (fun _ _ => true) [lightB] (lampsContext []) = some [litB] := by
    decide +kernel
  exact pinWrites_of_setPins (fun _ _ _ => trivial) hrun

theorem contents_without_failures_unknown_pin :
    [litB].map PinWrite.contents = (succeeded [⟨⟨['C'], 1⟩, false, []⟩, litB]).map PinWrite.contents := by
  have hrun : setPins (Target.chain BoundaryDevice.logic) 0 (drivesOnceStaged (Target.chain BoundaryDevice.logic) 0)
      [⟨['C'], 1⟩, lightB] (lampsContext []) = some [⟨⟨['C'], 1⟩, false, []⟩, litB] := by
    decide +kernel
  exact contents_without_failures rfl (pinWrites_of_setPins (fun _ _ h => h) hrun) litB_alone (by decide) (by decide)

/-- The USB fails while EXTEST is loaded to light the first lamp, which is reported; lighting the second one then lights both. -/
theorem failed_pin_driven : ∃ ws,
    baseline (Target.chain BoundaryDevice.logic) 0 (lampsContext [.cut 0 0 4]) =
        baseline (Target.chain BoundaryDevice.logic) 0 (lampsContext []) ∧
      PinWrites (Target.chain BoundaryDevice.logic) 0 (fun _ _ => True) (lampsContext [.cut 0 0 4]) ws ∧
      PinWrites (Target.chain BoundaryDevice.logic) 0 (fun _ _ => True) (lampsContext []) [litB] ∧
      (∀ w ∈ [litB], w.ok = true) ∧ [litB].map PinWrite.request = (succeeded ws).map PinWrite.request ∧
      [litB].map PinWrite.contents ≠ (succeeded ws).map PinWrite.contents := by
  have hrun : setPins (Target.chain BoundaryDevice.logic) 0 (fun _ _ => true) [⟨['A'], 1⟩, lightB]
      (lampsContext [.cut 0 0 4]) = some [⟨⟨['A'], 1⟩, false, []⟩, ⟨lightB, true, [[true, true]]⟩] := by
    decide +kernel
  exact ⟨_, (baseline_lampsContext _).trans (baseline_lampsContext _).symm,
    pinWrites_of_setPins (fun _ _ _ => trivial) hrun, litB_alone, by decide, by decide, by decide⟩

end OwlTap.Mcp
