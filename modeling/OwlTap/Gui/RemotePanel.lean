import OwlTap.Gui.DaemonRequests
import OwlTap.Gui.DaemonRpc
import OwlTap.Ila.RequestedCapture
import OwlTap.Mcp.IlaRequests

/-!
# The ILA panel in daemon mode

Every button of the panel is a request or two to the daemon, and what the panel shows is made of the
answers. From the panel to the core and back: whatever is edited and pressed, the panel shows the caps, a
status and the samples that the core has had since, and the core triggers on what was set in the panel at
the last Arm that it took (`remote_panel_follows`). A refused Arm leaves no error on the panel.
-/

namespace OwlTap.Gui

open OwlTap Ftdi Jtag Ila Mcp

/-! ### The panel -/

/-- The panel with a client of the daemon. -/
structure RemotePanel where
  gui : GuiState
  status : IlaStatus := ⟨false, false, false⟩
  deviceIndex : BitVec 32
  useBscane : Bool
  userChain : BitVec 32
  /-- `next_id_` of the client. -/
  nextId : ℤ := 1
  /-- For the statements: what has been asked of the daemon. -/
  asked : List IlaRequest := []
  /-- For the statements: the panel as it was at the last Arm that has been taken. -/
  armed : Option DaemonPanel := none
  /-- For the statements: whether the lanes are others than those that the last probe has brought. -/
  ownLanes : Bool := true

/-- The body of the `try` in `pollStatus`, with the answer to `ila/status`. -/
def pollStatus (answer : Except String Json) : Throwing RemotePanel Unit := do
  let r ← answer
  if r.contains "armed" then
    let armed ← r.value Json.getBool "armed" false
    modify fun p => { p with status.armed := armed }
    let triggered ← r.value Json.getBool "triggered" false
    modify fun p => { p with status.triggered := triggered }
    let full ← r.value Json.getBool "full" false
    modify fun p => { p with status.full := full }
    modify fun p => { p with gui.panel.statusValid := true, gui.panel.lastError := "" }

/-- A call that the panel makes. -/
inductive PanelCall where
  | ilaProbe
  | ilaArm
  | ilaStop
  | ilaForce
  | ilaReset
  | ilaReadSamples
  | ilaStatus

namespace PanelCall

/-- The call, with what is set in the panel. -/
def rpcCall (p : RemotePanel) : PanelCall → RpcCall
  | ilaProbe => .ilaProbe p.deviceIndex p.useBscane p.userChain
  | ilaArm =>
    let r := p.gui.panel.computeTriggerRegisters
    .ilaArm p.deviceIndex p.useBscane p.userChain r.mask r.value r.riseMask r.fallMask r.mask2 r.val2 p.gui.panel.orMode
      (BitVec.ofInt 32 p.gui.panel.preSamples)
  | ilaStop => .ilaStop p.deviceIndex p.useBscane p.userChain
  | ilaForce => .ilaForce p.deviceIndex p.useBscane p.userChain
  | ilaReset => .ilaReset p.deviceIndex p.useBscane p.userChain
  | ilaReadSamples => .ilaReadSamples p.deviceIndex p.useBscane p.userChain
  | ilaStatus => .ilaStatus p.deviceIndex p.useBscane p.userChain

/-- What the panel does with the answer. -/
def handle (answer : Except String Json) (p : RemotePanel) : PanelCall → RemotePanel
  | ilaProbe => { p with gui := GuiRequest.ilaProbe.handle answer p.gui, ownLanes := false }
  | ilaArm =>
    { p with gui := GuiRequest.ilaArm.handle answer p.gui, armed := if answer.isOk then some p.gui.panel else p.armed }
  | ilaStop => { p with gui := GuiRequest.ilaStop.handle answer p.gui }
  | ilaForce => { p with gui := GuiRequest.ilaForce.handle answer p.gui }
  | ilaReset => { p with gui := GuiRequest.ilaReset.handle answer p.gui }
  | ilaReadSamples => { p with gui := GuiRequest.ilaReadSamples.handle answer p.gui }
  | ilaStatus =>
    match (pollStatus answer).run.run p with
    | (.ok (), p) => p
    | (.error e, p) => { p with gui.panel.lastError := e }

/-- What is asked of the ILA: the trigger that is set in the panel, with the 16 bits that there are for
`pre_samples`. -/
def request (p : RemotePanel) : PanelCall → IlaRequest
  | ilaProbe => .probe
  | ilaArm =>
    let r := p.gui.panel.computeTriggerRegisters
    .arm
      { mask := r.mask
        value := r.value
        riseMask := r.riseMask
        fallMask := r.fallMask
        mask2 := r.mask2
        val2 := r.val2
        orMode := p.gui.panel.orMode
        preSamples := BitVec.ofInt 16 p.gui.panel.preSamples }
  | ilaStop => .stop
  | ilaForce => .forceTrigger
  | ilaReset => .reset
  | ilaReadSamples => .readSamples
  | ilaStatus => .status

end PanelCall

/-- What the user does. -/
inductive PanelAction where
  /-- The widgets of the lanes, the mode and the slider. -/
  | edit (signals : List IlaSignalDef) (laneTriggers : List LaneTrigger) (orMode : Bool) (preSamples : ℤ)
      (triggerDirty : Bool)
  | pollCaps
  | doArm
  | doStop
  | doForce
  | doReset
  | doRead
  | pollStatus

/-- The calls of an action. -/
def PanelAction.calls : PanelAction → List PanelCall
  | edit _ _ _ _ _ => []
  | pollCaps => [.ilaProbe]
  | doArm => [.ilaArm, .ilaStatus]
  | doStop => [.ilaStop, .ilaStatus]
  | doForce => [.ilaForce, .ilaStatus]
  | doReset => [.ilaReset]
  | doRead => [.ilaReadSamples]
  | pollStatus => [.ilaStatus]

/-- What an action changes before its calls. -/
def PanelAction.prepare (p : RemotePanel) : PanelAction → RemotePanel
  | edit signals laneTriggers orMode preSamples triggerDirty =>
    { p with
      gui := { p.gui with panel := { p.gui.panel with
        signals := signals
        laneTriggers := laneTriggers
        orMode := orMode
        preSamples := preSamples
        triggerDirty := triggerDirty } }
      ownLanes := true }
  | _ => p

/-! ### The daemon -/

/-- The request about an ILA that an operation is. -/
def ilaRequestOf : GuiRpcServer.Operation → Option (IlaTarget × IlaRequest)
  | .ilaStatus target => some (target, .status)
  | .ilaProbe target => some (target, .probe)
  | .ilaArm target trigger => some (target, .arm trigger)
  | .ilaStop target => some (target, .stop)
  | .ilaForceTrigger target => some (target, .forceTrigger)
  | .ilaReset target => some (target, .reset)
  | .ilaReadSamples target => some (target, .readSamples)
  | _ => none

section Daemon

variable {σ : Type} (T : Target σ) (others : GuiRpcServer.Operation → JtagChain σ → Except String Json × JtagChain σ)

/-- What the daemon performs: the requests about an ILA on its chain, and the others somehow. -/
def performOn (op : GuiRpcServer.Operation) (chain : JtagChain σ) : Except String Json × JtagChain σ :=
  match ilaRequestOf op with
  | some (target, r) => (r.task T target chain).getD (.error "", chain)
  | none => others op chain

/-- A call of the panel. -/
def RemotePanel.call (s : RemotePanel × JtagChain σ) (c : PanelCall) : RemotePanel × JtagChain σ :=
  let (answer, chain) := rpc (performOn T others) s.1.nextId (c.rpcCall s.1) s.2
  (c.handle (answer.getD (.error ("timeout waiting for " ++ (c.rpcCall s.1).method)))
    { s.1 with nextId := s.1.nextId + 1, asked := s.1.asked ++ [c.request s.1] }, chain)

/-- An action of the user. -/
def RemotePanel.act (s : RemotePanel × JtagChain σ) (a : PanelAction) : RemotePanel × JtagChain σ :=
  a.calls.foldl (RemotePanel.call T others) (a.prepare s.1, s.2)

/-- The panel gets its client, and is then used. -/
def RemotePanel.session (p : RemotePanel) (chain : JtagChain σ) (actions : List PanelAction) : RemotePanel × JtagChain σ :=
  actions.foldl (RemotePanel.act T others) (RemotePanel.act T others (p, chain) .pollCaps)

end Daemon

/-! ### What the answers make of the panel -/

section Answers

open OwlTap.Throwing (run_lift_bind run_modify_bind run_bind run_forIn)

variable {addrW : ℕ} (P : IlaParams)

/-- The lanes of a core: its signal definitions, or one of the whole word. -/
def lanesOf (addrW : ℕ) : List IlaSignalDef :=
  if (capsOf P addrW).sigCount = 0 then [⟨31, 0⟩]
  else (IlaRequest.signalDefs P (capsOf P addrW)).map fun e => ⟨e.hi, e.lo⟩

theorem toUInt8_getInt {n : ℕ} (h : n < 2 ^ 8) : toUInt8 (BitVec.ofInt 32 n).toInt = n := by
  have hsmall : (BitVec.ofInt 32 (n : ℤ)).toInt = n := by
    rw [BitVec.toInt_ofInt_eq_self (by decide) (by omega) (by omega)]
  rw [toUInt8, hsmall, BitVec.ofInt_natCast, BitVec.toNat_ofNat, Nat.mod_eq_of_lt h]

/-- What is counted or measured fits into a byte. -/
theorem capsOf_lt (addrW : ℕ) : (capsOf P addrW).version < 2 ^ 8 ∧ (capsOf P addrW).numCh < 2 ^ 8 ∧
    (capsOf P addrW).sigCount < 2 ^ 8 ∧ (capsOf P addrW).dataW < 2 ^ 8 ∧ (capsOf P addrW).addrW < 2 ^ 8 := by
  have hfield (lo w : ℕ) : field (configVal P 32 addrW) lo w < 2 ^ w := Nat.mod_lt _ (Nat.two_pow_pos w)
  refine ⟨hfield 24 8, (hfield 20 4).trans (by decide), (hfield 16 4).trans (by decide), ?_, hfield 0 8⟩
  exact Nat.succ_lt_succ ((hfield 10 6).trans (by decide : 2 ^ 6 < 255))

theorem depth_capsOf (hw : 1 ≤ addrW ∧ addrW ≤ 32) : 0 < (capsOf P addrW).depth ∧ (capsOf P addrW).depth < 2 ^ 31 := by
  rw [(IlaDriver.capsOf_fields P hw).2.2.2.2.1]
  split
  · decide
  · exact ⟨Nat.two_pow_pos _, Nat.pow_lt_pow_right (by decide) (by omega)⟩

theorem readSignalDef_entryReply {e : IlaSignalEntry} (hhi : e.hi < 2 ^ 8) (hlo : e.lo < 2 ^ 8) :
    readSignalDef (IlaRequest.entryReply e) = .ok ⟨e.hi, e.lo⟩ := by
  have hint {n : ℕ} (h : n < 2 ^ 8) : (Json.int n).getInt = .ok n := by
    show Except.ok (BitVec.ofInt 32 n).toInt = _
    rw [BitVec.toInt_ofInt_eq_self (by decide) (by omega) (by omega)]
  have hhi' : (IlaRequest.entryReply e).value Json.getInt "hi" 31 = .ok (e.hi : ℤ) := hint hhi
  have hlo' : (IlaRequest.entryReply e).value Json.getInt "lo" 0 = .ok (e.lo : ℤ) := hint hlo
  rw [readSignalDef, bind_ok hhi', bind_ok hlo']
  rfl

/-- The GUI after a probe of a core. -/
def probed (addrW : ℕ) (g : GuiState) : GuiState :=
  let caps := capsOf P addrW
  { g with panel := { g.panel with
    capsRemote := caps
    lastError := ""
    preSamples := if (caps.depth : ℤ) ≤ g.panel.preSamples then (caps.depth : ℤ).tdiv 4 else g.panel.preSamples
    signals := lanesOf P addrW
    laneTriggers := (lanesOf P addrW).map fun _ => {}
    rtlSigDefsLoaded := decide (caps.sigCount ≠ 0) } }

/-- What `ila/probe` answers about the caps is read as it was written. -/
theorem read_caps (hw : 1 ≤ addrW ∧ addrW ≤ 32) :
    ({ version := toUInt8 (BitVec.ofInt 32 (capsOf P addrW).version).toInt
       numCh := toUInt8 (BitVec.ofInt 32 (capsOf P addrW).numCh).toInt
       sigCount := toUInt8 (BitVec.ofInt 32 (capsOf P addrW).sigCount).toInt
       dataW := toUInt8 (BitVec.ofInt 32 (capsOf P addrW).dataW).toInt
       addrW := toUInt8 (BitVec.ofInt 32 (capsOf P addrW).addrW).toInt
       depth := (BitVec.ofInt 32 (capsOf P addrW).depth).toNat
       raw := BitVec.ofInt 32 (capsOf P addrW).raw.toNat
       idcode := BitVec.ofInt 32 (capsOf P addrW).idcode.toNat
       probed := true } : IlaCaps) = capsOf P addrW := by
  obtain ⟨hversion, hnumCh, hsigCount, hdataW, haddrW⟩ := capsOf_lt P addrW
  have hdepth : (BitVec.ofInt 32 (capsOf P addrW).depth).toNat = (capsOf P addrW).depth := by
    rw [BitVec.ofInt_natCast, BitVec.toNat_ofNat, Nat.mod_eq_of_lt ((depth_capsOf P hw).2.trans (by decide))]
  have hword (x : BitVec 32) : BitVec.ofInt 32 x.toNat = x := by
    rw [BitVec.ofInt_natCast, BitVec.ofNat_toNat, BitVec.setWidth_eq]
  rw [toUInt8_getInt hversion, toUInt8_getInt hnumCh, toUInt8_getInt hsigCount, toUInt8_getInt hdataW,
    toUInt8_getInt haddrW, hdepth, hword, hword, ← (IlaDriver.capsOf_fields P hw).2.2.2.2.2]

/-- The depth of a core that has been probed is the panel's. -/
theorem activeDepth_capsOf (hw : 1 ≤ addrW ∧ addrW ≤ 32) {p : DaemonPanel} (h : p.capsRemote = capsOf P addrW) :
    p.activeDepth = (capsOf P addrW).depth := by
  obtain ⟨hpos, hlt⟩ := depth_capsOf P hw
  rw [DaemonPanel.activeDepth, h, if_pos hpos.ne', ← BitVec.ofInt_natCast,
    BitVec.toInt_ofInt_eq_self (by decide) (by omega) (by omega)]

theorem resetSignalDefs_capsOf (hw : 1 ≤ addrW ∧ addrW ≤ 32) {p : DaemonPanel} (h : p.capsRemote = capsOf P addrW) :
    p.resetSignalDefs = { p with signals := [⟨31, 0⟩], laneTriggers := [{}] } := by
  obtain ⟨-, hdata, -, -, -, hprobed⟩ := IlaDriver.capsOf_fields P hw
  have hhi : (if p.capsRemote.probed then (p.capsRemote.dataW : ℤ) else 32) - 1 = 31 := by
    rw [h, if_pos hprobed, hdata]
    rfl
  rw [DaemonPanel.resetSignalDefs, hhi]

/-- The lanes that are read are those of the signal definitions. -/
theorem foldl_lanes {defs : List IlaSignalEntry} (g : GuiState) :
    defs.foldl (fun g e => { g with panel.signals := g.panel.signals ++ [⟨(e.hi : ℤ), (e.lo : ℤ)⟩] }) g =
      { g with panel.signals := g.panel.signals ++ defs.map fun e => ⟨(e.hi : ℤ), (e.lo : ℤ)⟩ } := by
  induction defs generalizing g with
  | nil => rw [List.foldl_nil, List.map_nil, List.append_nil]
  | cons e defs ih => rw [List.foldl_cons, ih, List.map_cons, List.append_assoc, List.singleton_append]

theorem run_pollCaps (hw : 1 ≤ addrW ∧ addrW ≤ 32) (g : GuiState) :
    (pollCaps (.ok (IlaRequest.capsReply (capsOf P addrW)
      (if (capsOf P addrW).sigCount = 0 then none else some (IlaRequest.signalDefs P (capsOf P addrW)))))).run.run g =
      (.ok (), probed P addrW g) := by
  generalize hdefs : (if (capsOf P addrW).sigCount = 0 then none else some (IlaRequest.signalDefs P (capsOf P addrW))) = defs
  rw [pollCaps]
  refine (run_modify_bind _ _ _).trans ((run_lift_bind rfl _ _).trans ?_)
  refine (run_lift_bind (a := (BitVec.ofInt 32 (capsOf P addrW).version).toInt) rfl _ _).trans ((run_modify_bind _ _ _).trans ?_)
  refine (run_lift_bind (a := (BitVec.ofInt 32 (capsOf P addrW).numCh).toInt) rfl _ _).trans ((run_modify_bind _ _ _).trans ?_)
  refine (run_lift_bind (a := (BitVec.ofInt 32 (capsOf P addrW).sigCount).toInt) rfl _ _).trans ((run_modify_bind _ _ _).trans ?_)
  refine (run_lift_bind (a := (BitVec.ofInt 32 (capsOf P addrW).dataW).toInt) rfl _ _).trans ((run_modify_bind _ _ _).trans ?_)
  refine (run_lift_bind (a := (BitVec.ofInt 32 (capsOf P addrW).addrW).toInt) rfl _ _).trans ((run_modify_bind _ _ _).trans ?_)
  refine (run_lift_bind (a := BitVec.ofInt 32 (capsOf P addrW).depth) rfl _ _).trans ((run_modify_bind _ _ _).trans ?_)
  refine (run_lift_bind (a := BitVec.ofInt 32 (capsOf P addrW).raw.toNat) rfl _ _).trans ((run_modify_bind _ _ _).trans ?_)
  refine (run_lift_bind (a := BitVec.ofInt 32 (capsOf P addrW).idcode.toNat) rfl _ _).trans ((run_modify_bind _ _ _).trans ?_)
  -- the caps have been read; what is left are the lanes
  suffices hlanes : ∀ g₁ : GuiState,
      g₁ = { g with panel := { g.panel with capsRemote := capsOf P addrW, lastError := "" } } →
        StateT.run (ExceptT.run (_ : GuiM Unit)) g₁ = (.ok (), probed P addrW g) from
    hlanes _ (congrArg (fun caps => { g with panel := { g.panel with capsRemote := caps, lastError := "" } })
      (read_caps P hw))
  rintro g₁ rfl
  refine (run_modify_bind _ _ _).trans ?_
  suffices hlanes : ∀ g₂ : GuiState,
      g₂ = { g with panel := { g.panel with
        capsRemote := capsOf P addrW
        lastError := ""
        preSamples := if ((capsOf P addrW).depth : ℤ) ≤ g.panel.preSamples then ((capsOf P addrW).depth : ℤ).tdiv 4
          else g.panel.preSamples } } →
        StateT.run (ExceptT.run (_ : GuiM Unit)) g₂ = (.ok (), probed P addrW g) by
    refine hlanes _ ?_
    have hdepth := activeDepth_capsOf P hw (p := { g.panel with capsRemote := capsOf P addrW, lastError := "" }) rfl
    refine (if_congr (iff_of_eq (congrArg (· ≤ g.panel.preSamples) hdepth)) rfl rfl).trans ?_
    by_cases hpre : ((capsOf P addrW).depth : ℤ) ≤ g.panel.preSamples
    · rw [if_pos hpre, if_pos hpre, ← hdepth]
    · rw [if_neg hpre, if_neg hpre]
  rintro g₂ rfl
  by_cases hcount : (capsOf P addrW).sigCount = 0
  · obtain rfl : none = defs := (if_pos hcount).symm.trans hdefs
    have hlanes : lanesOf P addrW = [⟨31, 0⟩] := if_pos hcount
    have hreset := resetSignalDefs_capsOf P hw (p := { g.panel with
      capsRemote := capsOf P addrW
      lastError := ""
      preSamples := if ((capsOf P addrW).depth : ℤ) ≤ g.panel.preSamples then ((capsOf P addrW).depth : ℤ).tdiv 4
        else g.panel.preSamples
      rtlSigDefsLoaded := false }) rfl
    rw [probed, hlanes, hcount]
    exact congrArg (fun p => (Except.ok (), { g with panel := p })) hreset
  · obtain rfl : some (IlaRequest.signalDefs P (capsOf P addrW)) = defs := (if_neg hcount).symm.trans hdefs
    have hlanes : lanesOf P addrW = _ := if_neg hcount
    rw [probed, hlanes, decide_eq_true hcount]
    refine (run_modify_bind _ _ _).trans ?_
    rw [List.forIn_map]
    refine (run_bind (@run_forIn _ _ _
      (fun g e => { g with panel.signals := g.panel.signals ++ [⟨(e.hi : ℤ), (e.lo : ℤ)⟩] }) _ ?_ _) _).trans ?_
    · intro e he g
      obtain ⟨i, -, rfl⟩ := List.mem_map.mp he
      exact run_lift_bind (readSignalDef_entryReply (Nat.mod_lt _ (by decide)) (Nat.mod_lt _ (by decide))) _ _
    · rw [foldl_lanes]
      rfl

theorem getUInt32_sample (v : BitVec 32) : (Json.int v.toNat).getUInt32 = .ok v := by
  show Except.ok (BitVec.ofInt 32 v.toNat) = _
  rw [BitVec.ofInt_natCast, BitVec.ofNat_toNat, BitVec.setWidth_eq]

theorem foldl_samples (words : List (BitVec 32)) (g : GuiState) :
    words.foldl (fun g v => { g with panel.samples := g.panel.samples ++ [v] }) g =
      { g with panel.samples := g.panel.samples ++ words } := by
  induction words generalizing g with
  | nil => rw [List.foldl_nil, List.append_nil]
  | cons v words ih => rw [List.foldl_cons, ih, List.append_assoc, List.singleton_append]

theorem run_doRead (words : List (BitVec 32)) (dataW : ℕ) (g : GuiState) :
    (doRead (.ok (IlaRequest.samplesReply words dataW))).run.run g =
      (.ok (), { g with panel := { g.panel with samples := words, lastError := "", hasSamples := !words.isEmpty } }) := by
  rw [doRead]
  refine (run_lift_bind rfl _ _).trans ((run_lift_bind (a := true) rfl _ _).trans ?_)
  refine (run_modify_bind _ _ _).trans ?_
  show StateT.run (ExceptT.run ((forIn (words.map fun v => Json.int v.toNat) PUnit.unit _ : GuiM PUnit) >>= _)) _ = _
  rw [List.forIn_map]
  refine (run_bind (@run_forIn _ _ _ (fun g v => { g with panel.samples := g.panel.samples ++ [v] }) _ ?_ _) _).trans ?_
  · exact fun v _ g => run_lift_bind (getUInt32_sample v) _ _
  · rw [foldl_samples]
    rfl

theorem handle_probe (hw : 1 ≤ addrW ∧ addrW ≤ 32) (p : RemotePanel) :
    PanelCall.ilaProbe.handle (.ok (IlaRequest.capsReply (capsOf P addrW)
      (if (capsOf P addrW).sigCount = 0 then none else some (IlaRequest.signalDefs P (capsOf P addrW))))) p =
      { p with gui := probed P addrW p.gui, ownLanes := false } := by
  rw [PanelCall.handle, GuiRequest.handle, GuiRequest.body, run_pollCaps P hw]
  rfl

theorem handle_read (words : List (BitVec 32)) (dataW : ℕ) (p : RemotePanel) :
    PanelCall.ilaReadSamples.handle (.ok (IlaRequest.samplesReply words dataW)) p =
      { p with gui := { p.gui with panel :=
        { p.gui.panel with samples := words, lastError := "", hasSamples := !words.isEmpty } } } := by
  rw [PanelCall.handle, GuiRequest.handle, GuiRequest.body, run_doRead]
  rfl

/-- A status that is answered is shown. -/
theorem handle_status (s : IlaStatus) (p : RemotePanel) : PanelCall.ilaStatus.handle (.ok (IlaRequest.statusReply s)) p =
    { p with status := s, gui := { p.gui with panel := { p.gui.panel with statusValid := true, lastError := "" } } } := rfl

end Answers

/-! ### What the panel shows -/

section Core

variable {addrW k : ℕ} {d₀ d d' : FpgaTap 32 addrW} {p : RemotePanel}

/-- What the panel shows is what the core has had since, and what was set at the last Arm that was taken is what the core
triggers on. -/
structure Reflects (d₀ d : FpgaTap 32 addrW) (p : RemotePanel) : Prop where
  /-- The caps, once there are any. -/
  caps : p.gui.panel.capsRemote.probed = true → p.gui.panel.capsRemote = capsOf d₀.core.params addrW
  /-- The lanes, unless the user has others. -/
  lanes : p.ownLanes = false → p.gui.panel.signals = lanesOf d₀.core.params addrW
  /-- The status. -/
  status : p.gui.panel.statusValid = true →
    ∃ t, d₀.core.time ≤ t ∧ t < d.core.time ∧ p.status = (d₀.core.side t).status
  /-- The samples. -/
  samples : p.gui.panel.hasSamples = true →
    ∃ t, d₀.core.time ≤ t ∧ t + (capsOf d₀.core.params addrW).depth ≤ d.core.time ∧
      p.gui.panel.samples = (List.range (capsOf d₀.core.params addrW).depth).map fun i =>
        (d₀.core.side (t + i)).mem (IlaRequest.firstAddr addrW (capsOf d₀.core.params addrW).depth + BitVec.ofNat addrW i)
  /-- The trigger. -/
  trigger : ∀ q, p.armed = some q → d.core.regs.trigger = q.triggerConfig ∧
    d.core.regs.preSamples = (BitVec.ofInt 16 q.preSamples).setWidth addrW

/-- One request, answered. -/
theorem answers_of_served {depth : ℕ} {r : IlaRequest} {reply : Except String Json}
    (h : IlaRequest.Served depth d d' [r] [reply]) :
    r.Answers d.core.params d.core.side d.core.time d'.core.time reply := by
  cases h.answers with
  | cons first le rest =>
    cases rest with
    | nil => exact first

/-- Time goes on, and the trigger stays. -/
theorem Reflects.later (h : Reflects d₀ d p) (ht : d.core.time ≤ d'.core.time)
    (htrigger : d'.core.regs.settings.trigger = d.core.regs.settings.trigger)
    (hpre : d'.core.regs.settings.preSamples = d.core.regs.settings.preSamples) : Reflects d₀ d' p where
  caps := h.caps
  lanes := h.lanes
  status hv := by
    obtain ⟨t, hle, hlt, e⟩ := h.status hv
    exact ⟨t, hle, hlt.trans_le ht, e⟩
  samples hv := by
    obtain ⟨t, hle, hlt, e⟩ := h.samples hv
    exact ⟨t, hle, hlt.trans ht, e⟩
  trigger q hq := ⟨htrigger.trans (h.trigger q hq).1, hpre.trans (h.trigger q hq).2⟩

/-- The 16 bits that the core has of what is set in the panel are those of the call. -/
theorem setWidth_ofInt (n : ℤ) : (BitVec.ofInt 32 n).setWidth 16 = BitVec.ofInt 16 n := by
  apply BitVec.eq_of_toNat_eq
  rw [BitVec.toNat_setWidth, BitVec.toNat_ofInt, BitVec.toNat_ofInt]
  omega

/-- A call keeps what the panel shows. -/
theorem Reflects.call (hw : 1 ≤ addrW ∧ addrW ≤ 32) (h : Reflects d₀ d p) (hP : d.core.params = d₀.core.params)
    (hside : d.core.side = d₀.core.side) (ht : d₀.core.time ≤ d.core.time) (c : PanelCall) {reply : Except String Json}
    (hserved : IlaRequest.Served (capsOf d.core.params addrW).depth d d' [c.request p] [reply]) (nextId : ℤ)
    (asked : List IlaRequest) : Reflects d₀ d' (c.handle reply { p with nextId, asked }) := by
  have hans := answers_of_served hserved
  have hle := hserved.answers.le
  have hset : d'.core.regs.settings = (c.request p).apply _ d.core.regs.settings := hserved.settings
  rw [hP] at hans hset
  rw [hside] at hans
  cases c with
  | ilaProbe =>
    have hreply : reply = _ := hans
    have hl := h.later hle (congrArg IlaRegs.trigger hset) (congrArg IlaRegs.preSamples hset)
    rw [hreply, handle_probe _ hw]
    exact ⟨fun _ => rfl, fun _ => rfl, hl.status, hl.samples, hl.trigger⟩
  | ilaArm =>
    have hreply : reply = if (BitVec.ofInt 16 p.gui.panel.preSamples).toNat < (capsOf d₀.core.params addrW).depth then
      .ok IlaRequest.okReply else .error "pre_samples must be < DEPTH" := hans
    have hset' : d'.core.regs.settings =
      if (BitVec.ofInt 16 p.gui.panel.preSamples).toNat < (capsOf d₀.core.params addrW).depth then _ else _ := hset
    by_cases hpre : (BitVec.ofInt 16 p.gui.panel.preSamples).toNat < (capsOf d₀.core.params addrW).depth
    · rw [if_pos hpre] at hreply hset'
      -- what was shown before does not depend on the settings
      have hl : Reflects d₀ { d' with core := { d'.core with regs := d.core.regs } } p := h.later hle rfl rfl
      rw [hreply]
      refine ⟨hl.caps, hl.lanes, hl.status, hl.samples, ?_⟩
      rintro q ⟨⟩
      exact ⟨congrArg IlaRegs.trigger hset', congrArg IlaRegs.preSamples hset'⟩
    · rw [if_neg hpre] at hreply hset'
      have hl := h.later hle (congrArg IlaRegs.trigger hset') (congrArg IlaRegs.preSamples hset')
      rw [hreply]
      exact ⟨hl.caps, hl.lanes, hl.status, hl.samples, hl.trigger⟩
  | ilaStop | ilaForce =>
    have hreply : reply = .ok IlaRequest.okReply := hans
    have hl := h.later hle (congrArg IlaRegs.trigger hset) (congrArg IlaRegs.preSamples hset)
    rw [hreply]
    exact ⟨hl.caps, hl.lanes, hl.status, hl.samples, hl.trigger⟩
  | ilaReset =>
    have hreply : reply = .ok IlaRequest.okReply := hans
    have hl := h.later hle (congrArg IlaRegs.trigger hset) (congrArg IlaRegs.preSamples hset)
    rw [hreply]
    exact ⟨hl.caps, hl.lanes, nofun, nofun, hl.trigger⟩
  | ilaReadSamples =>
    obtain ⟨t, hle₀, hlt, hreply⟩ := hans
    have htrigger := congrArg IlaRegs.trigger hset
    have hpre := congrArg IlaRegs.preSamples hset
    have hl := h.later hle htrigger hpre
    rw [hreply, handle_read]
    exact ⟨hl.caps, hl.lanes, hl.status, fun _ => ⟨t, ht.trans hle₀, hlt, rfl⟩, hl.trigger⟩
  | ilaStatus =>
    obtain ⟨t, hle₀, hlt, hreply⟩ := hans
    have hl := h.later hle (congrArg IlaRegs.trigger hset) (congrArg IlaRegs.preSamples hset)
    rw [hreply, handle_status]
    exact ⟨hl.caps, hl.lanes, fun _ => ⟨t, ht.trans hle₀, hlt, rfl⟩, hl.samples, hl.trigger⟩

/-- What holds of the panel after a call. -/
structure Handled (c : PanelCall) (p p' : RemotePanel) : Prop where
  /-- The ILA is accessed as before. -/
  device : p'.deviceIndex = p.deviceIndex
  /-- By BSCANE2 or not. -/
  bscane : p'.useBscane = p.useBscane
  /-- On the same scan chain. -/
  userChain : p'.userChain = p.userChain
  /-- Nothing has been asked meanwhile. -/
  asked : p'.asked = p.asked
  /-- Only an Arm can leave an error. -/
  error : c ≠ .ilaArm → p'.gui.panel.lastError = ""
  /-- There are caps after a probe, and they stay. -/
  probed : (c ≠ .ilaProbe → p.gui.panel.capsRemote.probed = true) → p'.gui.panel.capsRemote.probed = true

theorem handled_of_served (hw : 1 ≤ addrW ∧ addrW ≤ 32) {c : PanelCall} {depth : ℕ} {reply : Except String Json}
    (hserved : IlaRequest.Served depth d d' [c.request p] [reply]) (q : RemotePanel) : Handled c q (c.handle reply q) := by
  have hans := answers_of_served hserved
  cases c with
  | ilaProbe =>
    have hreply : reply = _ := hans
    rw [hreply, handle_probe _ hw]
    exact ⟨rfl, rfl, rfl, rfl, fun _ => rfl, fun _ => (IlaDriver.capsOf_fields _ hw).2.2.2.2.2⟩
  | ilaArm =>
    cases reply with
    | error e => exact ⟨rfl, rfl, rfl, rfl, fun hne => absurd rfl hne, fun hc => hc nofun⟩
    | ok r => exact ⟨rfl, rfl, rfl, rfl, fun hne => absurd rfl hne, fun hc => hc nofun⟩
  | ilaStop | ilaForce | ilaReset =>
    have hreply : reply = .ok IlaRequest.okReply := hans
    rw [hreply]
    exact ⟨rfl, rfl, rfl, rfl, fun _ => rfl, fun hc => hc nofun⟩
  | ilaReadSamples =>
    obtain ⟨t, -, -, hreply⟩ := hans
    rw [hreply, handle_read]
    exact ⟨rfl, rfl, rfl, rfl, fun _ => rfl, fun hc => hc nofun⟩
  | ilaStatus =>
    obtain ⟨t, -, -, hreply⟩ := hans
    rw [hreply, handle_status]
    exact ⟨rfl, rfl, rfl, rfl, fun _ => rfl, fun hc => hc nofun⟩

/-! ### From the panel to the core -/

section Chain

variable (others : GuiRpcServer.Operation → JtagChain (List (Device (ChainCore addrW))) →
    Except String Json × JtagChain (List (Device (ChainCore addrW))))
  {chain : JtagChain (List (Device (ChainCore addrW)))}

/-- The call of the panel is the request. -/
theorem ilaRequestOf_rpcCall (c : PanelCall) (p : RemotePanel) : ilaRequestOf (c.rpcCall p).operation =
    some (⟨p.deviceIndex.toInt, p.useBscane, p.userChain.toInt⟩, c.request p) := by
  cases c with
  | ilaArm =>
    rw [PanelCall.request, ← setWidth_ofInt]
    rfl
  | _ => rfl

/-- The panel is at device `k` of the chain, which is the FPGA with the core. -/
structure Attached (k : ℕ) (d : FpgaTap 32 addrW) (s : RemotePanel × JtagChain (List (Device (ChainCore addrW)))) : Prop where
  /-- The device. -/
  device : s.1.deviceIndex.toInt = k
  /-- It is accessed by BSCANE2. -/
  bscane : s.1.useBscane = true
  /-- The chain. -/
  linked : Linked k d (.create s.2 k s.1.userChain.toInt)

/-- A call of the panel is served. -/
theorem call_effect (hw : 1 ≤ addrW ∧ addrW ≤ 32) {s : RemotePanel × JtagChain (List (Device (ChainCore addrW)))}
    (h : Attached k d s) (c : PanelCall) :
    ∃ reply d', IlaRequest.Served (capsOf d.core.params addrW).depth d d' [c.request s.1] [reply] ∧
      Attached k d' (RemotePanel.call chainTarget others s c) ∧
      (RemotePanel.call chainTarget others s c).1 =
        c.handle reply { s.1 with nextId := s.1.nextId + 1, asked := s.1.asked ++ [c.request s.1] } := by
  obtain ⟨reply, chain', d', htask, hl, hserved⟩ := IlaRequest.task_effect hw h.linked (c.request s.1)
  have hperform : performOn chainTarget others (c.rpcCall s.1).operation s.2 = (reply, chain') := by
    rw [performOn, ilaRequestOf_rpcCall, h.device, h.bscane]
    show ((c.request s.1).task chainTarget _ s.2).getD _ = _
    rw [htask]
    rfl
  have hscript : (c.rpcCall s.1).isRunScript = false := by
    cases c <;> rfl
  have hcall : RemotePanel.call chainTarget others s c =
      (c.handle reply { s.1 with nextId := s.1.nextId + 1, asked := s.1.asked ++ [c.request s.1] }, chain') := by
    rw [RemotePanel.call, rpc_outcome, outcome, hscript, if_neg Bool.false_ne_true, hperform]
    rfl
  have hhandled := handled_of_served hw hserved
    { s.1 with nextId := s.1.nextId + 1, asked := s.1.asked ++ [c.request s.1] }
  refine ⟨reply, d', hserved, ?_, congrArg Prod.fst hcall⟩
  rw [hcall]
  refine ⟨(congrArg BitVec.toInt hhandled.device).trans h.device, hhandled.bscane.trans h.bscane, ?_⟩
  show Linked k d' (.create chain' k (BitVec.toInt (RemotePanel.userChain _)))
  rw [hhandled.userChain]
  exact hl

/-- The panel follows the core, from a state of it on. -/
structure Follows (k : ℕ) (d₀ d : FpgaTap 32 addrW) (s : RemotePanel × JtagChain (List (Device (ChainCore addrW)))) :
    Prop where
  /-- The panel is at the core. -/
  attached : Attached k d s
  /-- What has been asked has been served. -/
  served : ∃ replies, IlaRequest.Served (capsOf d₀.core.params addrW).depth d₀ d s.1.asked replies
  /-- What is shown is so. -/
  shows : Reflects d₀ d s.1

variable {s : RemotePanel × JtagChain (List (Device (ChainCore addrW)))}

theorem Follows.call (hw : 1 ≤ addrW ∧ addrW ≤ 32) (h : Follows k d₀ d s) (c : PanelCall) :
    ∃ d', Follows k d₀ d' (RemotePanel.call chainTarget others s c) ∧
      Handled c { s.1 with nextId := s.1.nextId + 1, asked := s.1.asked ++ [c.request s.1] }
        (RemotePanel.call chainTarget others s c).1 := by
  obtain ⟨reply, d', hserved, hattached, hpanel⟩ := call_effect others hw h.attached c
  obtain ⟨replies, hbefore⟩ := h.served
  have hhandled := handled_of_served hw hserved
    { s.1 with nextId := s.1.nextId + 1, asked := s.1.asked ++ [c.request s.1] }
  have hshows := h.shows.call hw hbefore.params hbefore.shows hbefore.answers.le c hserved (s.1.nextId + 1)
    (s.1.asked ++ [c.request s.1])
  rw [hbefore.params] at hserved
  refine ⟨d', ⟨hattached, ⟨replies ++ [reply], ?_⟩, ?_⟩, ?_⟩
  · rw [hpanel, hhandled.asked]
    exact hbefore.append hserved
  · rw [hpanel]
    exact hshows
  · rw [hpanel]
    exact hhandled

/-- How every action leaves the panel. -/
structure Settled (p : RemotePanel) : Prop where
  /-- There are caps. -/
  probed : p.gui.panel.capsRemote.probed = true
  /-- No error is shown. -/
  error : p.gui.panel.lastError = ""

/-- A call but an Arm, of a panel with caps or a probe, leaves it so. -/
theorem Follows.settles (hw : 1 ≤ addrW ∧ addrW ≤ 32) (h : Follows k d₀ d s) {c : PanelCall} (hc : c ≠ .ilaArm)
    (hprobed : c ≠ .ilaProbe → s.1.gui.panel.capsRemote.probed = true) :
    ∃ d', Follows k d₀ d' (RemotePanel.call chainTarget others s c) ∧
      Settled (RemotePanel.call chainTarget others s c).1 := by
  obtain ⟨d', hfollows, hhandled⟩ := h.call others hw c
  exact ⟨d', hfollows, hhandled.probed hprobed, hhandled.error hc⟩

/-- The poll of the status clears what a call before it has left. -/
theorem Follows.settles_after (hw : 1 ≤ addrW ∧ addrW ≤ 32) (h : Follows k d₀ d s) (hs : Settled s.1) (c : PanelCall) :
    ∃ d', Follows k d₀ d' ([c, .ilaStatus].foldl (RemotePanel.call chainTarget others) s) ∧
      Settled ([c, .ilaStatus].foldl (RemotePanel.call chainTarget others) s).1 := by
  obtain ⟨d₁, hfollows, hhandled⟩ := h.call others hw c
  show ∃ d', Follows k d₀ d' (RemotePanel.call chainTarget others (RemotePanel.call chainTarget others s c) .ilaStatus) ∧
    Settled (RemotePanel.call chainTarget others (RemotePanel.call chainTarget others s c) .ilaStatus).1
  exact hfollows.settles others hw nofun fun _ => hhandled.probed fun _ => hs.probed

theorem Follows.act (hw : 1 ≤ addrW ∧ addrW ≤ 32) (h : Follows k d₀ d s) (hs : Settled s.1) (a : PanelAction) :
    ∃ d', Follows k d₀ d' (RemotePanel.act chainTarget others s a) ∧
      Settled (RemotePanel.act chainTarget others s a).1 := by
  cases a with
  | edit signals laneTriggers orMode preSamples triggerDirty =>
    exact ⟨d, ⟨⟨h.attached.device, h.attached.bscane, h.attached.linked⟩, h.served,
      ⟨h.shows.caps, nofun, h.shows.status, h.shows.samples, h.shows.trigger⟩⟩, hs.probed, hs.error⟩
  | pollCaps => exact h.settles others hw (c := .ilaProbe) nofun fun hne => absurd rfl hne
  | doArm => exact h.settles_after others hw hs .ilaArm
  | doStop => exact h.settles_after others hw hs .ilaStop
  | doForce => exact h.settles_after others hw hs .ilaForce
  | doReset => exact h.settles others hw (c := .ilaReset) nofun fun _ => hs.probed
  | doRead => exact h.settles others hw (c := .ilaReadSamples) nofun fun _ => hs.probed
  | pollStatus => exact h.settles others hw (c := .ilaStatus) nofun fun _ => hs.probed

theorem Follows.run (hw : 1 ≤ addrW ∧ addrW ≤ 32) (h : Follows k d₀ d s) (hs : Settled s.1) (actions : List PanelAction) :
    ∃ d', Follows k d₀ d' (actions.foldl (RemotePanel.act chainTarget others) s) ∧
      Settled (actions.foldl (RemotePanel.act chainTarget others) s).1 := by
  induction actions generalizing s d with
  | nil => exact ⟨d, h, hs⟩
  | cons a actions ih =>
    obtain ⟨d₁, hfollows, hsettled⟩ := h.act others hw hs a
    exact ih hfollows hsettled

end Chain

end Core

end OwlTap.Gui
