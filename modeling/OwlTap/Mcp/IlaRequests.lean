import OwlTap.Ila.ChainIlaTapBackend
import OwlTap.Ila.HostReadout
import OwlTap.Ila.SignalDefinitions
import OwlTap.Mcp.GuiRpcServer

/-!
# The ILA through the daemon

For every request about an ILA the daemon makes a backend and a driver anew, which know nothing of
the request before. Whatever requests there are, in whatever order, and whatever state the core is in:
each is answered with what the core says, and the core has had just the pulses and the settings that
the requests ask for (`requests_served`).
-/

namespace OwlTap.Mcp

open OwlTap Ftdi Jtag Ila

/-! ### The requests -/

/-- A request about an ILA. -/
inductive IlaRequest where
  | status
  | probe
  | arm (trigger : TriggerSetup)
  | stop
  | forceTrigger
  | reset
  | readSamples

namespace IlaRequest

/-- The operation of a request. -/
def operation (target : IlaTarget) : IlaRequest → GuiRpcServer.Operation
  | status => .ilaStatus target
  | probe => .ilaProbe target
  | arm trigger => .ilaArm target trigger
  | stop => .ilaStop target
  | forceTrigger => .ilaForceTrigger target
  | reset => .ilaReset target
  | readSamples => .ilaReadSamples target

/-! ### The answers -/

def okReply : Json := .obj [("ok", .bool true)]

def statusReply (s : IlaStatus) : Json :=
  .obj [("armed", .bool s.armed), ("triggered", .bool s.triggered), ("full", .bool s.full)]

/-- An entry of `signal_defs`. -/
def entryReply (e : IlaSignalEntry) : Json :=
  .obj [("hi", .int e.hi), ("lo", .int e.lo), ("fmt", .int e.fmt), ("name_idx", .int e.nameIdx)]

/-- The answer to `ila/probe`. -/
def capsReply (caps : IlaCaps) (signalDefs : Option (List IlaSignalEntry)) : Json :=
  .obj ([("version", .int caps.version), ("num_ch", .int caps.numCh), ("sig_count", .int caps.sigCount),
    ("data_w", .int caps.dataW), ("addr_w", .int caps.addrW), ("depth", .int caps.depth), ("raw", .int caps.raw.toNat),
    ("idcode", .int caps.idcode.toNat)] ++
      signalDefs.toList.map fun entries => ("signal_defs", .arr (entries.map entryReply)))

def samplesReply (samples : List (BitVec 32)) (dataW : ℕ) : Json :=
  .obj [("ok", .bool true), ("samples", .arr (samples.map fun v => .int v.toNat)), ("data_w", .int dataW)]

/-! ### What the daemon does -/

section Daemon

variable {β : Type} (B : IlaTapBackend β)

/-- A call of the driver that has to succeed. -/
def require (m : Method (IlaDriver β) Bool) : Method (IlaDriver β) (Except String Json) := do
  if ← m then pure (.ok okReply) else IlaDriver.throwLastError

def ilaStatus : Method (IlaDriver β) (Except String Json) := do
  let (ok, s) ← IlaDriver.readStatus B ⟨false, false, false⟩
  if ok then pure (.ok (statusReply s)) else IlaDriver.throwLastError

def ilaProbe : Method (IlaDriver β) (Except String Json) := do
  let (ok, caps) ← IlaDriver.probe B {}
  if ok then
    if 0 < caps.sigCount then
      let (ok, entries) ← IlaDriver.readSignalDefs B []
      pure (.ok (capsReply caps (if ok then some entries else none)))
    else pure (.ok (capsReply caps none))
  else IlaDriver.throwLastError

def ilaArm (trigger : TriggerSetup) : Method (IlaDriver β) (Except String Json) := do
  let _ ← IlaDriver.probe B {}
  -- guarantee FSM is IDLE before arm()
  let _ ← IlaDriver.resetCapture B
  if ← IlaDriver.configureTrigger B trigger then require (IlaDriver.arm B) else IlaDriver.throwLastError

def ilaReadSamples : Method (IlaDriver β) (Except String Json) := do
  match ← IlaDriver.readSamplesRpc B with
  | .ok samples => fun d => some (.ok (samplesReply samples d.caps.dataW), d)
  | .error e => pure (.error e)

/-- What is done with the driver. -/
def body : IlaRequest → Method (IlaDriver β) (Except String Json)
  | status => ilaStatus B
  | probe => ilaProbe B
  | arm trigger => ilaArm B trigger
  | stop => require (IlaDriver.stop B)
  | forceTrigger => require (IlaDriver.forceTrigger B)
  | reset => require (IlaDriver.resetCapture B)
  | readSamples => ilaReadSamples B

end Daemon

variable {σ : Type} (T : Target σ)

/-- The task of a request: a backend and a driver are made for it. -/
def task (target : IlaTarget) (r : IlaRequest) : Method (JtagChain σ) (Except String Json) := fun chain =>
  if target.useBscane then
    (r.body (BscaneIlaTapBackend.backend T) { backend := .create chain target.devIdx target.userChain }).map
      fun (reply, d) => (reply, d.backend.chain)
  else
    (r.body (ChainIlaTapBackend.backend T) { backend := { chain, deviceIndex := target.devIdx } }).map
      fun (reply, d) => (reply, d.backend.chain)

section Purposes

variable {addrW : ℕ}

/-- The control pulses that a request asks a core of this depth for. -/
def pulses (depth : ℕ) : IlaRequest → List CtrlBit
  | arm t => if t.preSamples.toNat < depth then [.reset, .arm] else [.reset]
  | stop => [.stop]
  | forceTrigger => [.force]
  | reset => [.reset]
  | status | probe | readSamples => []

/-- The address of the first sample that is read. -/
def firstAddr (addrW depth : ℕ) : BitVec addrW := (BitVec.ofNat 16 (depth - 1)).setWidth addrW + 1

/-- What a request makes of the settings. -/
def apply (depth : ℕ) (regs : IlaRegs 32 addrW) : IlaRequest → IlaRegs 32 addrW
  | arm t => if t.preSamples.toNat < depth then t.apply 3 regs else regs
  | readSamples => { regs with rdAddr := firstAddr addrW depth + BitVec.ofNat addrW depth }
  | status | probe | stop | forceTrigger | reset => regs

/-- The signal definitions of a core, as they are read. -/
def signalDefs (P : IlaParams) (caps : IlaCaps) : List IlaSignalEntry :=
  (List.range caps.sigCount).map fun i => .ofWord (sigDefVal P (BitVec.ofNat 4 i))

/-- What a request is answered by a core with these parameters, from what the sample clock domain shows between two
times. -/
def Answers (P : IlaParams) (sides : ℕ → SampleSide 32 addrW) (t₀ t₁ : ℕ) (r : IlaRequest) (reply : Except String Json) :
    Prop :=
  let caps := capsOf P addrW
  match r with
  | status => ∃ t, t₀ ≤ t ∧ t < t₁ ∧ reply = .ok (statusReply (sides t).status)
  | probe => reply = .ok (capsReply caps (if caps.sigCount = 0 then none else some (signalDefs P caps)))
  | arm t => reply = if t.preSamples.toNat < caps.depth then .ok okReply else .error "pre_samples must be < DEPTH"
  | stop | forceTrigger | reset => reply = .ok okReply
  | readSamples => ∃ t, t₀ ≤ t ∧ t + caps.depth ≤ t₁ ∧ reply = .ok (samplesReply ((List.range caps.depth).map fun i =>
      (sides (t + i)).mem (firstAddr addrW caps.depth + BitVec.ofNat addrW i)) 32)

/-- There may be more time. -/
theorem Answers.mono {P : IlaParams} {sides : ℕ → SampleSide 32 addrW} {t₀ t₁ t₂ : ℕ} {r : IlaRequest}
    {reply : Except String Json} (h : r.Answers P sides t₀ t₁ reply) (ht : t₁ ≤ t₂) : r.Answers P sides t₀ t₂ reply := by
  cases r with
  | status =>
    obtain ⟨t, hle, hlt, e⟩ := h
    exact ⟨t, hle, hlt.trans_le ht, e⟩
  | readSamples =>
    obtain ⟨t, hle, hlt, e⟩ := h
    exact ⟨t, hle, hlt.trans ht, e⟩
  | _ => exact h

/-- The requests are answered in turn: each from what is shown after the one before it and before the one after it. -/
inductive InTurn (P : IlaParams) (sides : ℕ → SampleSide 32 addrW) :
    ℕ → List IlaRequest → List (Except String Json) → ℕ → Prop
  | nil (t : ℕ) : InTurn P sides t [] [] t
  | cons {t₀ t₁ t₂ : ℕ} {r : IlaRequest} {reply : Except String Json} {requests : List IlaRequest}
    {replies : List (Except String Json)} (first : r.Answers P sides t₀ t₁ reply) (le : t₀ ≤ t₁)
    (rest : InTurn P sides t₁ requests replies t₂) : InTurn P sides t₀ (r :: requests) (reply :: replies) t₂

theorem InTurn.append {P : IlaParams} {sides : ℕ → SampleSide 32 addrW} {t₀ t₁ t₂ : ℕ} {first rest : List IlaRequest}
    {replies replies' : List (Except String Json)} (h₁ : InTurn P sides t₀ first replies t₁)
    (h₂ : InTurn P sides t₁ rest replies' t₂) : InTurn P sides t₀ (first ++ rest) (replies ++ replies') t₂ := by
  induction h₁ with
  | nil t => exact h₂
  | cons hr le _ ih => exact .cons hr le (ih h₂)

theorem InTurn.le {P : IlaParams} {sides : ℕ → SampleSide 32 addrW} {t₀ t₁ : ℕ} {requests : List IlaRequest}
    {replies : List (Except String Json)} (h : InTurn P sides t₀ requests replies t₁) : t₀ ≤ t₁ := by
  induction h with
  | nil t => exact le_refl t
  | cons _ le _ ih => exact le.trans ih

/-! ### One request -/

section Effects

variable {β : Type} {B : IlaTapBackend β} {R S : Option (BitVec 5) → β → RegisterFile addrW → Prop} {P : IlaParams}
  {s : Option (BitVec 5)} {d : IlaDriver β} {f : RegisterFile addrW}

open OwlTap.Ila.IlaDriver (Ready Does)

theorem require_effect {m : Method (IlaDriver β) Bool} {ps : List CtrlBit} (hm : Does R P m id ps) (hd : Ready R P s d f) :
    ∃ b' s' f', require m d = some (.ok okReply, { d with backend := b' }) ∧
      Ready R P s' { d with backend := b' } f' ∧ f'.regs.settings = f.regs.settings ∧ f'.pulses = f.pulses ++ ps := by
  obtain ⟨b', s', f', e, hd', hset, hpul⟩ := hm s d f hd
  refine ⟨b', s', f', ?_, hd', hset, hpul⟩
  rw [require, Method.bind_of_eq _ e]
  rfl

theorem ilaStatus_effect (h : Ila.Serves B R S) (hd : Ready R P s d f) :
    ∃ b' f', ilaStatus B d = some (.ok (statusReply f'.side.status), { d with backend := b' }) ∧
      Ready R P (some Opcode.status) { d with backend := b' } f' ∧ f'.regs.settings = f.regs.settings ∧
      f'.pulses = f.pulses := by
  obtain ⟨b', f', e, hd', hset, hpul⟩ := IlaDriver.readStatus_effect h hd ⟨false, false, false⟩
  refine ⟨b', f', ?_, hd', hset, hpul⟩
  rw [ilaStatus, Method.bind_of_eq _ e]
  rfl

theorem ilaProbe_effect (h : Ila.Serves B R S) (hw : 1 ≤ addrW ∧ addrW ≤ 32) (hd : Ready R P s d f) :
    ∃ d' s' f', ilaProbe B d = some (.ok (capsReply (capsOf P addrW)
        (if (capsOf P addrW).sigCount = 0 then none else some (signalDefs P (capsOf P addrW)))), d') ∧
      Ready R P s' d' f' ∧ f'.regs.settings = f.regs.settings ∧ f'.pulses = f.pulses := by
  obtain ⟨b₁, s₁, f₁, e₁, hd₁, hset₁, hpul₁⟩ := IlaDriver.probe_effect h hw hd {}
  by_cases hcount : (capsOf P addrW).sigCount = 0
  · refine ⟨_, s₁, f₁, ?_, hd₁, hset₁, hpul₁⟩
    rw [ilaProbe, Method.bind_of_eq _ e₁]
    simp only [if_true]
    rw [if_neg (by omega), if_pos hcount]
    rfl
  · obtain ⟨b₂, s₂, f₂, e₂, hd₂, hset₂, hpul₂⟩ := IlaDriver.readSignalDefs_effect h hw hd₁ hcount []
    refine ⟨_, s₂, f₂, ?_, hd₂, hset₂.trans hset₁, hpul₂.trans hpul₁⟩
    rw [ilaProbe, Method.bind_of_eq _ e₁]
    simp only [if_true]
    rw [if_pos (by omega), if_neg hcount, Method.bind_of_eq _ e₂]
    rfl

/-- The driver that has probed the core refuses a trigger only for its samples before it. -/
theorem refusal_capsOf (hw : 1 ≤ addrW ∧ addrW ≤ 32) (t : TriggerSetup) : t.refusal (capsOf P addrW) =
    if t.preSamples.toNat < (capsOf P addrW).depth then none else some "pre_samples must be < DEPTH" := by
  rw [TriggerSetup.refusal, (IlaDriver.capsOf_fields P hw).1]
  split_ifs <;> first | rfl | omega

theorem ilaArm_effect (h : Ila.Serves B R S) (hw : 1 ≤ addrW ∧ addrW ≤ 32) (hd : Ready R P s d f) (t : TriggerSetup) :
    ∃ reply d' s' f', ilaArm B t d = some (reply, d') ∧ Ready R P s' d' f' ∧
      reply = (if t.preSamples.toNat < (capsOf P addrW).depth then .ok okReply
        else .error "pre_samples must be < DEPTH") ∧
      f'.regs.settings = (arm t).apply (capsOf P addrW).depth f.regs.settings ∧
      f'.pulses = f.pulses ++ (arm t).pulses (capsOf P addrW).depth := by
  have hreset : Does R P (IlaDriver.resetCapture B) id [.reset] := IlaDriver.does_control h P (by decide)
  have harm : Does R P (IlaDriver.arm B) id [.arm] := IlaDriver.does_control h P (by decide)
  obtain ⟨b₁, s₁, f₁, e₁, hd₁, hset₁, hpul₁⟩ := IlaDriver.probe_effect h hw hd {}
  obtain ⟨b₂, s₂, f₂, e₂, hd₂, hset₂, hpul₂⟩ := hreset s₁ _ f₁ hd₁
  have hrefusal := refusal_capsOf (P := P) hw t
  have hbegin : ilaArm B t d = ((do
      if ← IlaDriver.configureTrigger B t then require (IlaDriver.arm B) else IlaDriver.throwLastError) :
        Method (IlaDriver β) (Except String Json)) { d with backend := b₂, caps := capsOf P addrW } := by
    rw [ilaArm, Method.bind_of_eq _ e₁, Method.bind_of_eq _ e₂]
  have hconfigure := IlaDriver.configureTrigger_eq (B := B) t { d with backend := b₂, caps := capsOf P addrW }
  rw [hrefusal] at hconfigure
  by_cases hpre : t.preSamples.toNat < (capsOf P addrW).depth
  · rw [if_pos hpre] at hconfigure
    obtain ⟨hdata, h1, h32, hdepth⟩ := hd₂.widths hw
    obtain ⟨b₃, s₃, f₃, e₃, hd₃, hset₃, hpul₃⟩ :=
      IlaDriver.does_writeTrigger t h hdata h1 h32 (Nat.lt_of_lt_of_le hpre hdepth) s₂ _ f₂ hd₂
    obtain ⟨b₄, s₄, f₄, e₄, hd₄, hset₄, hpul₄⟩ := require_effect harm hd₃
    refine ⟨_, _, s₄, f₄, ?_, hd₄, (if_pos hpre).symm, ?_, ?_⟩
    · rw [hbegin, Method.bind_of_eq _ (hconfigure.trans e₃)]
      exact e₄
    · rw [hset₄, hset₃, hset₂, hset₁, apply, if_pos hpre, (IlaDriver.capsOf_fields P hw).1]
      rfl
    · rw [hpul₄, hpul₃, hpul₂, hpul₁, pulses, if_pos hpre, List.append_nil, List.append_assoc]
      rfl
  · rw [if_neg hpre] at hconfigure
    refine ⟨_, { d with backend := b₂, caps := capsOf P addrW, lastError := "pre_samples must be < DEPTH" }, s₂, f₂, ?_,
      ⟨hd₂.rel, hd₂.params, hd₂.caps⟩, (if_neg hpre).symm, ?_, ?_⟩
    · rw [hbegin, Method.bind_of_eq _ hconfigure]
      rfl
    · rw [hset₂, hset₁, apply, if_neg hpre]
      rfl
    · rw [hpul₂, hpul₁, pulses, if_neg hpre]

end Effects

/-! ### The requests on a chain -/

section Chain

open OwlTap.Ila.IlaDriver (Ready Does)

variable {k t₀ : ℕ} {sides : ℕ → SampleSide 32 addrW} {P : IlaParams}
  {d : IlaDriver (BscaneIlaTapBackend (List (Device (ChainCore addrW))))} {f : RegisterFile addrW}

/-- After a time that nothing has been scanned at yet. -/
def Since (t₀ t : ℕ) (s : Option (BitVec 5)) : Prop := t₀ ≤ t ∧ (s ≠ none → t₀ < t)

theorem since_serves (k t₀ : ℕ) (sides : ℕ → SampleSide 32 addrW) :
    Ila.Serves (BscaneIlaTapBackend.backend chainTarget) (IdlesAt k (Since t₀) sides) (ScansAt k (Since t₀) sides) :=
  chain_serves_at k (fun _ _ h => ⟨Nat.le_succ_of_le h.1, fun _ => Nat.lt_succ_of_le h.1⟩)
    (fun _ _ _ h => ⟨Nat.le_succ_of_le h.1, fun _ => Nat.lt_succ_of_le h.1⟩) sides

/-- What has been scanned since then has been shown since then. -/
theorem shown_since {opcode : BitVec 5} (hd : Ready (IdlesAt k (Since t₀) sides) P (some opcode) d f) :
    ∃ t, t₀ ≤ t ∧ f.side = sides t ∧ Ready (Idles k (t + 1) sides) P (some opcode) d f := by
  obtain ⟨d₀, hl, hm, hc, hsince, hidx⟩ := hd.rel
  have hlt := hsince.2 nofun
  exact ⟨d₀.core.time - 1, by omega, hm.shown,
    ⟨⟨d₀, hl, hm, hc, show d₀.core.time - 1 + 1 ≤ d₀.core.time by omega, hidx⟩, hd.params, hd.caps⟩⟩

theorem ilaReadSamples_effect (hw : 1 ≤ addrW ∧ addrW ≤ 32) {s : Option (BitVec 5)}
    (hd : Ready (Idles k t₀ sides) P s d f) :
    ∃ reply d' s' f' t₁, ilaReadSamples (BscaneIlaTapBackend.backend chainTarget) d = some (reply, d') ∧ t₀ ≤ t₁ ∧
      Ready (Idles k t₁ sides) P s' d' f' ∧ readSamples.Answers P sides t₀ t₁ reply ∧
      f'.regs.settings = readSamples.apply (capsOf P addrW).depth f.regs.settings ∧ f'.pulses = f.pulses := by
  obtain ⟨b₁, s₁, f₁, e₁, hd₁, hset₁, hpul₁⟩ := IlaDriver.probe_effect (chain_serves k t₀ sides) hw hd {}
  obtain ⟨hpos, hlt⟩ : 1 ≤ (capsOf P addrW).depth ∧ (capsOf P addrW).depth < 2 ^ 31 := hd₁.depth_range hw
  have hdata := (hd₁.widths hw).1
  have haddr : (BitVec.ofNat 16 ((capsOf P addrW).depth - 1)).toNat < (capsOf P addrW).depth := by
    rw [BitVec.toNat_ofNat]
    exact Nat.lt_of_le_of_lt (Nat.mod_le _ _) (by omega)
  obtain ⟨b₂, f₂, e₂, hd₂, hset₂, hpul₂⟩ := IlaDriver.setReadAddr_effect (chain_serves k t₀ sides) hw hd₁ _ haddr
  have hn : (BitVec.ofNat 32 (capsOf P addrW).depth).toNat = (capsOf P addrW).depth := by
    rw [BitVec.toNat_ofNat, Nat.mod_eq_of_lt (by omega)]
  obtain ⟨b₃, t, f₃, e₃, ht, hd₃, hset₃, hpul₃⟩ :=
    @IlaDriver.readSamples_effect _ _ _ _ _ _ _ _ hd₂ (by decide) none (BitVec.ofNat 32 (capsOf P addrW).depth) rfl hdata
      (hpos.trans_eq hn.symm) (hn.trans_lt hlt) []
  have haddr₂ : f₂.regs.rdAddr = (BitVec.ofNat 16 ((capsOf P addrW).depth - 1)).setWidth addrW := congrArg IlaRegs.rdAddr hset₂
  rw [hn, haddr₂] at e₃ hset₃
  set words := (List.range (capsOf P addrW).depth).map fun i => (sides (t + i)).mem
    ((BitVec.ofNat 16 ((capsOf P addrW).depth - 1)).setWidth addrW + 1 + BitVec.ofNat addrW i) with hwords
  have hfrom : IlaDriver.readFrom (BscaneIlaTapBackend.backend chainTarget) (BitVec.ofNat 16 ((capsOf P addrW).depth - 1))
      { d with backend := b₁, caps := capsOf P addrW } = some (.ok words, { d with backend := b₃, caps := capsOf P addrW }) := by
    rw [IlaDriver.readFrom, Method.bind_of_eq _ e₂]
    simp only [if_true]
    rw [Method.bind_of_eq _ e₃]
    rfl
  have hrpc : IlaDriver.readSamplesRpc (BscaneIlaTapBackend.backend chainTarget) d =
      some (.ok words, { d with backend := b₃, caps := capsOf P addrW }) := by
    rw [IlaDriver.readSamplesRpc, Method.bind_of_eq _ e₁]
    exact hfrom
  rw [hn] at hd₃
  refine ⟨.ok (samplesReply words 32), _, _, f₃, _, ?_, Nat.le_add_right_of_le ht, hd₃, ⟨t, ht, le_refl _, rfl⟩, ?_,
    hpul₃.trans (hpul₂.trans hpul₁)⟩
  · rw [ilaReadSamples, Method.bind_of_eq _ hrpc]
    exact congrArg (fun w => some (Except.ok (samplesReply words w), _)) hdata
  · rw [hset₃, hset₂, hset₁]
    rfl

/-- What is done with a driver made for the request. -/
theorem body_effect (hw : 1 ≤ addrW ∧ addrW ≤ 32) {chain : JtagChain (List (Device (ChainCore addrW)))} {u : ℤ}
    {d : FpgaTap 32 addrW} (h : Linked k d (.create chain k u)) (r : IlaRequest) :
    ∃ reply e s f t₁, r.body (BscaneIlaTapBackend.backend chainTarget) { backend := .create chain k u } = some (reply, e) ∧
      d.core.time ≤ t₁ ∧ Ready (Idles k t₁ d.core.side) d.core.params s e f ∧
      r.Answers d.core.params d.core.side d.core.time t₁ reply ∧
      f.regs.settings = r.apply (capsOf d.core.params addrW).depth d.core.regs.settings ∧
      f.pulses = d.core.pulses ++ r.pulses (capsOf d.core.params addrW).depth := by
  have hserves := chain_serves k d.core.time d.core.side
  have hstart : Ready (Idles k d.core.time d.core.side) d.core.params none { backend := .create chain k u }
      (d.core.registerFile (d.core.side (d.core.time - 1))) := ⟨h.idles, rfl, .inl rfl⟩
  have hle := le_refl d.core.time
  have hcontrol {v : BitVec 32} {c : CtrlBit} (hv : ctrlPulses Opcode.ctrl (lowBits 4 v) = [c]) :=
    require_effect (IlaDriver.does_control hserves d.core.params hv) hstart
  cases r with
  | status =>
    have hsince : Ready (IdlesAt k (Since d.core.time) d.core.side) d.core.params none { backend := .create chain k u }
        (d.core.registerFile (d.core.side (d.core.time - 1))) :=
      ⟨⟨d, h, ⟨rfl, rfl, rfl, rfl, rfl⟩, rfl, ⟨hle, nofun⟩, nofun⟩, rfl, .inl rfl⟩
    obtain ⟨b, f, e, hd, hset, hpul⟩ := ilaStatus_effect (since_serves k d.core.time d.core.side) hsince
    obtain ⟨t, ht, hside, hd'⟩ := shown_since hd
    refine ⟨_, _, _, f, _, e, Nat.le_succ_of_le ht, hd', ⟨t, ht, Nat.lt_succ_self t, ?_⟩, hset,
      hpul.trans (List.append_nil _).symm⟩
    rw [hside]
  | probe =>
    obtain ⟨e, s, f, he, hd, hset, hpul⟩ := ilaProbe_effect hserves hw hstart
    exact ⟨_, e, s, f, _, he, hle, hd, rfl, hset, hpul.trans (List.append_nil _).symm⟩
  | arm t =>
    obtain ⟨reply, e, s, f, he, hd, hreply, hset, hpul⟩ := ilaArm_effect hserves hw hstart t
    exact ⟨reply, e, s, f, _, he, hle, hd, hreply, hset, hpul⟩
  | stop =>
    obtain ⟨b, s, f, he, hd, hset, hpul⟩ := hcontrol (v := IlaDriver.kCtrlStop) (c := .stop) (by decide)
    exact ⟨_, _, s, f, _, he, hle, hd, rfl, hset, hpul⟩
  | forceTrigger =>
    obtain ⟨b, s, f, he, hd, hset, hpul⟩ := hcontrol (v := IlaDriver.kCtrlForce) (c := .force) (by decide)
    exact ⟨_, _, s, f, _, he, hle, hd, rfl, hset, hpul⟩
  | reset =>
    obtain ⟨b, s, f, he, hd, hset, hpul⟩ := hcontrol (v := IlaDriver.kCtrlReset) (c := .reset) (by decide)
    exact ⟨_, _, s, f, _, he, hle, hd, rfl, hset, hpul⟩
  | readSamples =>
    obtain ⟨reply, e, s, f, t₁, he, ht, hd, hreply, hset, hpul⟩ := ilaReadSamples_effect hw hstart
    exact ⟨reply, e, s, f, t₁, he, ht, hd, hreply, hset, hpul.trans (List.append_nil _).symm⟩

/-- The backend that is made next finds what the one before leaves. -/
theorem linked_create {chain chain' : JtagChain (List (Device (ChainCore addrW)))} {u : ℤ} {d d' : FpgaTap 32 addrW}
    {b : BscaneIlaTapBackend (List (Device (ChainCore addrW)))} (h : Linked k d (.create chain k u)) (hb : Linked k d' b)
    (hparams : d'.core.params = d.core.params) (hchain : chain' = b.chain) : Linked k d' (.create chain' k u) where
  rest := hchain ▸ hb.rest
  widths := hchain ▸ hb.widths
  index := rfl
  fpga := hchain ▸ hb.fpga
  userChain := h.userChain.trans (congrArg IlaParams.jtagChain hparams).symm
  range := h.range

/-- What the requests are for: how they are answered, and what they do to the core. -/
structure Served (depth : ℕ) (d d' : FpgaTap 32 addrW) (requests : List IlaRequest) (replies : List (Except String Json)) :
    Prop where
  /-- The parameters stay. -/
  params : d'.core.params = d.core.params
  /-- What the sample clock domain shows is not changed. -/
  shows : d'.core.side = d.core.side
  /-- The settings are those that the requests make. -/
  settings : d'.core.regs.settings = requests.foldl (fun regs r => r.apply depth regs) d.core.regs.settings
  /-- The pulses are those that the requests ask for, in their order. -/
  pulses : d'.core.pulses = d.core.pulses ++ requests.flatMap (pulses depth)
  /-- Every request is answered with what the core says in its turn. -/
  answers : InTurn d.core.params d.core.side d.core.time requests replies d'.core.time

theorem task_effect (hw : 1 ≤ addrW ∧ addrW ≤ 32) {chain : JtagChain (List (Device (ChainCore addrW)))} {u : ℤ}
    {d : FpgaTap 32 addrW} (h : Linked k d (.create chain k u)) (r : IlaRequest) :
    ∃ reply chain' d', task chainTarget ⟨k, true, u⟩ r chain = some (reply, chain') ∧ Linked k d' (.create chain' k u) ∧
      Served (capsOf d.core.params addrW).depth d d' [r] [reply] := by
  obtain ⟨reply, e, s, f, t₁, he, ht, hd, hreply, hset, hpul⟩ := body_effect hw h r
  obtain ⟨d', hl, hm, -, ht', -⟩ := hd.rel
  have hparams : d'.core.params = d.core.params := hm.params.trans hd.params
  refine ⟨reply, e.backend.chain, d', ?_, linked_create h hl hparams rfl,
    ⟨hparams, hm.shows, hm.settings.trans hset, ?_, .cons (hreply.mono ht') (ht.trans ht') (.nil _)⟩⟩
  · rw [task, if_pos rfl, he]
    rfl
  · rw [hm.pulses, hpul, List.flatMap_singleton]

/-- The requests are served one list after the other. -/
theorem Served.append {depth : ℕ} {d₀ d₁ d₂ : FpgaTap 32 addrW} {first rest : List IlaRequest}
    {replies replies' : List (Except String Json)} (h₁ : Served depth d₀ d₁ first replies)
    (h₂ : Served depth d₁ d₂ rest replies') : Served depth d₀ d₂ (first ++ rest) (replies ++ replies') where
  params := h₂.params.trans h₁.params
  shows := h₂.shows.trans h₁.shows
  settings := by rw [h₂.settings, h₁.settings, List.foldl_append]
  pulses := by rw [h₂.pulses, h₁.pulses, List.flatMap_append, List.append_assoc]
  answers := by
    have hrest := h₂.answers
    rw [h₁.params, h₁.shows] at hrest
    exact h₁.answers.append hrest

end Chain

end Purposes

end IlaRequest

end OwlTap.Mcp
