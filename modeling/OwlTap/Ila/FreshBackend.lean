import OwlTap.Ila.BackendAgreement

/-!
# A new backend on any core

A backend is made for every request, and the core keeps the opcode of the request before. A
new backend believes nothing of the core, so its first scan is a priming one. With that every
operation of the driver does what it is for, whatever the core held (`IlaOp.Meets`).
-/

namespace OwlTap.Ila

open OwlTap Ftdi Jtag

variable {addrW : ℕ}

/-- The core is left as it is, but for the opcode of the last scan and the signal definition to be read next. -/
def IlaCore.Same (c c' : IlaCore 32 addrW) : Prop := c'.regs.settings = c.regs.settings ∧ c'.pulses = c.pulses

/-- The core has been asked for one control pulse. -/
def IlaCore.Pulsed (k : CtrlBit) (c c' : IlaCore 32 addrW) : Prop :=
  c'.regs.settings = c.regs.settings ∧ c'.pulses = c.pulses ++ [k]

/-- What an operation returns, and does to the core, when the driver believes `caps`. -/
def IlaOp.Meets (op : IlaOp) (caps : IlaCaps) (reply : IlaReply) (c c' : IlaCore 32 addrW) : Prop :=
  match op with
  | .probe => reply = .caps true (capsOf c.params addrW) ∧ c.Same c'
  | .readIdcode => reply = .idcode (some c.params.idcodeVal) ∧ c.Same c'
  | .readSignalDefs =>
    reply = (if caps.sigCount = 0 then .signalDefs false [] else .signalDefs true
      ((List.range caps.sigCount).map fun i => .ofWord (sigDefVal c.params (BitVec.ofNat 4 i)))) ∧ c.Same c'
  | .configureTrigger t =>
    if (t.refusal caps).isSome then reply = .done false ∧ c.Same c'
    else reply = .done true ∧ c'.regs.settings = t.apply caps.version c.regs.settings ∧ c'.pulses = c.pulses ∧
      (caps.probed → caps.version = 3 ∧ c'.regs.preSamples.toNat = t.preSamples.toNat)
  | .arm => reply = .done true ∧ c.Pulsed .arm c'
  | .stop => reply = .done true ∧ c.Pulsed .stop c'
  | .resetCapture => reply = .done true ∧ c.Pulsed .reset c'
  | .forceTrigger => reply = .done true ∧ c.Pulsed .force c'
  | .readStatus => reply = .status true (c'.side (c'.time - 1)).status ∧ c.Same c'
  | .setReadAddr addr =>
    if caps.depth ≤ addr.toNat then reply = .done false ∧ c.Same c'
    else reply = .done true ∧ c'.regs.settings = { c.regs.settings with rdAddr := addr.setWidth addrW } ∧
      c'.pulses = c.pulses ∧ (caps.probed → c'.regs.rdAddr.toNat = addr.toNat)
  | .readSamples _ => reply = .samples true [] ∧ c.Same c'

namespace IlaDriver

variable {β : Type} {R : Option (BitVec 5) → β → RegisterFile addrW → Prop} {P : IlaParams} {s : Option (BitVec 5)}
  {d : IlaDriver β} {f : RegisterFile addrW}

/-- An address that a driver accepts after it has probed the core fits in a register. -/
theorem Ready.toNat_setWidth (hd : Ready R P s d f) (hw : 1 ≤ addrW ∧ addrW ≤ 32) (hp : d.caps.probed = true)
    {x : BitVec 16} (hx : x.toNat < d.caps.depth) : (x.setWidth addrW).toNat = x.toNat := by
  rcases hd.caps with hc | ⟨hc, -⟩
  · rw [hc] at hp
    cases hp
  · have hwidths := (hd.widths hw).2.2.2
    rw [hc, (capsOf_fields P hw).2.2.1, ← hc] at hwidths
    rw [BitVec.toNat_setWidth, Nat.mod_eq_of_lt (by omega)]

theorem Ready.version (hd : Ready R P s d f) (hw : 1 ≤ addrW ∧ addrW ≤ 32) (hp : d.caps.probed = true) :
    d.caps.version = 3 := by
  rcases hd.caps with hc | ⟨hc, -⟩
  · rw [hc] at hp
    cases hp
  · rw [hc, (capsOf_fields P hw).1]

/-- What an operation does to the register file is what it is to do to a core that mirrors it. -/
theorem meets_of_effect (hd : Ready R P s d f) (hw : 1 ≤ addrW ∧ addrW ≤ 32) {op : IlaOp} (hop : ¬op.ReadsSamples)
    {d' : IlaDriver β} {f' : RegisterFile addrW} {sides : ℕ → SampleSide 32 addrW} {c c' : IlaCore 32 addrW}
    (hc : Mirrors sides c f) (hc' : Mirrors sides c' f') (hv : view d' f' = (op.effect P f'.side (view d f)).2) :
    op.Meets d.caps (op.effect P f'.side (view d f)).1 c c' := by
  have hP : c.params = P := hc.params.trans hd.params
  have hset : (view d f).regs = c.regs.settings := hc.settings.symm
  have hpul : (view d f).pulses = c.pulses := hc.pulses.symm
  have hset' : c'.regs.settings = (op.effect P f'.side (view d f)).2.regs := by rw [hc'.settings, ← hv]; rfl
  have hpul' : c'.pulses = (op.effect P f'.side (view d f)).2.pulses := by rw [hc'.pulses, ← hv]; rfl
  have hstatus : f'.side.status = (c'.side (c'.time - 1)).status := by rw [hc'.shown, hc'.shows]
  cases op with
  | probe =>
    refine ⟨?_, hset'.trans hset, hpul'.trans hpul⟩
    rw [hP]
    rfl
  | readIdcode =>
    refine ⟨?_, hset'.trans hset, hpul'.trans hpul⟩
    rw [hP]
    rfl
  | readSignalDefs =>
    by_cases hs : d.caps.sigCount = 0
    · rw [show IlaOp.readSignalDefs.effect P f'.side (view d f) = _ from if_pos hs] at hset' hpul' ⊢
      exact ⟨(if_pos hs).symm, hset'.trans hset, hpul'.trans hpul⟩
    · rw [show IlaOp.readSignalDefs.effect P f'.side (view d f) = _ from if_neg hs] at hset' hpul' ⊢
      refine ⟨?_, hset'.trans hset, hpul'.trans hpul⟩
      rw [if_neg hs, hP]
      rfl
  | configureTrigger t =>
    cases hr : t.refusal d.caps with
    | some e =>
      have heff : (IlaOp.configureTrigger t).effect P f'.side (view d f) = (.done false, { view d f with lastError := e }) := by
        rw [IlaOp.effect, show t.refusal (view d f).caps = some e from hr]
      rw [heff] at hset' hpul' ⊢
      rw [IlaOp.Meets, hr]
      exact ⟨rfl, hset'.trans hset, hpul'.trans hpul⟩
    | none =>
      have heff : (IlaOp.configureTrigger t).effect P f'.side (view d f) =
          (.done true, { view d f with regs := t.apply d.caps.version (view d f).regs }) := by
        rw [IlaOp.effect, show t.refusal (view d f).caps = none from hr]
        rfl
      rw [heff] at hset' hpul' ⊢
      rw [IlaOp.Meets, hr]
      refine ⟨rfl, by rw [hset', hset], hpul'.trans hpul, fun hp => ⟨hd.version hw hp, ?_⟩⟩
      have hpre : c'.regs.preSamples = t.preSamples.setWidth addrW := congrArg (fun r => r.preSamples) hset'
      rw [hpre, hd.toNat_setWidth hw hp (TriggerSetup.lt_depth_of_refusal hr)]
  | arm => exact ⟨rfl, hset'.trans hset, by rw [hpul', ← hpul]; rfl⟩
  | stop => exact ⟨rfl, hset'.trans hset, by rw [hpul', ← hpul]; rfl⟩
  | resetCapture => exact ⟨rfl, hset'.trans hset, by rw [hpul', ← hpul]; rfl⟩
  | forceTrigger => exact ⟨rfl, hset'.trans hset, by rw [hpul', ← hpul]; rfl⟩
  | readStatus =>
    refine ⟨?_, hset'.trans hset, hpul'.trans hpul⟩
    rw [← hstatus]
    rfl
  | setReadAddr addr =>
    by_cases hge : d.caps.depth ≤ addr.toNat
    · rw [show (IlaOp.setReadAddr addr).effect P f'.side (view d f) = _ from if_pos hge] at hset' hpul' ⊢
      rw [IlaOp.Meets, if_pos hge]
      exact ⟨rfl, hset'.trans hset, hpul'.trans hpul⟩
    · rw [show (IlaOp.setReadAddr addr).effect P f'.side (view d f) = _ from if_neg hge] at hset' hpul' ⊢
      rw [IlaOp.Meets, if_neg hge]
      refine ⟨rfl, by rw [hset', hset], hpul'.trans hpul, fun hp => ?_⟩
      have haddr : c'.regs.rdAddr = addr.setWidth addrW := congrArg (fun r => r.rdAddr) hset'
      rw [haddr, hd.toNat_setWidth hw hp (by omega)]
  | readSamples count =>
    obtain rfl : count = some 0 := not_not.mp hop
    refine ⟨rfl, ?_, hpul'.trans hpul⟩
    rw [hset', ← hset]
    show { (view d f).regs with rdAddr := (view d f).regs.rdAddr + BitVec.ofNat addrW 0 } = (view d f).regs
    rw [show (view d f).regs.rdAddr + BitVec.ofNat addrW 0 = (view d f).regs.rdAddr from BitVec.add_zero _]

end IlaDriver

/-- **A new backend does what the driver is for, whatever the core holds.** On any chain at rest, with the FPGA
anywhere on it, every operation of a session that reads no samples meets what it is for. -/
theorem fresh_backend_meets {chain : JtagChain (List (Device (ChainCore addrW)))} {k : ℕ} {userChain : ℤ}
    {d : FpgaTap 32 addrW} (h : Linked k d (.create chain k userChain)) (hw : 1 ≤ addrW ∧ addrW ≤ 32)
    {pre : List IlaOp} {op : IlaOp} (hpre : ∀ x ∈ pre, ¬x.ReadsSamples) (hop : ¬op.ReadsSamples) :
    ∃ replies reply e e' d₁ d₂,
      IlaDriver.session (BscaneIlaTapBackend.backend chainTarget) pre { backend := .create chain k userChain } =
        some (replies, e) ∧
      IlaDriver.exec (BscaneIlaTapBackend.backend chainTarget) op e = some (reply, e') ∧
      Linked k d₁ e.backend ∧ Linked k d₂ e'.backend ∧ d₁.core.params = d.core.params ∧
      (e.caps = {} ∨ e.caps = capsOf d.core.params addrW) ∧ op.Meets e.caps reply d₁.core d₂.core := by
  have hstart : IlaDriver.Ready (Idles k d.core.time d.core.side) d.core.params none { backend := .create chain k userChain }
      (d.core.registerFile (d.core.side (d.core.time - 1))) := ⟨h.idles, rfl, .inl rfl⟩
  obtain ⟨replies, e, s, f, hs, hready⟩ := IlaDriver.session_ready (chain_serves k d.core.time d.core.side) hw hstart hpre
  obtain ⟨e', s', f', hexec, hready', hv⟩ := IlaDriver.exec_effect (chain_serves k d.core.time d.core.side) hw hready hop
  obtain ⟨d₁, hl₁, hm₁, -⟩ := hready.rel
  obtain ⟨d₂, hl₂, hm₂, -⟩ := hready'.rel
  exact ⟨replies, _, e, e', d₁, d₂, hs, hexec, hl₁, hl₂, hm₁.params.trans hready.params, hready.caps.imp_right And.left,
    IlaDriver.meets_of_effect hready hw hop hm₁ hm₂ hv⟩

theorem fresh_backend_fpgaChain :
    ∃ replies reply e e' d₁ d₂,
      IlaDriver.session (BscaneIlaTapBackend.backend chainTarget) [.stop, .probe]
        { backend := .create fpgaChain (0 : ℕ) 1 } = some (replies, e) ∧
      IlaDriver.exec (BscaneIlaTapBackend.backend chainTarget) (.setReadAddr 5) e = some (reply, e') ∧
      Linked 0 d₁ e.backend ∧ Linked 0 d₂ e'.backend ∧ d₁.core.params = fpga.core.params ∧
      (e.caps = {} ∨ e.caps = capsOf fpga.core.params 4) ∧
      (IlaOp.setReadAddr 5).Meets e.caps reply d₁.core d₂.core :=
  fresh_backend_meets linked_fpgaChain (by decide) (by decide) (by decide)

/-- A driver that has not probed the core believes that there are 1024 samples: an address is accepted that the
register of a core with 16 does not hold. -/
theorem setReadAddr_wraps_fpgaChain :
    (IlaDriver.session (BscaneIlaTapBackend.backend chainTarget) [.setReadAddr 300]
      { backend := .create fpgaChain 0 1 }).map (fun r => (r.1, r.2.backend.chain.tap.cores.map
        (Sum.elim (fun _ => none) fun d => some d.core.regs.rdAddr.toNat))) = some ([.done true], [some 12, none]) := by
  decide +kernel

end OwlTap.Ila
