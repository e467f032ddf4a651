import OwlTap.Base.Find
import OwlTap.Ila.ChainSamples

/-!
# The two backends

A driver that is made over a new `BscaneIlaTapBackend` gives the replies that it gives over the
register file, whatever the registers hold and the memory contains, exactly when the session reads
no samples: samples come from one address further (`backends_agree_iff`).
-/

namespace OwlTap.Ila

open OwlTap Ftdi Jtag

variable {addrW : ℕ}

/-! ### A core that is not running -/

/-- What the sample clock domain shows to every scan from now on. -/
def FpgaTap.showing (side : SampleSide 32 addrW) (d : FpgaTap 32 addrW) : FpgaTap 32 addrW :=
  { d with core := { d.core with side := fun _ => side } }

/-- The same, if the device is an FPGA. -/
def ChainCore.showing (side : SampleSide 32 addrW) : ChainCore addrW → ChainCore addrW :=
  Sum.map id (FpgaTap.showing side)

/-- The chain on which the FPGAs show that. -/
def showing (side : SampleSide 32 addrW) (chain : JtagChain (List (Device (ChainCore addrW)))) :
    JtagChain (List (Device (ChainCore addrW))) :=
  { chain with
    tap.device.link.port.target :=
      chain.tap.device.link.port.target.map fun dev => { dev with core := ChainCore.showing side dev.core } }

theorem cores_showing (side : SampleSide 32 addrW) (chain : JtagChain (List (Device (ChainCore addrW)))) :
    (showing side chain).tap.cores = chain.tap.cores.map (ChainCore.showing side) := by
  simp only [TapController.cores, showing, List.map_map]
  rfl

theorem irWidth_showing (side : SampleSide 32 addrW) (d : ChainCore addrW) :
    chainLogic.irWidth (ChainCore.showing side d) = chainLogic.irWidth d := by
  cases d <;> rfl

/-- The chain stays as it is otherwise. -/
theorem Linked.showing {k : ℕ} {userChain : ℤ} {d : FpgaTap 32 addrW} {chain : JtagChain (List (Device (ChainCore addrW)))}
    (h : Linked k d (.create chain k userChain)) (side : SampleSide 32 addrW) :
    Linked k (d.showing side) (.create (showing side chain) k userChain) where
  rest := ⟨⟨⟨h.rest.synced.waits.isOpen, h.rest.synced.waits.phase, rfl, h.rest.synced.waits.rx⟩, h.rest.synced.state,
    h.rest.synced.tms⟩, h.rest.idle, h.rest.delivers⟩
  widths := by
    refine ⟨?_, h.widths.range⟩
    show chain.devices.map ChainDevice.irLength = (Ila.showing side chain).tap.cores.map chainLogic.irWidth
    rw [cores_showing, List.map_map]
    exact h.widths.widths.trans (List.map_congr_left fun d _ => (irWidth_showing side d).symm)
  index := rfl
  fpga := by
    show (Ila.showing side chain).tap.cores[k]? = _
    rw [cores_showing, List.getElem?_map, show chain.tap.cores[k]? = some (.inr d) from h.fpga]
    rfl
  userChain := h.userChain
  range := h.range

/-- A new backend knows nothing of the core. -/
theorem Linked.idles {k : ℕ} {userChain : ℤ} {d : FpgaTap 32 addrW} {chain : JtagChain (List (Device (ChainCore addrW)))}
    (h : Linked k d (.create chain k userChain)) :
    Idles k d.core.time d.core.side none (.create chain k userChain) (d.core.registerFile (d.core.side (d.core.time - 1))) :=
  ⟨d, h, ⟨rfl, rfl, rfl, rfl, rfl⟩, rfl, le_refl _, nofun⟩

/-! ### Sessions -/

namespace IlaDriver

/-- The depth that is believed, before a probe and after. -/
theorem Ready.depth_range {β : Type} {R : Option (BitVec 5) → β → RegisterFile addrW → Prop} {P : IlaParams}
    (hw : 1 ≤ addrW ∧ addrW ≤ 32) {s : Option (BitVec 5)} {d : IlaDriver β} {f : RegisterFile addrW} (hd : Ready R P s d f) :
    1 ≤ d.caps.depth ∧ d.caps.depth < 2 ^ 31 := by
  rcases hd.caps with hc | ⟨hc, -⟩
  · rw [hc]
    decide
  · rw [hc, (capsOf_fields P hw).2.2.2.2.1]
    split_ifs with h20
    · decide
    · exact ⟨Nat.one_le_two_pow, Nat.pow_lt_pow_right (by decide) (by omega)⟩

/-- How many samples `readSamples` reads: some, unless it is told to read none. -/
theorem samples_pos {β : Type} {R : Option (BitVec 5) → β → RegisterFile addrW → Prop} {P : IlaParams}
    (hw : 1 ≤ addrW ∧ addrW ≤ 32) {s : Option (BitVec 5)} {d : IlaDriver β} {f : RegisterFile addrW} (hd : Ready R P s d f)
    {count : Option (BitVec 32)} (hcount : count ≠ some 0) :
    1 ≤ (count.getD (BitVec.ofNat 32 d.caps.depth)).toNat := by
  cases count with
  | some n =>
    have hne : n.toNat ≠ 0 := fun h0 => hcount (congrArg some (BitVec.eq_of_toNat_eq h0))
    exact Nat.one_le_iff_ne_zero.mpr hne
  | none =>
    obtain ⟨hpos, hlt⟩ := hd.depth_range hw
    rw [Option.getD_none, BitVec.toNat_ofNat, Nat.mod_eq_of_lt (by omega)]
    exact hpos

/-- The samples are different when every word of the memory is its address. -/
theorem read_addresses_ne (hw : 1 ≤ addrW ∧ addrW ≤ 32) (a : BitVec addrW) {n : ℕ} (hn : 1 ≤ n) :
    Ring.read (fun x : BitVec addrW => x.setWidth 32) (a + 1) n ≠ Ring.read (fun x => x.setWidth 32) a n := by
  obtain ⟨m, rfl⟩ : ∃ m, n = m + 1 := ⟨n - 1, by omega⟩
  intro he
  rw [Ring.read_succ, Ring.read_succ] at he
  have hword := congrArg (BitVec.setWidth addrW) (List.cons.inj he).1
  have haddr : a + 1 = a := by
    rwa [setWidth_setWidth_of_ge _ hw.2, setWidth_setWidth_of_ge _ hw.2, BitVec.setWidth_eq, BitVec.setWidth_eq] at hword
  exact Ring.ofNat_add_ne a (show 0 < 1 by decide) (show 1 < 0 + 2 ^ addrW by have := Nat.pow_le_pow_right (show 0 < 2 by decide) hw.1; omega)
    ((BitVec.add_zero a).trans haddr.symm)

/-- Too many samples for an `int` cannot be read from the register file. -/
theorem readSamples_registerFile_none {d : IlaDriver (RegisterFile addrW)} {count : Option (BitVec 32)}
    (hge : 2 ^ 31 ≤ (count.getD (BitVec.ofNat 32 d.caps.depth)).toNat) (out : List (BitVec 32)) :
    readSamples RegisterFile.backend count out d = none := by
  have hneg : (count.getD (BitVec.ofNat 32 d.caps.depth)).toInt < 0 := by
    have := (count.getD (BitVec.ofNat 32 d.caps.depth)).isLt
    rw [BitVec.toInt_eq_toNat_cond, if_neg (by omega)]
    omega
  have hbatch : ∀ d' : IlaDriver (RegisterFile addrW),
      onBackend (RegisterFile.backend.shiftDrBatch (count.getD (BitVec.ofNat 32 d.caps.depth)).toInt d.caps.dataW
        [0, 0, 0, 0]) d' = none := fun d' => by
    show ((IlaTapBackend.shiftDrBatchDefault _ _ _ _ d'.backend).map _) = none
    rw [IlaTapBackend.shiftDrBatchDefault, if_pos hneg]
    rfl
  have hsel : selectIr RegisterFile.backend kIrReadData d = some (true, { d with backend := d.backend.select Opcode.readData }) := rfl
  rw [readSamples, Method.bind_of_eq _ hsel]
  simp only [if_true]
  show (onBackend _ _).bind _ = none
  rw [hbatch]
  rfl

/-- Where the memory holds its addresses, samples read through the chain and from the register file differ. -/
theorem samples_differ {k t₀ : ℕ} {status : IlaStatus} {P : IlaParams} (hw : 1 ≤ addrW ∧ addrW ≤ 32) {s s' : Option (BitVec 5)}
    {d e : IlaDriver (BscaneIlaTapBackend (List (Device (ChainCore addrW))))} {d' e' : IlaDriver (RegisterFile addrW)}
    {f f' : RegisterFile addrW} (hd : Ready (fun s b f => Idles k t₀ (fun _ => ⟨fun a => a.setWidth 32, status⟩) s b f ∧ s ≠ some Opcode.readData) P s d f)
    (hd' : Ready (fun _ b f => b = f ∧ f.side = ⟨fun a => a.setWidth 32, status⟩) P s' d' f') (hv : view d f = view d' f')
    {op : IlaOp} (hop : op.ReadsSamples) {reply : IlaReply}
    (he : exec (BscaneIlaTapBackend.backend chainTarget) op d = some (reply, e))
    (he' : exec RegisterFile.backend op d' = some (reply, e')) : False := by
  cases op with
  | readSamples count =>
    have hcaps : d.caps = d'.caps := congrArg IlaView.caps hv
    have haddr : f.regs.rdAddr = f'.regs.rdAddr := congrArg (fun v => v.regs.rdAddr) hv
    have hcount : count ≠ some 0 := hop
    have hpos := samples_pos hw hd hcount
    have hdata := (hd.widths hw).1
    obtain ⟨hb, hside⟩ := hd'.rel
    by_cases hlt : (count.getD (BitVec.ofNat 32 d.caps.depth)).toNat < 2 ^ 31
    · obtain ⟨b, hread⟩ := readSamples_chain hd.rel.1 hd.rel.2 (fun _ _ => rfl) rfl hdata hpos hlt []
      have hn : count.getD (BitVec.ofNat 32 d'.caps.depth) = count.getD (BitVec.ofNat 32 d.caps.depth) := by rw [hcaps]
      obtain ⟨b', hread'⟩ := RegisterFile.readSamples_spec hn (hcaps ▸ hdata) hlt []
      have hr := (Prod.mk.inj (Option.some.inj ((Method.bind_of_eq _ hread).symm.trans he))).1
      have hr' := (Prod.mk.inj (Option.some.inj ((Method.bind_of_eq _ hread').symm.trans he'))).1
      have hwords := (IlaReply.samples.inj (hr.trans hr'.symm)).2
      rw [hb, hside, haddr] at hwords
      exact read_addresses_ne hw _ hpos hwords
    · rw [hcaps] at hlt
      have hnone := readSamples_registerFile_none (Nat.le_of_not_lt hlt) []
      obtain ⟨a, y, hm, -⟩ := Method.bind_eq_some.mp he'
      rw [hnone] at hm
      cases hm
  | _ => exact hop

end IlaDriver

/-- **The backends agree as long as no samples are read.** On any chain at rest, with the FPGA anywhere on it and
whatever it holds, a session over a new backend gives the replies of the register file for every content of the
memory if and only if no operation reads samples. -/
theorem backends_agree_iff {chain : JtagChain (List (Device (ChainCore addrW)))} {k : ℕ} {userChain : ℤ}
    {d : FpgaTap 32 addrW} (h : Linked k d (.create chain k userChain)) (hw : 1 ≤ addrW ∧ addrW ≤ 32)
    (status : IlaStatus) (ops : List IlaOp) :
    (∀ mem, ∃ replies e e',
      IlaDriver.session (BscaneIlaTapBackend.backend chainTarget) ops
          { backend := .create (showing ⟨mem, status⟩ chain) k userChain } = some (replies, e) ∧
        IlaDriver.session RegisterFile.backend ops { backend := d.core.registerFile ⟨mem, status⟩ } =
          some (replies, e')) ↔
      ∀ op ∈ ops, ¬op.ReadsSamples := by
  -- the sessions begin at the same view
  have hstart : ∀ side, IlaDriver.Ready (fun s b f => Idles k d.core.time (fun _ => side) s b f ∧ s ≠ some Opcode.readData) d.core.params none
      { backend := .create (showing side chain) k userChain } (d.core.registerFile side) := fun side =>
    ⟨⟨(h.showing side).idles, nofun⟩, rfl, .inl rfl⟩
  have hfile : ∀ side, IlaDriver.Ready (fun _ b (f : RegisterFile addrW) => b = f ∧ f.side = side) d.core.params none
      { backend := d.core.registerFile side } (d.core.registerFile side) := fun side =>
    ⟨⟨rfl, rfl⟩, rfl, .inl rfl⟩
  have hagree := fun (side : SampleSide 32 addrW) (ops : List IlaOp) (hops : ∀ op ∈ ops, ¬op.ReadsSamples) =>
    IlaDriver.session_agree (chain_serves k d.core.time fun _ => side).avoiding (RegisterFile.serves side)
      (fun ⟨⟨_, _, hm, _⟩, _⟩ => hm.shown) And.right hw (hstart side) (hfile side) rfl hops
  constructor
  · intro hall
    by_contra hex
    push Not at hex
    obtain ⟨pre, op, post, rfl, hop, hpre⟩ := exists_first hex
    -- every word is its address
    obtain ⟨replies, e, e', hs, hs'⟩ := hall fun a => a.setWidth 32
    obtain ⟨replies₁, d₁, d₁', t, t', g, g', hpre₁, hpre₁', hg, hg', hv⟩ := hagree _ pre hpre
    obtain ⟨reply, d₂, hexec, hget⟩ := IlaDriver.session_middle hpre₁ hs
    obtain ⟨reply', d₂', hexec', hget'⟩ := IlaDriver.session_middle hpre₁' hs'
    obtain rfl : reply = reply' := Option.some.inj (hget.symm.trans hget')
    exact IlaDriver.samples_differ hw hg hg' hv hop hexec hexec'
  · intro hops mem
    obtain ⟨replies, e, e', -, -, -, -, hs, hs', -⟩ := hagree ⟨mem, status⟩ ops hops
    exact ⟨replies, e, e', hs, hs'⟩

/-- An FPGA after a reset, whose memory of 16 words holds their addresses. -/
def fpga : FpgaTap 32 4 :=
  ⟨List.replicate 32 false, none, ⟨{}, .reset, 0, fun _ => ⟨fun a => a.setWidth 32, ⟨false, false, true⟩⟩, []⟩⟩

/-- The FPGA nearest TDO, and an ARM DAP behind it. -/
def fpgaChain : JtagChain (List (Device (ChainCore 4))) :=
  JtagChain.idle [⟨0, 0x13722093, 6, [], none⟩, ⟨1, 0x4BA00477, 4, [], none⟩]
    [⟨.inr fpga, []⟩, ⟨.inl (.powered JtagChain.dapSpec), []⟩]

theorem linked_fpgaChain : Linked 0 fpga (.create fpgaChain (0 : ℕ) 1) where
  rest := ⟨JtagChain.idle_synced _ _, rfl, JtagChain.idle_delivers _ _⟩
  widths := ⟨rfl, by simp [BscaneIlaTapBackend.create, fpgaChain, JtagChain.idle]⟩
  index := rfl
  fpga := rfl
  userChain := rfl
  range := by decide

theorem backends_agree_fpgaChain :
    (∀ mem, ∃ replies e e',
      IlaDriver.session (BscaneIlaTapBackend.backend chainTarget) [.probe, .setReadAddr 3, .readSamples (some 2)]
          { backend := .create (showing ⟨mem, ⟨false, false, true⟩⟩ fpgaChain) (0 : ℕ) 1 } = some (replies, e) ∧
        IlaDriver.session RegisterFile.backend [.probe, .setReadAddr 3, .readSamples (some 2)]
          { backend := fpga.core.registerFile ⟨mem, ⟨false, false, true⟩⟩ } = some (replies, e')) ↔
      ∀ op ∈ [IlaOp.probe, .setReadAddr 3, .readSamples (some 2)], ¬op.ReadsSamples :=
  backends_agree_iff linked_fpgaChain (by decide) ⟨false, false, true⟩ _

theorem backends_differ_fpgaChain :
    (IlaDriver.session (BscaneIlaTapBackend.backend chainTarget) [.probe, .setReadAddr 3, .readSamples (some 2)]
        { backend := .create fpgaChain 0 1 }).map (fun r => r.1.getLast?) = some (some (.samples true [4, 5])) ∧
      (IlaDriver.session RegisterFile.backend [.probe, .setReadAddr 3, .readSamples (some 2)]
        { backend := fpga.core.registerFile (fpga.core.side 0) }).map (fun r => r.1.getLast?) =
        some (some (.samples true [3, 4])) := by
  constructor <;> decide +kernel

end OwlTap.Ila
