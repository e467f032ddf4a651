import OwlTap.Ila.ChainServes

/-!
# Samples through the chain

The first scan of READ_DATA goes before its batch, to select the register; and it counts. So
the words that the backend brings begin one address after `rd_addr`.
-/

namespace OwlTap.Ila

open OwlTap Ftdi Jtag
open IlaDriver (wordBytes)

variable {addrW : ℕ}

namespace BscaneIlaTapBackend

/-- The frame of a batch is built like that of a scan. -/
theorem bits_batchTdi {k n : ℕ} (hk : k < n) (pendingIr : BitVec 32) (tdi : List Byte) :
    bits (orBits (bitAt tdi) (k + 5) 32 (orBits pendingIr.getLsbD k 5
        (List.replicate ((kFrameBits + (n - 1) + 7) / 8) 0))) (kFrameBits + (n - 1)) =
      (lanes n k (frameOf (pendingIr.setWidth 5) (ofBits 32 (bits tdi 32)))).flatten := by
  have hbytes := le_bytesFor (kFrameBits + (n - 1))
  rw [bytesFor, kFrameBits] at hbytes
  rw [← bits_frameTdi, ← bits_orBits_lanes hk]
  refine congrArg (bits · _) (buffer_ext (by simp) fun j _ => ?_)
  rw [bitAt_orBits _ _ (by rw [length_orBits, List.length_replicate, kFrameBits]; omega),
    bitAt_orBits_zeros _ (by rw [kFrameBits]; omega), bitAt_orBits_zeros _ (by rw [kFrameBits]; omega)]
  by_cases hj : k ≤ j ∧ j < k + kFrameBits
  · obtain ⟨i, rfl⟩ : ∃ i, j = k + i := ⟨j - k, by omega⟩
    have hi : i < 37 := by have := hj.2; rw [kFrameBits] at this; omega
    rw [Nat.add_sub_cancel_left, bitAt_frameTdi _ _ hi]
    by_cases h5 : i < 5
    · simp [h5, show i < kFrameBits from hi]
    · rw [if_neg h5, show k + i - (k + 5) = i - 5 by omega]
      simp [h5, show i < kFrameBits from hi]
      omega
  · rw [kFrameBits] at hj ⊢
    have h₁ : (decide (k ≤ j) && decide (j < k + 5)) = false := by simp; omega
    have h₂ : (decide (k + 5 ≤ j) && decide (j < k + 5 + 32)) = false := by simp; omega
    have h₃ : (decide (k ≤ j) && decide (j < k + 37)) = false := by simp; omega
    rw [h₁, h₂, h₃]
    rfl

/-- The data words of the scans of a batch. -/
theorem unpackScans_eq {raws : List (List Byte)} {words : List (BitVec 32)} {rawBytes dataStart : ℕ}
    (hlen : raws.length = words.length) (hraw : ∀ raw ∈ raws, raw.length = rawBytes)
    (hroom : dataStart + 32 ≤ 8 * rawBytes)
    (hword : ∀ i (h : i < raws.length) (h' : i < words.length), ∀ j < 32,
      bitAt raws[i] (dataStart + j) = words[i].getLsbD j) :
    unpackScans raws.flatten rawBytes 4 dataStart 32 words.length = (words.map wordBytes).flatten := by
  rw [unpackScans]
  refine congrArg List.flatten (List.ext_getElem (by simp) fun i h₁ h₂ => ?_)
  have hi : i < words.length := by simpa using h₂
  have hir : i < raws.length := hlen ▸ hi
  simp only [List.getElem_map, List.getElem_range]
  refine eq_packBits (by simp [bytesFor]) fun j => ?_
  rw [bitAt_orBits_zeros _ (by decide), Nat.sub_zero, getD_toBits]
  by_cases hj : j < 32
  · have hslice : bitAt (raws.flatten.drop (i * rawBytes)) (dataStart + j) = bitAt raws[i] (dataStart + j) := by
      rw [← bitAt_take _ (show dataStart + j < 8 * rawBytes by omega), slice_flatten hraw hir]
    rw [hslice, hword i hir hi j hj]
    simp [hj]
  · rw [BitVec.getLsbD_of_ge _ _ (by omega)]
    simp [hj]

end BscaneIlaTapBackend

theorem params_iterate (frame : List Bool) (i : ℕ) (c : IlaCore 32 addrW) :
    ((fun c => IlaCore.update c frame)^[i] c).params = c.params := by
  induction i generalizing c with
  | zero => rfl
  | succ i ih =>
    rw [Function.iterate_succ_apply, ih]
    rfl

namespace Selected

variable {k : ℕ} {d : FpgaTap 32 addrW} {b b₁ : BscaneIlaTapBackend (List (Device (ChainCore addrW)))}

/-- The words of a batch, once the core has been primed: what the core captures before every frame. -/
theorem shiftDrBatch (h : Selected k d b₁) (hprime : BscaneIlaTapBackend.prime chainTarget b = some (true, b₁))
    (hdev : b₁.chain.devices = b.chain.devices) (hidx : b₁.plTapIndex = b.plTapIndex)
    {count : ℕ} (h1 : 1 ≤ count) {tdi : List Byte} (htdi : 4 ≤ tdi.length) :
    ∃ tap, BscaneIlaTapBackend.shiftDrBatch chainTarget count 32 tdi b =
        some ((true, (((List.range count).map fun i => ((fun c => IlaCore.update c
          (frameOf (b.pendingIr.setWidth 5) (ofBits 32 (bits tdi 32))))^[i] d.core).captureData).map wordBytes).flatten),
          { b₁ with chain := { b₁.chain with tap }, storedIrInHw := b₁.pendingIr }) ∧
      Selected k { d with core := (fun c => IlaCore.update c
          (frameOf (b.pendingIr.setWidth 5) (ofBits 32 (bits tdi 32))))^[count] d.core }
        { b₁ with chain := { b₁.chain with tap }, storedIrInHw := b₁.pendingIr } := by
  set frame := frameOf (b.pendingIr.setWidth 5) (ofBits 32 (bits tdi 32)) with hframe
  have htotal : b.totalDr = kFrameBits + (b.chain.devices.length - 1) := by
    have := h.totalDr_eq
    rwa [BscaneIlaTapBackend.totalDr, hdev] at this
  have hk : k < b.chain.devices.length := hdev ▸ h.lt_devices
  have hcores : b.chain.devices.length = b₁.chain.tap.cores.length := hdev ▸ h.length_devices
  have hindex : b.plTapIndex.toNat = k := by rw [← hidx, h.index, Int.toNat_natCast]
  have hpres := fun i => h.toPresents.updates frame i
  rw [← hcores] at hpres
  have hlanes : (lanes b.chain.devices.length k frame).length = b₁.chain.tap.cores.length := by
    rw [length_lanes, hcores]
  have hwidth : ∀ i, (TapController.AtRest.updates chainLogic (lanes b.chain.devices.length k frame) i
      b₁.chain.tap.cores).length = b.chain.devices.length := fun i => by
    have := congrArg List.length (irWidths_updates hlanes i)
    rw [List.length_map, List.length_map] at this
    rw [this, hcores]
  have hbits := BscaneIlaTapBackend.bits_batchTdi hk b.pendingIr tdi
  rw [← htotal] at hbits
  have hcaptured : ∀ i, (lanes b.chain.devices.length k frame).map List.length =
      (TapController.AtRest.updates chainLogic (lanes b.chain.devices.length k frame) i b₁.chain.tap.cores).map
        fun d => (chainLogic.capture .dr d).length := fun i => by
    have hlen : frame.length = kFrameBits := length_frameOf _ _
    have := (hpres i).length_captures hlen
    rwa [hwidth] at this
  obtain ⟨tap, e, hrest, hcores'⟩ := h.rest.shiftDRRepeat chainLogic (n := b.totalDr)
    (by rw [htotal, kFrameBits]; omega) (by rw [length_orBits, length_orBits, List.length_replicate]; rfl) (show count ≠ 0 by omega)
    hbits hcaptured
  have hlenflat : ∀ i, ((TapController.AtRest.updates chainLogic (lanes b.chain.devices.length k frame) i
      b₁.chain.tap.cores).map (chainLogic.capture .dr)).flatten.length = b.totalDr := fun i => by
    have hsum := congrArg List.length hbits
    rw [length_bits, List.length_flatten, hcaptured i] at hsum
    rw [List.length_flatten, hsum, List.map_map]
    rfl
  refine ⟨tap, ?_, Selected.of_cache (h.of_presents hrest (hcores' ▸ hpres count) ?_ (params_iterate frame count _)) _⟩
  · have hcall := Method.on_of_eq (fun (b : BscaneIlaTapBackend (List (Device (ChainCore addrW)))) chain => { b with chain })
      (JtagChain.onTap_of_eq e)
    change BscaneIlaTapBackend.onTap _ b₁ = some (_, { b₁ with chain := { b₁.chain with tap } }) at hcall
    rw [BscaneIlaTapBackend.shiftDrBatch, if_neg (by omega)]
    simp only [BscaneIlaTapBackend.dataStart, hindex, Nat.min_self, Int.toNat_natCast]
    rw [if_neg (by rw [htotal, kFrameBits]; omega), Method.bind_of_eq _ hprime]
    simp only [if_true]
    rw [Method.bind_of_eq _ hcall]
    simp only [if_true]
    rw [Method.modify_bind]
    have hraws : ∀ raw ∈ (List.range count).map fun i => packBits ((TapController.AtRest.updates chainLogic
        (lanes b.chain.devices.length k frame) i b₁.chain.tap.cores).map (chainLogic.capture .dr)).flatten,
        raw.length = (b.totalDr + 7) / 8 := fun raw hm => by
      obtain ⟨i, -, rfl⟩ := List.mem_map.mp hm
      rw [length_packBits, hlenflat i, bytesFor]
    rw [if_neg (by rw [length_flatten_of_length hraws, List.length_map, List.length_range]; omega)]
    have hlen : ((List.range count).map fun i => packBits ((TapController.AtRest.updates chainLogic
        (lanes b.chain.devices.length k frame) i b₁.chain.tap.cores).map (chainLogic.capture .dr)).flatten).length =
        ((List.range count).map fun i => ((fun c => IlaCore.update c frame)^[i] d.core).captureData).length := by simp
    have hunpack := BscaneIlaTapBackend.unpackScans_eq hlen hraws (show k + 5 + 32 ≤ _ by rw [htotal, kFrameBits]; omega)
      fun i h₁ h₂ j hj => by
        simp only [List.getElem_map, List.getElem_range]
        exact ((hpres i).bitAt_captures hj).2
    rw [List.length_map, List.length_range] at hunpack
    exact congrArg some (Prod.ext (Prod.ext rfl hunpack) rfl)
  · rw [hcores', irWidths_updates hlanes]

end Selected

/-! ### READ_DATA -/

namespace IlaCore

/-- A scan of READ_DATA goes on to the next address. -/
theorem rdAddr_update (c : IlaCore 32 addrW) (data : BitVec 32) :
    (c.update (frameOf Opcode.readData data)).regs.rdAddr = c.regs.rdAddr + 1 := by
  rw [update, IlaRegs.latch, frameOpcode_frameOf]
  rfl

/-- A core that holds READ_DATA captures one word after the other. -/
theorem captureData_iterate {c : IlaCore 32 addrW} (h : c.regs.storedIr = Opcode.readData) (data : BitVec 32) (i : ℕ) :
    ((fun c => IlaCore.update c (frameOf Opcode.readData data))^[i] c).captureData =
      (c.side (c.time + i)).mem (c.regs.rdAddr + BitVec.ofNat addrW i) := by
  induction i generalizing c with
  | zero =>
    rw [Function.iterate_zero_apply, captureData, IlaRegs.captureData, h, Nat.add_zero,
      show c.regs.rdAddr + BitVec.ofNat addrW 0 = c.regs.rdAddr from BitVec.add_zero _]
    rfl
  | succ i ih =>
    have hadd : BitVec.ofNat addrW (i + 1) = 1 + BitVec.ofNat addrW i := by rw [Nat.add_comm, BitVec.ofNat_add]; rfl
    rw [Function.iterate_succ_apply, ih (storedIr_update c _ _), rdAddr_update, hadd, BitVec.add_assoc]
    show (c.side (c.time + 1 + i)).mem _ = _
    rw [Nat.add_assoc, Nat.add_comm 1 i]

/-- What stays, and how many scans there have been. -/
theorem iterate_readData {c : IlaCore 32 addrW} (h : c.regs.storedIr = Opcode.readData) (data : BitVec 32) (i : ℕ) :
    ((fun c => IlaCore.update c (frameOf Opcode.readData data))^[i] c).regs.storedIr = Opcode.readData ∧
      ((fun c => IlaCore.update c (frameOf Opcode.readData data))^[i] c).side = c.side ∧
      ((fun c => IlaCore.update c (frameOf Opcode.readData data))^[i] c).time = c.time + i := by
  induction i generalizing c with
  | zero => exact ⟨h, rfl, rfl⟩
  | succ i ih =>
    obtain ⟨hop, hside, htime⟩ := ih (storedIr_update c Opcode.readData data)
    rw [Function.iterate_succ_apply]
    refine ⟨hop, hside, htime.trans ?_⟩
    show c.time + 1 + i = _
    omega

/-- Only the address is gone on with, and no pulse is asked for. -/
theorem settings_iterate (data : BitVec 32) (i : ℕ) (c : IlaCore 32 addrW) :
    ((fun c => IlaCore.update c (frameOf Opcode.readData data))^[i] c).regs.settings =
        { c.regs.settings with rdAddr := c.regs.rdAddr + BitVec.ofNat addrW i } ∧
      ((fun c => IlaCore.update c (frameOf Opcode.readData data))^[i] c).pulses = c.pulses := by
  induction i generalizing c with
  | zero =>
    have haddr : c.regs.rdAddr + BitVec.ofNat addrW 0 = c.regs.rdAddr := BitVec.add_zero _
    rw [Function.iterate_zero_apply, haddr]
    exact ⟨rfl, rfl⟩
  | succ i ih =>
    obtain ⟨hset, hpul⟩ := ih (c.update (frameOf Opcode.readData data))
    have hadd : BitVec.ofNat addrW (i + 1) = 1 + BitVec.ofNat addrW i := by rw [Nat.add_comm, BitVec.ofNat_add]; rfl
    rw [Function.iterate_succ_apply, hset, hpul, rdAddr_update, settings_update, pulses_update, hadd, BitVec.add_assoc]
    exact ⟨rfl, List.append_nil _⟩

end IlaCore

/-- A batch of READ_DATA: the words after that of `rd_addr`, or from it on if READ_DATA has been scanned last. -/
theorem Linked.readData {k : ℕ} {d : FpgaTap 32 addrW} {b : BscaneIlaTapBackend (List (Device (ChainCore addrW)))}
    (h : Linked k d b) {s : Option (BitVec 5)} (hc : Caches b.storedIrInHw d.core s) {n : ℕ} (h1 : 1 ≤ n) :
    ∃ b₁ b₂ d₂ j, BscaneIlaTapBackend.selectIr chainTarget IlaDriver.kIrReadData b = some (true, b₁) ∧
      BscaneIlaTapBackend.shiftDrBatch chainTarget n 32 [0, 0, 0, 0] b₁ =
        some ((true, (((List.range n).map fun i => (d.core.side (d.core.time + j + i)).mem
          (d.core.regs.rdAddr + BitVec.ofNat addrW j + BitVec.ofNat addrW i)).map wordBytes).flatten), b₂) ∧
      Linked k d₂ b₂ ∧ Caches b₂.storedIrInHw d₂.core (some Opcode.readData) ∧ d₂.core.params = d.core.params ∧
      d₂.core.side = d.core.side ∧ d₂.core.time = d.core.time + j + n ∧
      d₂.core.regs.settings =
        { d.core.regs.settings with rdAddr := d.core.regs.rdAddr + BitVec.ofNat addrW j + BitVec.ofNat addrW n } ∧
      d₂.core.pulses = d.core.pulses ∧ (s ≠ some Opcode.readData → j = 1) := by
  obtain ⟨chain, hsel, hsel₁⟩ := h.selectIr IlaDriver.kIrReadData
  set b₁ : BscaneIlaTapBackend (List (Device (ChainCore addrW))) :=
    { b with chain, pendingIr := IlaDriver.kIrReadData &&& 0x1F } with hb₁
  set d₁ : FpgaTap 32 addrW := { d with instruction := some (Bscane2.userOpcode d.core.params.jtagChain) } with hd₁
  -- the core after the priming scan, if there is one
  have hprimed : ∃ tap core j x, BscaneIlaTapBackend.prime chainTarget b₁ =
        some (true, { b₁ with chain := { b₁.chain with tap }, storedIrInHw := x }) ∧
      Selected k { d₁ with core } { b₁ with chain := { b₁.chain with tap }, storedIrInHw := x } ∧
      core.regs.storedIr = Opcode.readData ∧ core.params = d.core.params ∧ core.side = d.core.side ∧
      core.time = d.core.time + j ∧ core.regs.rdAddr = d.core.regs.rdAddr + BitVec.ofNat addrW j ∧
      core.regs.settings = { d.core.regs.settings with rdAddr := d.core.regs.rdAddr + BitVec.ofNat addrW j } ∧
      core.pulses = d.core.pulses ∧ (s ≠ some Opcode.readData → j = 1) := by
    by_cases hs : s = some Opcode.readData
    · rw [hs] at hc
      have haddr : d.core.regs.rdAddr + BitVec.ofNat addrW 0 = d.core.regs.rdAddr := BitVec.add_zero _
      refine ⟨b₁.chain.tap, d.core, 0, b₁.storedIrInHw, ?_, hsel₁, hc.2, rfl, rfl, rfl, haddr.symm, by rw [haddr]; rfl, rfl,
        fun hne => absurd hs hne⟩
      exact if_neg (not_not.mpr hc.1)
    · obtain ⟨tap, e, hsel₂⟩ := hsel₁.prime (hc.stale hs)
      obtain ⟨hset, hpul⟩ := IlaCore.settings_iterate 0 1 d.core
      exact ⟨tap, _, 1, _, e, hsel₂, IlaCore.storedIr_update _ _ _, rfl, rfl, rfl, IlaCore.rdAddr_update _ _, hset, hpul,
        fun _ => rfl⟩
  obtain ⟨tap, core, j, x, hprime, hsel₂, hop, hparams, hside, htime, haddr, hset, hpul, hj⟩ := hprimed
  obtain ⟨tap', hbatch, hsel₃⟩ := hsel₂.shiftDrBatch hprime rfl rfl h1
    (show 4 ≤ ([0, 0, 0, 0] : List Byte).length by decide)
  have hp5 : b₁.pendingIr.setWidth 5 = Opcode.readData := rfl
  rw [hp5] at hbatch hsel₃
  refine ⟨b₁, _, _, j, hsel, ?_, hsel₃.toLinked, ⟨rfl, ?_⟩, ?_, ?_, ?_, ?_, ?_, hj⟩
  · rw [hbatch]
    have hwords : ((List.range n).map fun i => ((fun c => IlaCore.update c
        (frameOf Opcode.readData (ofBits 32 (bits [0, 0, 0, 0] 32))))^[i] core).captureData) =
        (List.range n).map fun i => (d.core.side (d.core.time + j + i)).mem
          (d.core.regs.rdAddr + BitVec.ofNat addrW j + BitVec.ofNat addrW i) := List.map_congr_left fun i _ => by
      rw [IlaCore.captureData_iterate hop, hside, htime, haddr]
    rw [hwords]
  · exact (IlaCore.iterate_readData hop _ n).1
  · exact (params_iterate _ n core).trans hparams
  · exact (IlaCore.iterate_readData hop _ n).2.1.trans hside
  · rw [(IlaCore.iterate_readData hop _ n).2.2, htime]
  · rw [(IlaCore.settings_iterate _ n core).1, hset, haddr]
  · exact (IlaCore.settings_iterate _ n core).2.trans hpul

namespace IlaDriver

/-- Through the chain `readSamples` returns the words after that of `rd_addr`, unless READ_DATA has been read
last. -/
theorem readSamples_chain {k t₀ : ℕ} {sides : ℕ → SampleSide 32 addrW} {s : Option (BitVec 5)}
    {d : IlaDriver (BscaneIlaTapBackend (List (Device (ChainCore addrW))))} {f : RegisterFile addrW}
    (h : Idles k t₀ sides s d.backend f) (hs : s ≠ some Opcode.readData) {mem : BitVec addrW → BitVec 32}
    (hmem : ∀ t, t₀ ≤ t → (sides t).mem = mem) {count : Option (BitVec 32)}
    {n : BitVec 32} (hn : count.getD (BitVec.ofNat 32 d.caps.depth) = n) (hdata : d.caps.dataW = 32) (h1 : 1 ≤ n.toNat)
    (hlt : n.toNat < 2 ^ 31) (out : List (BitVec 32)) :
    ∃ b, readSamples (BscaneIlaTapBackend.backend chainTarget) count out d =
        some ((true, Ring.read mem (f.regs.rdAddr + 1) n.toNat), { d with backend := b }) := by
  have hint : n.toInt = n.toNat := by rw [BitVec.toInt_eq_toNat_cond, if_pos (by omega)]
  obtain ⟨d₀, hl, hm, hc, ht, -⟩ := h
  obtain ⟨b₁, b₂, d₂, j, hsel, hbatch, -, -, -, -, -, -, -, hj⟩ := hl.readData hc h1
  obtain rfl := hj hs
  have haddr : d₀.core.regs.settings.rdAddr = f.regs.settings.rdAddr := by rw [hm.settings]
  have hwords : ((List.range n.toNat).map fun i => (d₀.core.side (d₀.core.time + 1 + i)).mem
      (d₀.core.regs.rdAddr + BitVec.ofNat addrW 1 + BitVec.ofNat addrW i)) =
      Ring.read mem (f.regs.rdAddr + 1) n.toNat := List.map_congr_left fun i _ => by
    rw [hm.shows, hmem _ (by omega), show d₀.core.regs.rdAddr = f.regs.rdAddr from haddr]
    rfl
  rw [hwords, ← hint] at hbatch
  exact ⟨_, readSamples_of_batch hn hdata hsel hbatch (Ring.length_read _ _ _) out⟩

/-- What `readSamples` returns, whatever the memory does meanwhile, and what it does to the core. -/
theorem readSamples_effect {k t₀ : ℕ} {sides : ℕ → SampleSide 32 addrW} {P : IlaParams} {s : Option (BitVec 5)}
    {d : IlaDriver (BscaneIlaTapBackend (List (Device (ChainCore addrW))))} {f : RegisterFile addrW}
    (hd : Ready (Idles k t₀ sides) P s d f) (hs : s ≠ some Opcode.readData) {count : Option (BitVec 32)}
    {n : BitVec 32} (hn : count.getD (BitVec.ofNat 32 d.caps.depth) = n) (hdata : d.caps.dataW = 32) (h1 : 1 ≤ n.toNat)
    (hlt : n.toNat < 2 ^ 31) (out : List (BitVec 32)) :
    ∃ b t f', readSamples (BscaneIlaTapBackend.backend chainTarget) count out d =
        some ((true, (List.range n.toNat).map fun i => (sides (t + i)).mem (f.regs.rdAddr + 1 + BitVec.ofNat addrW i)),
          { d with backend := b }) ∧
      t₀ ≤ t ∧ Ready (Idles k (t + n.toNat) sides) P (some Opcode.readData) { d with backend := b } f' ∧
      f'.regs.settings = { f.regs.settings with rdAddr := f.regs.rdAddr + 1 + BitVec.ofNat addrW n.toNat } ∧
      f'.pulses = f.pulses := by
  have hint : n.toInt = n.toNat := by rw [BitVec.toInt_eq_toNat_cond, if_pos (by omega)]
  obtain ⟨d₀, hl, hm, hc, ht, -⟩ := hd.rel
  obtain ⟨b₁, b₂, d₂, j, hsel, hbatch, hl₂, hc₂, hP₂, hside₂, ht₂, hset₂, hpul₂, hj⟩ := hl.readData hc h1
  obtain rfl := hj hs
  have haddr : d₀.core.regs.settings.rdAddr = f.regs.settings.rdAddr := by rw [hm.settings]
  change d₀.core.regs.rdAddr = f.regs.rdAddr at haddr
  rw [← hint] at hbatch
  have hread := readSamples_of_batch (B := BscaneIlaTapBackend.backend chainTarget) (d := d) hn hdata hsel hbatch
    (by simp) out
  rw [hm.shows, haddr] at hread
  refine ⟨b₂, d₀.core.time + 1, d₂.core.registerFile (d₂.core.side (d₂.core.time - 1)), hread, by omega,
    ⟨⟨d₂, hl₂, ⟨rfl, rfl, rfl, hside₂.trans hm.shows, by rw [← hm.shows, ← hside₂]; rfl⟩, hc₂, ht₂.ge,
      fun he => absurd he (by decide)⟩, hP₂.trans (hm.params.trans hd.params), hd.caps.imp_right fun hcaps => ⟨hcaps.1, nofun⟩⟩,
    ?_, hpul₂.trans hm.pulses⟩
  show d₂.core.regs.settings = _
  rw [hset₂, hm.settings, haddr]
  rfl

/-- After any `readSamples` that returns, the driver is ready again. -/
theorem readSamples_ready {k t₀ : ℕ} {sides : ℕ → SampleSide 32 addrW} {P : IlaParams} (hw : 1 ≤ addrW ∧ addrW ≤ 32)
    {s : Option (BitVec 5)} {d d' : IlaDriver (BscaneIlaTapBackend (List (Device (ChainCore addrW))))}
    {f : RegisterFile addrW} (hd : Ready (Idles k t₀ sides) P s d f) {count : Option (BitVec 32)} {out : List (BitVec 32)}
    {r : Bool × List (BitVec 32)}
    (h : readSamples (BscaneIlaTapBackend.backend chainTarget) count out d = some (r, d')) :
    ∃ s' f', Ready (Idles k t₀ sides) P s' d' f' ∧ d'.caps = d.caps := by
  obtain ⟨hdata, -⟩ := hd.widths hw
  set n := count.getD (BitVec.ofNat 32 d.caps.depth) with hn
  by_cases hpos : 1 ≤ n.toInt
  · obtain ⟨m, hm⟩ : ∃ m : ℕ, n.toInt = m := ⟨n.toInt.toNat, by omega⟩
    have hlt := n.isLt
    have hnat : n.toNat = m := by
      rw [BitVec.toInt_eq_toNat_cond] at hm hpos
      split_ifs at hm hpos <;> omega
    obtain ⟨d₀, hl, hmir, hc, ht, -⟩ := hd.rel
    obtain ⟨b₁, b₂, d₂, j, hsel, hbatch, hl₂, hc₂, hP₂, hside₂, ht₂, -⟩ := hl.readData hc (show 1 ≤ m by omega)
    rw [← hm] at hbatch
    have hread := readSamples_of_batch (B := BscaneIlaTapBackend.backend chainTarget) (d := d) hn.symm hdata hsel hbatch
      (by simp [hnat]) out
    have hd' : d' = { d with backend := b₂ } := (Prod.mk.inj (Option.some.inj (h.symm.trans hread))).2
    refine ⟨some Opcode.readData, d₂.core.registerFile (d₂.core.side (d₂.core.time - 1)), ?_⟩
    rw [hd']
    exact ⟨⟨⟨d₂, hl₂, ⟨rfl, rfl, rfl, hside₂.trans hmir.shows, by rw [← hmir.shows, ← hside₂]; rfl⟩, hc₂,
      show t₀ ≤ d₂.core.time by omega, fun he => absurd he (by decide)⟩, hP₂.trans (hmir.params.trans hd.params),
      hd.caps.imp_right fun hcaps => ⟨hcaps.1, nofun⟩⟩, rfl⟩
  · obtain ⟨b₁, e, hS⟩ := selectIr_effect (chain_serves k t₀ sides) hd.rel kIrReadData
    have hbatch : onBackend ((BscaneIlaTapBackend.backend chainTarget).shiftDrBatch n.toInt d.caps.dataW [0, 0, 0, 0])
        { d with backend := b₁ } = some ((true, []), { d with backend := b₁ }) :=
      Method.on_of_eq _ (if_pos (show n.toInt ≤ 0 by omega))
    rw [readSamples, ← hn, Method.bind_of_eq _ e] at h
    simp only [if_true] at h
    rw [Method.bind_of_eq _ hbatch] at h
    obtain ⟨xs, y, hunpack, hpure⟩ := Method.bind_eq_some.mp h
    obtain ⟨ys, -, hy⟩ := Option.map_eq_some_iff.mp hunpack
    have hd' : d' = { d with backend := b₁ } :=
      (Prod.mk.inj (Option.some.inj hpure)).2.symm.trans (Prod.mk.inj hy).2.symm
    refine ⟨s, f.select Opcode.readData, ?_⟩
    rw [hd']
    exact ⟨⟨(chain_serves k t₀ sides).idle hS rfl, hd.params, hd.caps⟩, rfl⟩

end IlaDriver

end OwlTap.Ila
