import OwlTap.Ila.DriverSession
import OwlTap.Ila.FpgaChain

/-!
# The chain behind the driver

A core answers with the register of the opcode before, so the backend scans twice when it does
not know that the core holds the opcode: the first scan writes a zero to the register, and what
the second one writes replaces it. Only READ_DATA, which counts its scans, and SIG_DEF, which
counts them too, can tell. `Mirrors` relates the core to the register file between two
scans; with it the chain serves the driver (`chain_serves`).
-/

namespace OwlTap.Ila

open OwlTap Ftdi Jtag

variable {addrW : ℕ}

/-! ### Scans of a core -/

namespace IlaRegs

@[simp] theorem write_storedIr {dataW : ℕ} (opcode : BitVec 5) (data : BitVec dataW) (r : IlaRegs dataW addrW) :
    (r.write opcode data).storedIr = r.storedIr := by
  simp only [write, apply_ite storedIr, ite_self]

@[simp] theorem write_sigDefIdx (opcode : BitVec 5) (data : BitVec 32) (r : IlaRegs 32 addrW) :
    (r.write opcode data).sigDefIdx = r.sigDefIdx := by
  simp only [write, apply_ite sigDefIdx, ite_self]

/-- A second write replaces the first, but for READ_DATA. -/
theorem write_write {opcode : BitVec 5} (h : opcode ≠ Opcode.readData) (x y : BitVec 32) (r : IlaRegs 32 addrW) :
    (r.write opcode x).write opcode y = r.write opcode y := by
  by_cases hm : opcode ∈ [Opcode.trigMask, Opcode.trigVal, Opcode.readAddr, Opcode.preSamples, Opcode.trigRise,
      Opcode.trigFall, Opcode.trigMask2, Opcode.trigVal2, Opcode.trigCtrl]
  · simp only [List.mem_cons, List.not_mem_nil, or_false] at hm
    rcases hm with rfl | rfl | rfl | rfl | rfl | rfl | rfl | rfl | rfl <;> rfl
  · have hsame : ∀ data (r : IlaRegs 32 addrW), r.write opcode data = r := fun data r => by
      simp only [List.mem_cons, List.not_mem_nil, or_false, not_or] at hm
      obtain ⟨h₁, h₂, h₃, h₄, h₅, h₆, h₇, h₈, h₉⟩ := hm
      simp only [write, if_neg h, h₁, h₂, h₃, h₄, h₅, h₆, h₇, h₈, h₉, if_false]
    rw [hsame x]

/-- The registers that only read show the parameters, the signal definition to be read and the status. -/
theorem captureData_readOnly (P : IlaParams) {r r' : IlaRegs 32 addrW} (ho : r.storedIr = r'.storedIr)
    (hm : r'.storedIr ∈ IlaDriver.readOnly) (hi : r'.storedIr = Opcode.sigDef → r.sigDefIdx = r'.sigDefIdx)
    (word word' : BitVec 32) (status : IlaStatus) :
    r.captureData P word status = r'.captureData P word' status := by
  rw [captureData, captureData, ho]
  simp only [IlaDriver.readOnly, List.mem_cons, List.not_mem_nil, or_false] at hm
  rcases hm with hm | hm | hm | hm
  · rw [hm]
    rfl
  · rw [hm]
    rfl
  · rw [hi hm, hm]
    rfl
  · rw [hm]
    rfl

end IlaRegs

namespace IlaCore

variable (c : IlaCore 32 addrW) (opcode : BitVec 5) (data : BitVec 32)

theorem settings_update : (c.update (frameOf opcode data)).regs.settings = c.regs.settings.write opcode data := by
  rw [update, IlaRegs.latch, IlaDriver.settings_write, frameOpcode_frameOf, frameData_frameOf]
  rfl

theorem storedIr_update : (c.update (frameOf opcode data)).regs.storedIr = opcode := by
  rw [update, IlaRegs.latch, IlaRegs.write_storedIr, frameOpcode_frameOf]

theorem sigDefIdx_update : (c.update (frameOf opcode data)).regs.sigDefIdx = c.regs.nextSigDef c.params opcode := by
  rw [update, IlaRegs.latch, IlaRegs.write_sigDefIdx, frameOpcode_frameOf]

theorem pulsesOf_frameOf : pulsesOf (frameOf opcode data) = ctrlPulses opcode data := by
  rw [pulsesOf, ctrlPulses]
  split_ifs with h
  · refine List.filter_congr fun k _ => ?_
    rw [ctrlOf, frameOpcode_frameOf, drop_frameOf, getD_toBits, h]
    simp
  · refine List.filter_eq_nil_iff.mpr fun k _ => ?_
    rw [ctrlOf, frameOpcode_frameOf]
    simp [h]

theorem pulses_update : (c.update (frameOf opcode data)).pulses = c.pulses ++ ctrlPulses opcode data := by
  rw [update, pulsesOf_frameOf]

end IlaCore

/-! ### The core and the register file -/

/-- The opcode that the backend believes to be in the core is there; at first it believes none. -/
def Caches (storedIrInHw : BitVec 32) (c : IlaCore 32 addrW) : Option (BitVec 5) → Prop
  | none => storedIrInHw = 0xFF
  | some opcode => storedIrInHw = opcode.setWidth 32 ∧ c.regs.storedIr = opcode

/-- The core has the settings of the register file, and has had its pulses. -/
structure Mirrors (sides : ℕ → SampleSide 32 addrW) (c : IlaCore 32 addrW) (f : RegisterFile addrW) : Prop where
  /-- The parameters. -/
  params : c.params = f.params
  /-- The settings. -/
  settings : c.regs.settings = f.regs.settings
  /-- The pulses. -/
  pulses : c.pulses = f.pulses
  /-- What the sample clock domain shows to the scans. -/
  shows : c.side = sides
  /-- What it has shown to the last of them. -/
  shown : f.side = sides (c.time - 1)

/-- The core will answer as the register file does: it holds the opcode, and the write to come makes the settings
the same. -/
structure Poised (sides : ℕ → SampleSide 32 addrW) (c : IlaCore 32 addrW) (f : RegisterFile addrW) : Prop where
  /-- The parameters. -/
  params : c.params = f.params
  /-- The opcode. -/
  opcode : c.regs.storedIr = f.regs.storedIr
  /-- The settings after the write. -/
  written : ∀ data, c.regs.settings.write f.regs.storedIr data = f.regs.settings.write f.regs.storedIr data
  /-- The signal definition to be read. -/
  index : f.regs.storedIr = Opcode.sigDef → c.regs.sigDefIdx = f.regs.sigDefIdx
  /-- The pulses. -/
  pulses : c.pulses = f.pulses
  /-- What the sample clock domain shows to the scans. -/
  shows : c.side = sides

/-- A register file with the core's parameters and registers. -/
def IlaCore.registerFile (c : IlaCore 32 addrW) (side : SampleSide 32 addrW) : RegisterFile addrW :=
  ⟨c.params, c.regs, side, c.pulses⟩

variable {sides : ℕ → SampleSide 32 addrW} {c : IlaCore 32 addrW} {f : RegisterFile addrW}

/-- The core is poised when it holds the opcode. -/
theorem Mirrors.poised (h : Mirrors sides c f) (ho : c.regs.storedIr = f.regs.storedIr)
    (hi : f.regs.storedIr = Opcode.sigDef → c.regs.sigDefIdx = f.regs.sigDefIdx) : Poised sides c f :=
  ⟨h.params, ho, fun data => by rw [h.settings], hi, h.pulses, h.shows⟩

/-- And otherwise after a scan with zeros. -/
theorem Mirrors.primed (h : Mirrors sides c f) (hr : f.regs.storedIr ≠ Opcode.readData)
    (hi : f.regs.storedIr = Opcode.sigDef → c.regs.storedIr ≠ Opcode.sigDef ∧ f.regs.sigDefIdx = 0) :
    Poised sides (c.update (frameOf f.regs.storedIr 0)) f where
  params := h.params
  opcode := IlaCore.storedIr_update c _ _
  written data := by rw [IlaCore.settings_update, IlaRegs.write_write hr, h.settings]
  index hs := by
    rw [IlaCore.sigDefIdx_update, IlaRegs.nextSigDef, hs, if_pos fun he => (hi hs).1 he.symm, (hi hs).2]
  pulses := by
    have hzero : ctrlPulses f.regs.storedIr 0 = [] := by
      rw [ctrlPulses]
      split_ifs <;> rfl
    rw [IlaCore.pulses_update, hzero, List.append_nil, h.pulses]
  shows := h.shows

/-- A poised core captures what the register file reads, as far as the host uses it. -/
theorem Poised.capture (h : Poised sides c f) (hm : f.regs.storedIr ∈ IlaDriver.readOnly) :
    c.captureData = { f with side := sides c.time }.read := by
  rw [IlaCore.captureData, RegisterFile.read, h.params, h.shows]
  exact IlaRegs.captureData_readOnly f.params h.opcode hm h.index _ _ _

/-- The scan of a poised core does what that of the register file does. -/
theorem Poised.update (h : Poised sides c f) (data : BitVec 32) :
    Mirrors sides (c.update (frameOf f.regs.storedIr data)) ({ f with side := sides c.time }.update data) where
  params := h.params
  settings := by
    rw [IlaCore.settings_update, h.written, ← IlaDriver.settings_write]
    rfl
  pulses := by
    rw [IlaCore.pulses_update, h.pulses]
    rfl
  shows := h.shows
  shown := rfl

/-- The signal definitions go on alike. -/
theorem Poised.sigDefIdx_update (h : Poised sides c f) (data : BitVec 32) (hs : f.regs.storedIr = Opcode.sigDef) :
    (c.update (frameOf f.regs.storedIr data)).regs.sigDefIdx = ({ f with side := sides c.time }.update data).regs.sigDefIdx := by
  rw [IlaCore.sigDefIdx_update, IlaRegs.nextSigDef, h.opcode, if_neg (fun hne => hne rfl), if_pos hs, h.index hs, h.params]
  show _ = RegisterFile.nextSigDef { f with side := sides c.time }
  rw [RegisterFile.nextSigDef, if_pos hs]

/-! ### Scans of the backend -/

namespace Selected

variable {k : ℕ} {d : FpgaTap 32 addrW} {b : BscaneIlaTapBackend (List (Device (ChainCore addrW)))}

/-- What is believed of the core does not matter to the chain. -/
theorem of_cache (h : Selected k d b) (x : BitVec 32) : Selected k d { b with storedIrInHw := x } :=
  { h.toPresents with rest := h.rest, widths := h.widths, index := h.index, userChain := h.userChain, range := h.range }

/-- The priming scan. -/
theorem prime (h : Selected k d b) (hstale : b.storedIrInHw ≠ b.pendingIr) :
    ∃ tap, BscaneIlaTapBackend.prime chainTarget b =
        some (true, { b with chain := { b.chain with tap }, storedIrInHw := b.pendingIr }) ∧
      Selected k { d with core := d.core.update (frameOf (b.pendingIr.setWidth 5) 0) }
        { b with chain := { b.chain with tap }, storedIrInHw := b.pendingIr } := by
  obtain ⟨tap, raw, e, hsel, -⟩ := h.doRawFrameShift [0, 0, 0, 0]
  refine ⟨tap, ?_, ?_⟩
  · rw [BscaneIlaTapBackend.prime, if_pos hstale, Method.bind_of_eq _ e]
    rfl
  · have hzero : ofBits 32 (bits [0, 0, 0, 0] 32) = 0 := by decide
    rw [hzero] at hsel
    exact hsel.of_cache b.pendingIr

/-- The scan of a register, once the core has been primed. -/
theorem shiftDr {b₁ : BscaneIlaTapBackend (List (Device (ChainCore addrW)))} (h : Selected k d b₁)
    (hprime : BscaneIlaTapBackend.prime chainTarget b = some (true, b₁)) {n : ℕ} (h32 : n ≤ 32) {tdi : List Byte}
    (htdi : bytesFor n ≤ tdi.length) :
    ∃ chain tdo, BscaneIlaTapBackend.shiftDr chainTarget n tdi b =
        some ((true, tdo), { b₁ with chain, storedIrInHw := b₁.pendingIr }) ∧
      Selected k { d with core := d.core.update (frameOf (b₁.pendingIr.setWidth 5) (ofBits 32 (bits tdi n))) }
        { b₁ with chain, storedIrInHw := b₁.pendingIr } ∧
      bytesFor n ≤ tdo.length ∧ bits tdo n = (List.range n).map d.core.captureData.getLsbD := by
  obtain ⟨tap, raw, e, hsel, hraw⟩ := h.doRawFrameShift (orBits (bitAt tdi) 0 n [0, 0, 0, 0])
  have hmin : min n 32 = n := Nat.min_eq_left h32
  have hroom : ¬8 * tdi.length < n := by
    have := le_bytesFor n
    omega
  have hdata : ofBits 32 (bits (orBits (bitAt tdi) 0 n [0, 0, 0, 0]) 32) = ofBits 32 (bits tdi n) := by
    apply BitVec.eq_of_getLsbD_eq
    intro i hi
    have hbit : (bits (orBits (bitAt tdi) 0 n [0, 0, 0, 0]) 32).getD i false = (decide (i < n) && bitAt tdi i) := by
      rw [List.getD_eq_getElem _ _ (by simpa using hi), getElem_bits]
      refine (bitAt_orBits_zeros (bitAt tdi) (k := 4) (show 0 + n ≤ 8 * 4 by omega) i).trans ?_
      simp
    rw [getLsbD_ofBits, getLsbD_ofBits, hbit]
    by_cases hin : i < n
    · rw [List.getD_eq_getElem _ _ (by rwa [length_bits]), getElem_bits]
      simp [hin]
    · rw [List.getD_eq_default _ _ (by rw [length_bits]; omega)]
      simp [hin]
  rw [hdata] at hsel
  refine ⟨{ b₁.chain with tap }, orBits (bitAt raw) 0 n (List.replicate ((n + 7) / 8) 0), ?_, hsel.of_cache b₁.pendingIr, ?_, ?_⟩
  · rw [BscaneIlaTapBackend.shiftDr, Method.bind_of_eq _ hprime]
    simp only [if_true, hmin, if_neg hroom]
    rw [Method.bind_of_eq _ e]
    rfl
  · rw [length_orBits, List.length_replicate, bytesFor]
  · apply List.ext_getElem (by simp)
    intro i h₁ h₂
    have hi : i < n := by rwa [length_bits] at h₁
    have hbytes := le_bytesFor n
    rw [bytesFor] at hbytes
    rw [getElem_bits, bitAt_orBits_zeros _ (by omega), Nat.sub_zero, hraw i (by omega)]
    simp [hi]

end Selected

/-! ### The chain serves the driver -/

/-- Between two operations, and not before a time. -/
def Idles (k t₀ : ℕ) (sides : ℕ → SampleSide 32 addrW) (s : Option (BitVec 5))
    (b : BscaneIlaTapBackend (List (Device (ChainCore addrW)))) (f : RegisterFile addrW) : Prop :=
  ∃ d, Linked k d b ∧ Mirrors sides d.core f ∧ Caches b.storedIrInHw d.core s ∧ t₀ ≤ d.core.time ∧
    (s = some Opcode.sigDef → d.core.regs.sigDefIdx = 0)

/-- Between two operations, at a time that there may be after such a scan. -/
def IdlesAt (k : ℕ) (Q : ℕ → Option (BitVec 5) → Prop) (sides : ℕ → SampleSide 32 addrW) (s : Option (BitVec 5))
    (b : BscaneIlaTapBackend (List (Device (ChainCore addrW)))) (f : RegisterFile addrW) : Prop :=
  ∃ d, Linked k d b ∧ Mirrors sides d.core f ∧ Caches b.storedIrInHw d.core s ∧ Q d.core.time s ∧
    (s = some Opcode.sigDef → d.core.regs.sigDefIdx = 0)

/-- While an instruction is selected. -/
def Scans (k t₀ : ℕ) (sides : ℕ → SampleSide 32 addrW) (s : Option (BitVec 5))
    (b : BscaneIlaTapBackend (List (Device (ChainCore addrW)))) (f : RegisterFile addrW) : Prop :=
  ∃ d, Selected k d b ∧ Mirrors sides d.core f ∧ Caches b.storedIrInHw d.core s ∧ t₀ ≤ d.core.time ∧
    b.pendingIr = f.regs.storedIr.setWidth 32 ∧
    f.regs.sigDefIdx = (if s = some Opcode.sigDef then d.core.regs.sigDefIdx else 0) ∧
    (f.regs.storedIr ≠ Opcode.sigDef → f.regs.sigDefIdx = 0)

/-- While an instruction is selected, at such a time. -/
def ScansAt (k : ℕ) (Q : ℕ → Option (BitVec 5) → Prop) (sides : ℕ → SampleSide 32 addrW) (s : Option (BitVec 5))
    (b : BscaneIlaTapBackend (List (Device (ChainCore addrW)))) (f : RegisterFile addrW) : Prop :=
  ∃ d, Selected k d b ∧ Mirrors sides d.core f ∧ Caches b.storedIrInHw d.core s ∧ Q d.core.time s ∧
    b.pendingIr = f.regs.storedIr.setWidth 32 ∧
    f.regs.sigDefIdx = (if s = some Opcode.sigDef then d.core.regs.sigDefIdx else 0) ∧
    (f.regs.storedIr ≠ Opcode.sigDef → f.regs.sigDefIdx = 0)

theorem setWidth_opcode (opcode : BitVec 5) : (opcode.setWidth 32).setWidth 5 = opcode := by
  rw [setWidth_setWidth_of_ge _ (by decide), BitVec.setWidth_eq]

theorem masked_opcode (opcode : BitVec 32) : opcode &&& 0x1F = (opcode.setWidth 5).setWidth 32 := by
  apply BitVec.eq_of_toNat_eq
  rw [BitVec.toNat_and, BitVec.toNat_setWidth_of_le (by decide), BitVec.toNat_setWidth]
  exact Nat.and_two_pow_sub_one_eq_mod opcode.toNat 5

/-- Another opcode than the one that is believed to be there. -/
theorem Caches.stale {storedIrInHw : BitVec 32} {c : IlaCore 32 addrW} {s : Option (BitVec 5)}
    (h : Caches storedIrInHw c s) {opcode : BitVec 5} (hs : s ≠ some opcode) : storedIrInHw ≠ opcode.setWidth 32 := by
  intro he
  cases s with
  | none =>
    have hlt := opcode.isLt
    have := congrArg BitVec.toNat (Eq.trans (Eq.symm h) he)
    rw [BitVec.toNat_setWidth_of_le (by decide), show (0xFF : BitVec 32).toNat = 255 from rfl] at this
    omega
  | some cached =>
    have := congrArg (BitVec.setWidth 5) (h.1.symm.trans he)
    rw [setWidth_opcode, setWidth_opcode] at this
    exact hs (congrArg some this)

/-- The host primes the core, or knows that it need not. -/
theorem ScansAt.prime {k : ℕ} {Q : ℕ → Option (BitVec 5) → Prop} (hQ : ∀ t s, Q t s → Q (t + 1) s) {sides : ℕ → SampleSide 32 addrW} {s : Option (BitVec 5)}
    {b : BscaneIlaTapBackend (List (Device (ChainCore addrW)))} {f : RegisterFile addrW} (h : ScansAt k Q sides s b f)
    (hr : f.regs.storedIr ≠ Opcode.readData) (hs : f.regs.storedIr = Opcode.sigDef → s ≠ none) :
    ∃ b₁ d₁, BscaneIlaTapBackend.prime chainTarget b = some (true, b₁) ∧ Selected k d₁ b₁ ∧ Poised sides d₁.core f ∧
      b₁.pendingIr = f.regs.storedIr.setWidth 32 ∧ Q d₁.core.time s := by
  obtain ⟨d, hsel, hm, hc, ht, hp, hidx, -⟩ := h
  by_cases hstale : s = some f.regs.storedIr
  · subst hstale
    obtain ⟨hcache, hop⟩ := hc
    refine ⟨b, d, ?_, hsel, hm.poised hop fun he => ?_, hp, ht⟩
    · rw [BscaneIlaTapBackend.prime, if_neg (not_not.mpr (hcache.trans hp.symm))]
    · rw [hidx, if_pos (congrArg some he)]
  · have hne : b.storedIrInHw ≠ b.pendingIr := by
      rw [hp]
      exact hc.stale hstale
    obtain ⟨tap, e, hsel₁⟩ := hsel.prime hne
    rw [hp, setWidth_opcode] at hsel₁
    refine ⟨_, _, e, by rw [hp]; exact hsel₁, hm.primed hr fun he => ⟨fun hop => ?_, ?_⟩, hp,
      hQ _ _ ht⟩
    · cases s with
      | none => exact hs he rfl
      | some opcode => exact hstale (by rw [he, ← hop, hc.2])
    · rw [hidx, if_neg fun hsd => hstale (by rw [hsd, he])]

/-- The chain serves the driver, with the FPGA anywhere on it and whatever the core holds. -/
theorem chain_serves_at (k : ℕ) {Q : ℕ → Option (BitVec 5) → Prop} (hQ : ∀ t s, Q t s → Q (t + 1) s)
    (hscan : ∀ t s opcode, Q t s → Q (t + 1) (some opcode)) (sides : ℕ → SampleSide 32 addrW) :
    Serves (BscaneIlaTapBackend.backend chainTarget) (IdlesAt k Q sides) (ScansAt k Q sides) where
  select {s b f} opcode h := by
    obtain ⟨d, hl, hm, hc, ht, hidx⟩ := h
    obtain ⟨chain, e, hsel⟩ := hl.selectIr opcode
    refine ⟨_, e, _, hsel, ⟨hm.params, hm.settings, hm.pulses, hm.shows, hm.shown⟩, ?_, ht, masked_opcode opcode, ?_,
      fun _ => rfl⟩
    · cases s with
      | none => exact hc
      | some op => exact hc
    · split_ifs with hs
      · exact (hidx hs).symm
      · rfl
  shift {s b f n tdi} h hr hs h1 h32 htdi := by
    obtain ⟨b₁, d₁, hprime, hsel₁, hpoised, hp, ht⟩ := h.prime hQ hr hs
    obtain ⟨-, -, -, -, -, -, -, hfirst⟩ := h
    obtain ⟨chain, tdo, e, hsel, hlen, hbits⟩ := hsel₁.shiftDr hprime h32 htdi
    rw [hp, setWidth_opcode] at hsel
    have hstored : ({ f with side := sides d₁.core.time }.update (ofBits 32 (bits tdi n))).regs.storedIr =
        f.regs.storedIr := IlaRegs.write_storedIr _ _ _
    have hnext : f.regs.storedIr ≠ Opcode.sigDef →
        ({ f with side := sides d₁.core.time }.update (ofBits 32 (bits tdi n))).regs.sigDefIdx = 0 := fun hne => by
      show RegisterFile.nextSigDef { f with side := sides d₁.core.time } = 0
      rw [RegisterFile.nextSigDef, if_neg hne, hfirst hne]
    refine ⟨_, tdo, sides d₁.core.time, e, ⟨_, by rw [hp]; exact hsel, hpoised.update _,
      ⟨hp, IlaCore.storedIr_update _ _ _⟩, hscan _ _ _ ht, by rw [hstored]; exact hp, ?_, fun hne => ?_⟩, hlen, fun hm => ?_⟩
    · by_cases hsd : f.regs.storedIr = Opcode.sigDef
      · rw [if_pos (congrArg some hsd), hpoised.sigDefIdx_update _ hsd]
      · rw [if_neg fun he => hsd (Option.some.inj he), hnext hsd]
    · rw [hstored] at hne
      exact hnext hne
    · rw [hbits, hpoised.capture hm]
  idle {s b f} h hidx := by
    obtain ⟨d, hsel, hm, hc, ht, -, hi, -⟩ := h
    refine ⟨d, hsel.toLinked, hm, hc, ht, fun hs => ?_⟩
    rw [if_pos hs] at hi
    exact hi.symm.trans hidx
  empty _ _ _ := rfl

/-- It does so after any time. -/
theorem chain_serves (k t₀ : ℕ) (sides : ℕ → SampleSide 32 addrW) :
    Serves (BscaneIlaTapBackend.backend chainTarget) (Idles k t₀ sides) (Scans k t₀ sides) :=
  @chain_serves_at _ k (fun t _ => t₀ ≤ t) (fun _ _ => Nat.le_succ_of_le) (fun _ _ _ => Nat.le_succ_of_le) sides

end OwlTap.Ila
