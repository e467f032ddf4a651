import OwlTap.Ila.FpgaChain
import OwlTap.Jtag.BatchAgreement

/-!
# Batched reads and the loop

The backend's `shiftDrBatch` builds the frame for the whole chain itself, primes once and repeats the
frame in batches; the default calls `shiftDr` in a loop, which builds the frame for the FPGA
first and primes when its cache says so. From RUN-TEST/IDLE both put the same cycles on the pins, whatever
the hardware is (`shiftDrBatch_agrees`).
-/

namespace OwlTap.Ila

open OwlTap Ftdi Jtag

namespace BscaneIlaTapBackend

variable {σ : Type} {T : Target σ} {b : BscaneIlaTapBackend σ} {k : ℕ}

/-- The backend's device is on the chain, which is at rest. -/
structure OnChain (k : ℕ) (b : BscaneIlaTapBackend σ) : Prop where
  /-- The chain is at rest. -/
  rest : b.chain.tap.AtRest
  /-- The backend's device. -/
  index : b.plTapIndex = k
  /-- It is on the chain. -/
  range : k < b.chain.devices.length

/-- The hardware has run, and the TAP is in RUN-TEST/IDLE again. -/
def clockedTo (d : FtdiDevice σ) (b : BscaneIlaTapBackend σ) : BscaneIlaTapBackend σ :=
  { b with chain := { b.chain with tap := ⟨d, .runTestIdle, b.chain.tap.lastError⟩ } }

/-- The same, and the cache holds the pending opcode. -/
def primedTo (d : FtdiDevice σ) (b : BscaneIlaTapBackend σ) : BscaneIlaTapBackend σ :=
  { b.clockedTo d with storedIrInHw := b.pendingIr }

/-- The bits that a scan of the whole chain shifts. -/
def scanTdi (b : BscaneIlaTapBackend σ) (data32 : List Byte) : List Byte :=
  placeFrame b.plTapIndex (frameTdi b.pendingIr data32) b.chain.devices 0 0 (List.replicate ((b.totalDr + 7) / 8) 0)

/-- The data bits of one scan. -/
def scanData (dataStart dataBits outBytes : ℕ) (raw : List Byte) : List Byte :=
  orBits (fun j => bitAt raw (dataStart + j)) 0 dataBits (List.replicate outBytes 0)

/-- The bits of a caller, padded to four bytes. -/
def data32Of (dataBits : ℕ) (tdi : List Byte) : List Byte := orBits (bitAt tdi) 0 dataBits [0, 0, 0, 0]

/-- The bits that a batch repeats. -/
def batchTdi (b : BscaneIlaTapBackend σ) (dataBits : ℕ) (tdi : List Byte) : List Byte :=
  orBits (bitAt tdi) (b.plTapIndex.toNat + 5) dataBits
    (orBits b.pendingIr.getLsbD b.plTapIndex.toNat 5 (List.replicate ((b.totalDr + 7) / 8) 0))

theorem OnChain.totalDr_eq (h : OnChain k b) : b.totalDr = kFrameBits + (b.chain.devices.length - 1) := by
  have := h.range
  rw [totalDr]
  omega

theorem OnChain.scanTdi_eq (h : OnChain k b) (data32 : List Byte) :
    b.scanTdi data32 = orBits (bitAt (frameTdi b.pendingIr data32)) k kFrameBits
      (List.replicate ((b.totalDr + 7) / 8) 0) := by
  have hplace := placeFrame_eq k (frameTdi b.pendingIr data32) b.chain.devices 0 0
    (List.replicate ((b.totalDr + 7) / 8) 0)
  have hk := h.range
  rw [if_pos (by omega), Nat.zero_add, Nat.sub_zero, ← h.index] at hplace
  exact hplace

/-- The frame of a batch is that of a scan. -/
theorem OnChain.batchTdi_eq (h : OnChain k b) {dataBits : ℕ} (hbits : dataBits ≤ 32) (tdi : List Byte) :
    b.batchTdi dataBits tdi = b.scanTdi (data32Of dataBits tdi) := by
  have htotal := h.totalDr_eq
  have hk := h.range
  rw [kFrameBits] at htotal
  rw [h.scanTdi_eq, batchTdi, h.index, Int.toNat_natCast]
  refine buffer_ext (by simp) fun j _ => ?_
  rw [bitAt_orBits _ _ (by rw [length_orBits, List.length_replicate]; omega), bitAt_orBits_zeros _ (by omega),
    bitAt_orBits_zeros _ (by rw [kFrameBits]; omega)]
  by_cases hj : k ≤ j ∧ j < k + kFrameBits
  · obtain ⟨i, rfl⟩ : ∃ i, j = k + i := ⟨j - k, by omega⟩
    have hi : i < 37 := by have := hj.2; rw [kFrameBits] at this; omega
    rw [Nat.add_sub_cancel_left, bitAt_frameTdi _ _ hi]
    by_cases h5 : i < 5
    · simp [h5, show i < kFrameBits from hi]
    · have hdata : bitAt (data32Of dataBits tdi) (i - 5) = (decide (i - 5 < dataBits) && bitAt tdi (i - 5)) := by
        rw [data32Of, bitAt_orBits _ _ (by simpa using hbits)]
        have hzero : bitAt ([0, 0, 0, 0] : List Byte) (i - 5) = false := bitAt_replicate_zero 4 _
        rw [hzero]
        simp
      have hsame : decide (k + i < k + 5 + dataBits) = decide (i - 5 < dataBits) := decide_eq_decide.mpr (by omega)
      have hopcode : decide (k + i < k + 5) = false := decide_eq_false (by omega)
      have hfrom : decide (k + 5 ≤ k + i) = true := decide_eq_true (by omega)
      have hframe : decide (k + i < k + kFrameBits) = true := decide_eq_true hj.2
      rw [if_neg h5, hdata, show k + i - (k + 5) = i - 5 by omega, hsame, hopcode, hfrom, hframe,
        decide_eq_true (Nat.le_add_right k i)]
      rfl
  · rw [kFrameBits] at hj ⊢
    have h₁ : (decide (k ≤ j) && decide (j < k + 5)) = false := by simp; omega
    have h₂ : (decide (k + 5 ≤ j) && decide (j < k + 5 + dataBits)) = false := by simp; omega
    have h₃ : (decide (k ≤ j) && decide (j < k + 37)) = false := by simp; omega
    rw [h₁, h₂, h₃]
    rfl

/-- At rest the hardware is where it has been clocked to. -/
theorem OnChain.clockedTo_self (h : OnChain k b) : b.clockedTo b.chain.tap.device = b := by
  rw [clockedTo, ← h.rest.idle]

/-- One scan from RUN-TEST/IDLE returns the data bits of what comes out, and leaves the chain at rest. -/
theorem OnChain.doRawFrameShift (h : OnChain k b) (data32 : List Byte) :
    ∃ d, BscaneIlaTapBackend.doRawFrameShift T data32 b =
        some ((true, scanData b.dataStart 32 5
          (packBits (repeatSamples T b.chain.tap.device.link.port (b.scanTdi data32) b.totalDr))), b.clockedTo d) ∧
      OnChain k (b.clockedTo d) ∧
      FtdiDevice.Clocked T b.chain.tap.device d (repeatPins (b.scanTdi data32) b.totalDr) := by
  have htotal := h.totalDr_eq
  have hk := h.range
  rw [kFrameBits] at htotal
  have hlen : bytesFor b.totalDr ≤ (b.scanTdi data32).length := by
    rw [h.scanTdi_eq, length_orBits, List.length_replicate]
    rfl
  obtain ⟨d, e, hsynced, hclocked, hdelivers⟩ :=
    TapController.shiftDR_delivered (T := T) (by omega) hlen h.rest.synced h.rest.delivers
  rw [h.rest.idle] at hclocked
  have hcall : onTap (TapController.shiftDR T (some (b.scanTdi data32)) [] b.totalDr) b =
      some ((true, packBits (repeatSamples T b.chain.tap.device.link.port (b.scanTdi data32) b.totalDr)),
        b.clockedTo d) := by
    rw [TapController.trackSamples, h.rest.idle] at e
    exact Method.on_of_eq _ (JtagChain.onTap_of_eq e)
  refine ⟨d, ?_, ⟨⟨hsynced, rfl, hdelivers⟩, h.index, h.range⟩, hclocked⟩
  have hroom : ¬8 * (packBits (repeatSamples T b.chain.tap.device.link.port (b.scanTdi data32) b.totalDr)).length <
      b.dataStart + 32 := by
    have hbytes := le_bytesFor b.totalDr
    rw [length_packBits, length_repeatSamples _ _ (by omega), dataStart, h.index, Int.toNat_natCast]
    omega
  show ((onTap (TapController.shiftDR T (some (b.scanTdi data32)) [] b.totalDr)) >>= _) b = _
  rw [Method.bind_of_eq _ hcall]
  simp only [if_true]
  rw [if_neg hroom]
  rfl

/-- The cycles of the priming scan, if there is one. -/
def primePins (b : BscaneIlaTapBackend σ) : List Pins :=
  if b.storedIrInHw ≠ b.pendingIr then repeatPins (b.scanTdi [0, 0, 0, 0]) b.totalDr else []

/-- The cycles of so many reads: the priming scan, and the frame as often. -/
def readPins (b : BscaneIlaTapBackend σ) (dataBits : ℕ) (tdi : List Byte) : ℕ → List Pins
  | 0 => []
  | count + 1 => b.primePins ++ batchPins (b.batchTdi dataBits tdi) b.totalDr (count + 1)

/-- Once it has been primed, the cache holds the pending opcode. -/
theorem OnChain.prime (h : OnChain k b) :
    ∃ d, BscaneIlaTapBackend.prime T b = some (true, b.primedTo d) ∧
      OnChain k (b.primedTo d) ∧
      FtdiDevice.Clocked T b.chain.tap.device d b.primePins := by
  by_cases hstale : b.storedIrInHw ≠ b.pendingIr
  · obtain ⟨d, e, hchain, hclocked⟩ := h.doRawFrameShift (T := T) [0, 0, 0, 0]
    refine ⟨d, ?_, ⟨hchain.rest, hchain.index, hchain.range⟩, ?_⟩
    · rw [BscaneIlaTapBackend.prime, if_pos hstale, Method.bind_of_eq _ e]
      rfl
    · rw [primePins, if_pos hstale]
      exact hclocked
  · have hsame : b.primedTo b.chain.tap.device = b := by
      rw [primedTo, h.clockedTo_self]
      exact congrArg (fun cache => { b with storedIrInHw := cache }) (not_not.mp hstale).symm
    refine ⟨b.chain.tap.device, ?_, by rwa [hsame], ?_⟩
    · rw [hsame, BscaneIlaTapBackend.prime, if_neg hstale]
    · rw [primePins, if_neg hstale]
      exact .refl _

variable {drBits : ℕ} {tdi : List Byte}

/-- A read whose opcode the hardware holds is one scan. -/
theorem OnChain.shiftDr (h : OnChain k b) (hp : b.storedIrInHw = b.pendingIr) (htdi : min drBits 32 ≤ 8 * tdi.length) :
    ∃ d, BscaneIlaTapBackend.shiftDr T drBits tdi b =
        some ((true, scanData b.dataStart (min drBits 32) ((drBits + 7) / 8) (packBits
          (repeatSamples T b.chain.tap.device.link.port (b.batchTdi (min drBits 32) tdi) b.totalDr))), b.clockedTo d) ∧
      OnChain k (b.clockedTo d) ∧
      FtdiDevice.Clocked T b.chain.tap.device d (repeatPins (b.batchTdi (min drBits 32) tdi) b.totalDr) := by
  obtain ⟨d, e, hchain, hclocked⟩ := h.doRawFrameShift (T := T) (data32Of (min drBits 32) tdi)
  rw [← h.batchTdi_eq (Nat.min_le_right _ _)] at e hclocked
  refine ⟨d, ?_, hchain, hclocked⟩
  have hprime : BscaneIlaTapBackend.prime T b = some (true, b) := by
    rw [BscaneIlaTapBackend.prime, if_neg (not_not.mpr hp)]
  have hcache : { b.clockedTo d with storedIrInHw := b.pendingIr } = b.clockedTo d := by
    rw [← hp]
    rfl
  rw [BscaneIlaTapBackend.shiftDr, Method.bind_of_eq _ hprime]
  simp only [if_true]
  rw [if_neg (by omega)]
  show (BscaneIlaTapBackend.doRawFrameShift T (data32Of (min drBits 32) tdi) >>= _) b = _
  rw [Method.bind_of_eq _ e]
  show some ((true, orBits _ 0 (min drBits 32) _), { b.clockedTo d with storedIrInHw := b.pendingIr }) = _
  rw [hcache]
  refine congrArg (fun out => some ((true, out), b.clockedTo d)) (orBits_congr _ _ fun i hi => ?_)
  have hi32 : i < 32 := Nat.lt_of_lt_of_le hi (Nat.min_le_right _ _)
  rw [scanData, bitAt_orBits_zeros _ (by decide), Nat.sub_zero]
  simp [hi32]

/-- The first scan of a batch, and the others. -/
theorem unpackScans_succ {raw rest : List Byte} {rawBytes outBytes dataStart dataBits count : ℕ} (hraw : raw.length = rawBytes)
    (hroom : dataStart + dataBits ≤ 8 * rawBytes) :
    unpackScans (raw ++ rest) rawBytes outBytes dataStart dataBits (count + 1) =
      scanData dataStart dataBits outBytes raw ++ unpackScans rest rawBytes outBytes dataStart dataBits count := by
  rw [unpackScans, List.range_succ_eq_map, List.map_cons, List.flatten_cons, List.map_map]
  congr 1
  · refine orBits_congr _ _ fun j hj => ?_
    rw [Nat.zero_mul, List.drop_zero, bitAt_append_left _ _ (by omega)]
  · refine congrArg List.flatten (List.map_congr_left fun i _ => ?_)
    have hdrop : (raw ++ rest).drop ((i + 1) * rawBytes) = rest.drop (i * rawBytes) := by
      rw [Nat.add_mul, Nat.one_mul, Nat.add_comm, ← List.drop_drop, ← hraw, List.drop_left]
    show orBits (fun j => bitAt ((raw ++ rest).drop ((i + 1) * rawBytes)) (dataStart + j)) 0 dataBits _ = _
    rw [hdrop]

/-- The loop, once the hardware holds the opcode: as many scans, and the data of each. -/
theorem OnChain.shiftDrLoop (h : OnChain k b) (hp : b.storedIrInHw = b.pendingIr) (htdi : min drBits 32 ≤ 8 * tdi.length)
    (count : ℕ) (flatTdo : List Byte) :
    ∃ d, IlaTapBackend.shiftDrLoop (BscaneIlaTapBackend.shiftDr T drBits tdi) ((drBits + 7) / 8) count flatTdo b =
        some ((true, flatTdo ++ unpackScans
          (repeatResult T (b.batchTdi (min drBits 32) tdi) b.totalDr count b.chain.tap.device.link.port)
          (bytesFor b.totalDr) ((drBits + 7) / 8) b.dataStart (min drBits 32) count), b.clockedTo d) ∧
      FtdiDevice.Clocked T b.chain.tap.device d (batchPins (b.batchTdi (min drBits 32) tdi) b.totalDr count) := by
  have htotal := h.totalDr_eq
  have hk := h.range
  have hroom : b.dataStart + min drBits 32 ≤ 8 * bytesFor b.totalDr := by
    have hbytes := le_bytesFor b.totalDr
    rw [kFrameBits] at htotal
    rw [dataStart, h.index, Int.toNat_natCast]
    omega
  induction count generalizing b flatTdo with
  | zero =>
    refine ⟨b.chain.tap.device, ?_, .refl _⟩
    rw [h.clockedTo_self]
    exact congrArg (fun out => some ((true, out), b)) (List.append_nil _).symm
  | succ count ih =>
    obtain ⟨d₁, e₁, hchain₁, hclocked₁⟩ := h.shiftDr (T := T) hp htdi
    obtain ⟨d₂, e₂, hclocked₂⟩ := ih hchain₁ hp (flatTdo ++ scanData b.dataStart (min drBits 32) ((drBits + 7) / 8) (packBits
      (repeatSamples T b.chain.tap.device.link.port (b.batchTdi (min drBits 32) tdi) b.totalDr))) htotal hk hroom
    refine ⟨d₂, ?_, ?_⟩
    · rw [IlaTapBackend.shiftDrLoop, Method.bind_of_eq _ e₁]
      have hlen : (scanData b.dataStart (min drBits 32) ((drBits + 7) / 8) (packBits
          (repeatSamples T b.chain.tap.device.link.port (b.batchTdi (min drBits 32) tdi) b.totalDr))).length =
          (drBits + 7) / 8 := by rw [scanData, length_orBits, List.length_replicate]
      simp only [if_true]
      have hport : (b.clockedTo d₁).chain.tap.device.link.port = b.chain.tap.device.link.port.run T
          (repeatPins (b.batchTdi (min drBits 32) tdi) b.totalDr) := hclocked₁.port
      have hraw : (packBits (repeatSamples T b.chain.tap.device.link.port (b.batchTdi (min drBits 32) tdi)
          b.totalDr)).length = bytesFor b.totalDr := by
        rw [length_packBits, length_repeatSamples _ _ (by rw [htotal, kFrameBits]; omega)]
      rw [if_neg (by omega), List.take_of_length_le (by omega), e₂, repeatResult, unpackScans_succ hraw hroom, hport,
        List.append_assoc]
      rfl
    · rw [batchPins_succ]
      exact hclocked₁.trans hclocked₂

theorem length_repeatResult (buf : List Byte) {n : ℕ} (hn : 1 ≤ n) (count : ℕ) (p : Port σ) :
    (repeatResult T buf n count p).length = count * bytesFor n := by
  induction count generalizing p with
  | zero => rw [repeatResult, Nat.zero_mul, List.length_nil]
  | succ count ih => rw [repeatResult, List.length_append, ih, length_packBits, length_repeatSamples _ _ hn, Nat.succ_mul, Nat.add_comm]

/-- The batch: the priming scan, if there is one, and as many scans. -/
theorem OnChain.shiftDrBatch (h : OnChain k b) (htdi : min drBits 32 ≤ 8 * tdi.length) (count : ℕ) :
    ∃ tap, BscaneIlaTapBackend.shiftDrBatch T (count + 1 : ℕ) drBits tdi b =
        some ((true, unpackScans (repeatResult T (b.batchTdi (min drBits 32) tdi) b.totalDr (count + 1)
            (b.chain.tap.device.link.port.run T b.primePins))
          (bytesFor b.totalDr) ((drBits + 7) / 8) b.dataStart (min drBits 32) (count + 1)),
          { b with chain := { b.chain with tap }, storedIrInHw := b.pendingIr }) ∧
      tap.state = .runTestIdle ∧
      FtdiDevice.Clocked T b.chain.tap.device tap.device (b.readPins (min drBits 32) tdi (count + 1)) := by
  have htotal := h.totalDr_eq
  have hk := h.range
  rw [kFrameBits] at htotal
  have hroom : b.dataStart + min drBits 32 ≤ 8 * ((b.totalDr + 7) / 8) := by
    rw [dataStart, h.index, Int.toNat_natCast]
    omega
  have hlen : bytesFor b.totalDr ≤ (b.batchTdi (min drBits 32) tdi).length := by
    rw [batchTdi, length_orBits, length_orBits, List.length_replicate]
    rfl
  obtain ⟨d₁, e₁, h₁, hclocked₁⟩ := h.prime (T := T)
  obtain ⟨ok, out, scans, d₂, err, e₂, -, hclocked₂, -, hok, hdel⟩ := TapController.shiftDRRepeat_spec (T := T)
    (show 1 ≤ b.totalDr by omega) hlen (Nat.succ_ne_zero count) h₁.rest.synced.waits h₁.rest.delivers.noCut
    h₁.rest.delivers.quiet
  obtain ⟨rfl, -⟩ := hdel h₁.rest.delivers
  obtain ⟨rfl, rfl⟩ := hok rfl
  have hcall : onTap (TapController.shiftDRRepeat T (count + 1) b.totalDr (some (b.batchTdi (min drBits 32) tdi)))
      (b.primedTo d₁) = _ := Method.on_of_eq _ (JtagChain.onTap_of_eq e₂)
  have hport : d₁.link.port = b.chain.tap.device.link.port.run T b.primePins := hclocked₁.port
  refine ⟨⟨d₂, .runTestIdle, err⟩, ?_, rfl, ?_⟩
  · rw [BscaneIlaTapBackend.shiftDrBatch, if_neg (by omega)]
    dsimp only
    rw [if_neg (by omega), Method.bind_of_eq _ e₁]
    simp only [if_true]
    show ((onTap (TapController.shiftDRRepeat T (count + 1) b.totalDr (some (b.batchTdi (min drBits 32) tdi)))) >>= _) _ = _
    rw [Method.bind_of_eq _ hcall]
    simp only [if_true]
    have hflat := length_repeatResult (T := T) (b.batchTdi (min drBits 32) tdi) (show 1 ≤ b.totalDr by omega) (count + 1)
      d₁.link.port
    rw [bytesFor] at hflat
    show (if (repeatResult T (b.batchTdi (min drBits 32) tdi) b.totalDr (count + 1) d₁.link.port).length <
      (count + 1) * ((b.totalDr + 7) / 8) then _ else _ : Method (BscaneIlaTapBackend σ) _) _ = _
    rw [if_neg (by omega), ← hport]
    rfl
  · exact hclocked₁.trans hclocked₂

/-- The FPGA behind another device, with any hardware. -/
def behind : BscaneIlaTapBackend Unit :=
  .create { tap := TapController.knowing .runTestIdle, devices := [⟨0, 0x4BA00477, 4, [], none⟩, ⟨1, 0x13722093, 6, [], none⟩], lastError := "" }
    (1 : ℕ) 2

end BscaneIlaTapBackend

end OwlTap.Ila
