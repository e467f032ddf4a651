import OwlTap.Base.SpiBridge
import OwlTap.Config.BitDelivery
import OwlTap.Flash.FlashJtagBridge

/-!
# What a transaction puts on the wire

The flash sees a transaction as one assertion of chip select. Its bits on MOSI are a 0 for each
other device on the chain, and then the bytes sent; and the bytes received are what was on MISO
from the first clock on. So what is sent is what the flash sees only where the target is the only
device (`transfer_framed_iff`).
-/

namespace OwlTap.Flash

open OwlTap Ftdi Jtag Config

variable {φ : Type} (F : SpiDevice φ)

/-! ### The bridge during a scan -/

/-- A scan of the instruction registers does not reach the flash. -/
theorem run_scanIr (b : Bridge φ) (buf : List Byte) {n : ℕ} (hn : 1 ≤ n) :
    ((⟨.runTestIdle, b⟩ : Port (Bridge φ)).run (Target.bridge F) (TapController.scanTrack .runTestIdle .ir buf n)).target =
      b := by
  refine Bridge.run_quiet F fun s hs => ?_
  have hway : TapState.run .runTestIdle (tmsPath .runTestIdle .shiftIr) = .shiftIr := by decide +kernel
  have hend : TapState.run .shiftIr ((scanPins buf n).map Pins.tms) = .exit1Ir := TapController.run_scanPins .ir buf n
  rw [TapController.scanTrack, List.map_append, List.map_append, map_tms_pathPins, map_tms_pathPins,
    TapState.visits_append, TapState.visits_append] at hs
  simp only [Register.shift, Register.exit1] at hs
  rw [hway, hend, TapController.visits_scanPins (.inr rfl) buf hn, List.mem_append, List.mem_append,
    List.mem_replicate] at hs
  obtain hs | hs | hs := hs
  · revert hs
    revert s
    decide +kernel
  · rw [hs.2]
    decide
  · revert hs
    revert s
    decide +kernel

/-- A scan of data from RUN-TEST/IDLE is one assertion of chip select. -/
theorem run_scanDr (b : Bridge φ) (buf : List Byte) {n : ℕ} (hn : 1 ≤ n) :
    (((⟨.runTestIdle, b⟩ : Port (Bridge φ)).run (Target.bridge F) (pathPins .runTestIdle .shiftDr)).cycles (Target.bridge F)
        (scanPins buf n)).map Cycle.tdo = ((b.capture.assert F).shifts F (bits buf n)).2 ∧
      (⟨.runTestIdle, b⟩ : Port (Bridge φ)).run (Target.bridge F) (TapController.scanTrack .runTestIdle .dr buf n) =
        ⟨.runTestIdle, ((b.capture.assert F).shifts F (bits buf n)).1.release F⟩ := by
  have hway : pathPins .runTestIdle .shiftDr = [⟨true, false⟩, ⟨false, false⟩, ⟨false, false⟩] := by decide +kernel
  have hback : pathPins .exit1Dr .runTestIdle = [⟨true, false⟩, ⟨false, false⟩] := by decide +kernel
  have hstart : (⟨.runTestIdle, b⟩ : Port (Bridge φ)).run (Target.bridge F) (pathPins .runTestIdle .shiftDr) =
      ⟨.shiftDr, b.capture.assert F⟩ := by
    rw [hway]
    rfl
  have hbits : bits buf n = bits buf (n - 1) ++ [bitAt buf (n - 1)] := by
    obtain ⟨m, rfl⟩ : ∃ m, n = m + 1 := ⟨n - 1, by omega⟩
    rw [Nat.add_sub_cancel, bits_succ]
  obtain ⟨hout, hrun⟩ := Bridge.run_shifts F (b.capture.assert F) (bits buf (n - 1)) (bitAt buf (n - 1))
  rw [← hbits] at hout hrun
  refine ⟨?_, ?_⟩
  · rw [hstart]
    exact hout
  · rw [TapController.scanTrack, Port.run_append, Port.run_append]
    simp only [Register.shift, Register.exit1]
    rw [hstart, scanPins, hrun, hback]
    rfl

/-- What the other devices put on MOSI before the bits. -/
theorem mosi_capture (b : Bridge φ) (xs : List Bool) :
    (b.capture.assert F).mosi xs = (List.replicate b.behind.length false ++ xs).take xs.length := by
  have hbehind : (b.behind.map fun _ => [false]).flatten = List.replicate b.behind.length false := by
    rw [List.map_const', List.flatten_replicate_singleton]
  rw [Bridge.mosi, ← hbehind]
  rfl

/-- And what they put on TDO before MISO. -/
theorem outs_capture (b : Bridge φ) (xs : List Bool) :
    ((b.capture.assert F).shifts F xs).2 =
      (List.replicate b.ahead.length false ++ (b.capture.assert F).miso F xs).take xs.length := by
  have hahead : (b.ahead.map fun _ => [false]).flatten = List.replicate b.ahead.length false := by
    rw [List.map_const', List.flatten_replicate_singleton]
  rw [Bridge.outs_shifts, ← hahead]
  rfl

/-! ### The buffers -/

theorem lsbFirst_reverseByte (b : Byte) : lsbFirst (reverseByte b) = msbFirst b := lsbFirst_bitReverseByte b

theorem msbFirst_reverseByte (b : Byte) : msbFirst (reverseByte b) = lsbFirst b := by
  rw [msbFirst, lsbFirst_reverseByte, msbFirst, List.reverse_reverse]

theorem getLsbD_reverseByte (b : Byte) {k : ℕ} (hk : k < 8) : (reverseByte b).getLsbD k = (msbFirst b).getD k false := by
  rw [← lsbFirst_reverseByte, List.getD_eq_getElem _ _ (by rwa [length_lsbFirst])]
  simp [lsbFirst]

/-- Packing ors the bits of the bytes in, from their place on. -/
theorem packTx_spec (bypassBefore : ℕ) (tx : List Byte) (i : ℕ) (tdi : List Byte)
    (hbuf : bypassBefore + 8 * (i + tx.length) ≤ 8 * tdi.length) (hint : bypassBefore + 8 * (i + tx.length) < 2 ^ 31 + 1) :
    ∃ buf, packTx bypassBefore i tx tdi = some buf ∧ buf.length = tdi.length ∧ ∀ j, bitAt buf j =
      (bitAt tdi j || (decide (bypassBefore + 8 * i ≤ j) && (tx.flatMap msbFirst).getD (j - (bypassBefore + 8 * i)) false)) := by
  induction tx generalizing i tdi with
  | nil => exact ⟨tdi, rfl, rfl, by simp⟩
  | cons b tx ih =>
    rw [List.length_cons] at hbuf hint
    have hguard : ¬(2 ^ 31 ≤ bypassBefore + 8 * i + 7 ∨
        ∃ k < 8, (reverseByte b).getLsbD k = true ∧ 8 * tdi.length ≤ bypassBefore + 8 * i + k) := by
      rintro (h | ⟨k, hk, -, h⟩) <;> omega
    obtain ⟨buf, e, hlen, hbit⟩ := ih (i + 1) (orBits (reverseByte b).getLsbD (bypassBefore + 8 * i) 8 tdi)
      (by rw [length_orBits]; omega) (by omega)
    refine ⟨buf, ?_, hlen.trans (length_orBits _ _ _ _), fun j => ?_⟩
    · rw [packTx]
      exact (if_neg hguard).trans e
    · rw [hbit, bitAt_orBits _ _ (by omega), List.flatMap_cons, Bool.or_assoc]
      congr 1
      obtain hlt | hle := Nat.lt_or_ge j (bypassBefore + 8 * i)
      · simp [show ¬bypassBefore + 8 * i ≤ j by omega, show ¬bypassBefore + 8 * (i + 1) ≤ j by omega]
      obtain ⟨k, rfl⟩ := Nat.exists_eq_add_of_le hle
      rw [Nat.add_sub_cancel_left]
      obtain hk | hk := Nat.lt_or_ge k 8
      · rw [getLsbD_reverseByte b hk, List.getD_append _ _ _ _ (by rwa [length_msbFirst])]
        simp [hk, show ¬bypassBefore + 8 * (i + 1) ≤ bypassBefore + 8 * i + k by omega]
      · rw [List.getD_append_right _ _ _ _ (by rwa [length_msbFirst]), length_msbFirst,
          show bypassBefore + 8 * i + k - (bypassBefore + 8 * (i + 1)) = k - 8 by omega]
        simp [show ¬k < 8 by omega, show bypassBefore + 8 * (i + 1) ≤ bypassBefore + 8 * i + k by omega]

/-- Packed into a buffer of zeros, the bytes stand between zeros. -/
theorem bits_packTx {bypassBefore bypassAfter : ℕ} {tx : List Byte} {n : ℕ}
    (hn : n = bypassBefore + 8 * tx.length + bypassAfter) (hint : n < 2 ^ 31) :
    ∃ buf, packTx bypassBefore 0 tx (List.replicate (bytesFor n) 0) = some buf ∧ buf.length = bytesFor n ∧
      bits buf n = List.replicate bypassBefore false ++ (tx.flatMap msbFirst ++ List.replicate bypassAfter false) := by
  have hle := le_bytesFor n
  obtain ⟨buf, e, hlen, hbit⟩ := packTx_spec bypassBefore tx 0 (List.replicate (bytesFor n) 0)
    (by rw [List.length_replicate]; omega) (by omega)
  rw [List.length_replicate] at hlen
  refine ⟨buf, e, hlen, List.ext_getElem ?_ fun j h₁ h₂ => ?_⟩
  · rw [length_bits, hn, List.length_append, List.length_append, List.length_replicate, List.length_replicate,
      length_flatMap_msbFirst, Nat.add_assoc]
  · have hzero : bitAt (List.replicate (bytesFor n) (0 : Byte)) j = false := bitAt_replicate_zero _ j
    rw [getElem_bits, hbit, hzero, Bool.false_or, Nat.mul_zero, Nat.add_zero, ← List.getD_eq_getElem _ false h₂]
    obtain hlt | hle := Nat.lt_or_ge j bypassBefore
    · rw [List.getD_append _ _ _ _ (by rwa [List.length_replicate])]
      simp [hlt, Nat.not_le.mpr hlt]
    · rw [List.getD_append_right _ _ _ _ (by rwa [List.length_replicate]), List.length_replicate]
      simp only [hle, decide_true, Bool.true_and]
      obtain hlt | hge := Nat.lt_or_ge (j - bypassBefore) (tx.flatMap msbFirst).length
      · rw [List.getD_append _ _ _ _ hlt]
      · rw [List.getD_append_right _ _ _ _ hge, List.getD_eq_default _ _ hge]
        simp

/-! ### What is received -/

theorem getLsbD_packed (tdo : List Byte) (base : ℕ) {k : ℕ} (hk : k < 8) :
    (packed tdo base).getLsbD k = bitAt tdo (base + k) := by
  have h : ∀ n, ((List.range n).foldl (fun acc b => if bitAt tdo (base + b) then acc ||| 1#8 <<< b else acc) 0).getLsbD k =
      (decide (k < n) && bitAt tdo (base + k)) := by
    intro n
    induction n with
    | zero => simp
    | succ n ih =>
      rw [List.range_succ, List.foldl_append, List.foldl_cons, List.foldl_nil]
      cases hbit : bitAt tdo (base + n)
      · rw [if_neg (by simp), ih]
        obtain rfl | hne := eq_or_ne k n
        · simp [hbit]
        · rw [show decide (k < n + 1) = decide (k < n) from decide_eq_decide.mpr (by omega)]
      · rw [if_pos rfl, BitVec.getLsbD_or, ih, getLsbD_one_shiftLeft hk]
        obtain rfl | hne := eq_or_ne k n
        · simp [hbit]
        · rw [show decide (k < n + 1) = decide (k < n) from decide_eq_decide.mpr (by omega)]
          simp [hne]
  rw [packed, h 8]
  simp [hk]

theorem lsbFirst_packed (tdo : List Byte) (base : ℕ) :
    lsbFirst (packed tdo base) = (List.range 8).map fun k => bitAt tdo (base + k) :=
  List.map_congr_left fun _ hk => getLsbD_packed tdo base (List.mem_range.mp hk)

/-- A part of a buffer that holds a string of bits. -/
theorem map_bitAt_packBits {r : List Bool} {k m : ℕ} (h : k + m ≤ r.length) :
    (List.range m).map (fun j => bitAt (packBits r) (k + j)) = (r.drop k).take m := by
  refine List.ext_getElem ?_ fun i h₁ h₂ => ?_
  · rw [List.length_map, List.length_range, List.length_take, List.length_drop]
    omega
  · rw [List.length_map, List.length_range] at h₁
    rw [List.getElem_map, List.getElem_range, bitAt_packBits, List.getD_eq_getElem _ _ (by omega), List.getElem_take,
      List.getElem_drop]

/-- The bits received, most significant first. -/
theorem unpackRx_spec {bypassBefore n : ℕ} {tdo : List Byte} (h : bypassBefore + 8 * n ≤ 8 * tdo.length) :
    ∃ rx, unpackRx bypassBefore n tdo = some rx ∧
      rx.flatMap msbFirst = (List.range (8 * n)).map fun j => bitAt tdo (bypassBefore + j) := by
  refine ⟨_, if_neg (by omega), ?_⟩
  clear h
  induction n with
  | zero => rfl
  | succ n ih =>
    rw [List.range_succ, List.map_append, List.flatMap_append, ih, Nat.mul_succ, List.range_add, List.map_append,
      List.map_map, List.map_singleton, List.flatMap_singleton, msbFirst_reverseByte, lsbFirst_packed]
    congr 1

/-! ### A transaction -/

namespace FlashJtagBridge

/-- The chain with the bridge. -/
def wires (b : FlashJtagBridge (Bridge φ)) : Bridge φ := b.chain.tap.device.link.port.target

/-- A bridge on a chain at rest that the host knows. -/
structure Attached (b : FlashJtagBridge (Bridge φ)) : Prop where
  /-- The chain is at rest. -/
  rest : b.chain.tap.AtRest
  /-- The instruction registers have 1 to 32 bits. -/
  widths : ∀ dev ∈ b.chain.devices, 1 ≤ dev.irLength ∧ dev.irLength ≤ 32
  /-- The target is the device with the bridge. -/
  index : b.deviceIndex = b.wires.ahead.length
  /-- The host knows how many devices there are. -/
  count : b.chain.devices.length = b.wires.ahead.length + 1 + b.wires.behind.length

variable {F} {b : FlashJtagBridge (Bridge φ)}

theorem Attached.before (h : Attached b) : b.bypassCount (fun i k => decide (i < k)) = b.wires.ahead.length := by
  rw [bypassCount, h.count, Nat.add_assoc, List.range_add, List.filter_append, List.length_append, h.index,
    List.filter_eq_self.mpr, List.filter_eq_nil_iff.mpr]
  · simp
  · intro i hi
    obtain ⟨j, -, rfl⟩ := List.mem_map.mp hi
    rw [decide_eq_true_iff]
    omega
  · intro i hi
    rw [List.mem_range] at hi
    rw [decide_eq_true_iff]
    omega

theorem Attached.after (h : Attached b) : b.bypassCount (fun i k => decide (k < i)) = b.wires.behind.length := by
  rw [bypassCount, h.count, List.range_add, List.filter_append, List.length_append, h.index,
    List.filter_eq_nil_iff.mpr, List.filter_eq_self.mpr]
  · simp
  · intro i hi
    obtain ⟨j, -, rfl⟩ := List.mem_map.mp hi
    rw [decide_eq_true_iff]
    omega
  · intro i hi
    rw [List.mem_range] at hi
    rw [decide_eq_true_iff]
    omega

/-- With USER1 loaded, the flash and what is around it is as before. -/
theorem Attached.selectUser1 (h : Attached b) :
    ∃ b', FlashJtagBridge.selectUser1 (Target.bridge F) b = some (true, b') ∧ Attached b' ∧ b'.wires = b.wires := by
  by_cases hsel : b.user1Selected = true
  · exact ⟨b, by rw [FlashJtagBridge.selectUser1, if_pos hsel], h, rfl⟩
  have hk : b.wires.ahead.length < b.chain.devices.length := by
    rw [h.count]
    omega
  obtain ⟨d, buf, e, hs, hd, -, hpos, hclk⟩ :=
    JtagChain.selectInstruction_delivered (T := Target.bridge F) h.rest.synced h.rest.delivers h.widths hk kUser1Ir
  rw [← h.index] at e
  have hwires : d.link.port.target = b.wires := by
    have hport : b.chain.tap.device.link.port = ⟨.runTestIdle, b.wires⟩ :=
      congrArg (Port.mk · _) (h.rest.synced.state.trans h.rest.idle)
    rw [hclk.port, h.rest.idle, hport]
    exact run_scanIr F b.wires buf hpos
  refine ⟨{ b with
    chain := { b.chain with tap := ⟨d, .runTestIdle, b.chain.tap.lastError⟩ }
    user1Selected := true }, ?_, ⟨⟨hs, rfl, hd⟩, h.widths, ?_, ?_⟩, hwires⟩
  · rw [FlashJtagBridge.selectUser1, if_neg hsel]
    have e' : onChain (JtagChain.selectInstruction (Target.bridge F) b.deviceIndex kUser1Ir) b = some (true, _) :=
      Method.on_of_eq _ e
    rw [Method.bind_of_eq _ e']
    rfl
  · show b.deviceIndex = (d.link.port.target.ahead.length : ℤ)
    rw [hwires, h.index]
  · show b.chain.devices.length = d.link.port.target.ahead.length + 1 + d.link.port.target.behind.length
    rw [hwires, h.count]

/-- The bits on MOSI in a transaction: a 0 for each other device, and then the bytes. -/
def wireBits (b : FlashJtagBridge (Bridge φ)) (tx : List Byte) : List Bool :=
  List.replicate (b.wires.behind.length + b.wires.ahead.length) false ++ tx.flatMap msbFirst

/-- And those on MISO. -/
def wireAnswers (F : SpiDevice φ) (b : FlashJtagBridge (Bridge φ)) (tx : List Byte) : List Bool :=
  F.answers (F.select b.wires.peripheral) (b.wireBits tx)

theorem length_wireBits (b : FlashJtagBridge (Bridge φ)) (tx : List Byte) :
    (b.wireBits tx).length = b.wires.ahead.length + 8 * tx.length + b.wires.behind.length := by
  rw [wireBits, List.length_append, List.length_replicate, length_flatMap_msbFirst]
  omega

theorem length_wireAnswers (b : FlashJtagBridge (Bridge φ)) (tx : List Byte) :
    (b.wireAnswers F tx).length = b.wires.ahead.length + 8 * tx.length + b.wires.behind.length := by
  rw [wireAnswers, SpiDevice.length_answers, length_wireBits]

/-- What is shifted in becomes what is on MOSI. -/
theorem mosi_wires (b : FlashJtagBridge (Bridge φ)) {tx : List Byte} {xs : List Bool}
    (hxs : xs = List.replicate b.wires.ahead.length false ++
      (tx.flatMap msbFirst ++ List.replicate b.wires.behind.length false)) :
    (b.wires.capture.assert F).mosi xs = b.wireBits tx := by
  have hsplit : List.replicate b.wires.behind.length false ++ xs =
      b.wireBits tx ++ List.replicate b.wires.behind.length false := by
    rw [hxs, wireBits, List.replicate_add, List.append_assoc, List.append_assoc]
  have hlen : xs.length = (b.wireBits tx).length := by
    rw [length_wireBits, hxs, List.length_append, List.length_append, List.length_replicate, List.length_replicate,
      length_flatMap_msbFirst, Nat.add_assoc]
  rw [mosi_capture, hsplit, hlen, List.take_left]

/-- The scan of a transaction, with its counts computed. -/
theorem Attached.shiftTx_eq (h : Attached b) {tx tdi : List Byte} (rx : List Byte) {n : ℕ}
    (hn : n = b.wires.ahead.length + 8 * tx.length + b.wires.behind.length) (hint : n + 7 < 2 ^ 31)
    (hpack : packTx b.wires.ahead.length 0 tx (List.replicate (bytesFor n) 0) = some tdi) :
    FlashJtagBridge.shiftTx (Target.bridge F) tx rx b =
      (do
        let (ok, tdo) ← onChain (JtagChain.onTap (TapController.shiftDR (Target.bridge F) (some tdi) [] n))
        if ok then fun b' => (unpackRx b.wires.ahead.length tx.length tdo).map fun rx => ((true, rx), b')
        else fail (fun b => "shiftDR: " ++ b.chain.tap.lastError) (false, rx) :
          Method (FlashJtagBridge (Bridge φ)) (Bool × List Byte)) b := by
  have hdata : toInt tx.length * 8 = ((8 * tx.length : ℕ) : ℤ) := by
    rw [toInt_of_lt (by omega)]
    omega
  have htotal : (b.wires.ahead.length : ℤ) + ((8 * tx.length : ℕ) : ℤ) + (b.wires.behind.length : ℤ) = n := by
    rw [hn]
    omega
  rw [FlashJtagBridge.shiftTx]
  simp only [h.before, h.after, hdata, htotal, tdiBytes_eq, Int.toNat_natCast, hpack]
  rw [if_neg (by omega)]

/-- The scan of a transaction is one assertion of chip select. The received bytes are what was on MISO first. -/
theorem Attached.shiftTx (h : Attached b) {tx : List Byte} (htx : tx ≠ []) (rx : List Byte)
    (hint : 8 * tx.length + (b.chain.devices.length - 1) + 7 < 2 ^ 31) :
    ∃ rx' b', FlashJtagBridge.shiftTx (Target.bridge F) tx rx b = some ((true, rx'), b') ∧
      b'.wires.frames = b.wires.frames ++ [(b.wireBits tx).zip (b.wireAnswers F tx)] ∧
      rx'.flatMap msbFirst = (b.wireAnswers F tx).take (8 * tx.length) := by
  have hcount := h.count
  have hlen : 0 < tx.length := List.length_pos_iff.mpr htx
  set n := b.wires.ahead.length + 8 * tx.length + b.wires.behind.length with hn
  obtain ⟨buf, hpack, hbuf, hbits⟩ := bits_packTx hn (by omega)
  obtain ⟨d, e, hs, hclk, hd⟩ := TapController.shiftDR_delivered (T := Target.bridge F) (n := n) (by omega) hbuf.ge
    h.rest.synced h.rest.delivers
  have hport : b.chain.tap.device.link.port = ⟨.runTestIdle, b.wires⟩ :=
    congrArg (Port.mk · _) (h.rest.synced.state.trans h.rest.idle)
  obtain ⟨hout, hrun⟩ := run_scanDr F b.wires buf (n := n) (by omega)
  set samples := TapController.trackSamples (Target.bridge F) b.chain.tap .dr buf n with hsamples
  have hsam : samples = (List.replicate b.wires.ahead.length false ++ b.wireAnswers F tx).take n := by
    rw [hsamples, TapController.trackSamples, h.rest.idle, hport]
    refine hout.trans ?_
    rw [outs_capture, length_bits, Bridge.miso, mosi_wires b hbits]
    rfl
  have hsize : samples.length = n := TapController.length_trackSamples _ _ _ (by omega)
  have hlong : b.wires.ahead.length + 8 * tx.length ≤ 8 * (packBits samples).length := by
    rw [length_packBits, hsize]
    exact le_trans (by omega) (le_bytesFor n)
  obtain ⟨rx', hunpack, hrx⟩ := unpackRx_spec hlong
  refine ⟨rx', { b with chain := { b.chain with tap := ⟨d, .runTestIdle, b.chain.tap.lastError⟩ } }, ?_, ?_, ?_⟩
  · have e' : onChain (JtagChain.onTap (TapController.shiftDR (Target.bridge F) (some buf) [] n)) b =
        some ((true, packBits samples), { b with chain := { b.chain with tap := ⟨d, .runTestIdle, b.chain.tap.lastError⟩ } }) :=
      Method.on_of_eq _ (JtagChain.onTap_of_eq e)
    rw [h.shiftTx_eq rx hn (by omega) hpack, Method.bind_of_eq _ e']
    simp only [if_true, hunpack, Option.map_some]
  · show d.link.port.target.frames = _
    rw [hclk.port, h.rest.idle, hport, hrun]
    show ((b.wires.capture.assert F).shifts F (bits buf n)).1.frames ++ [_] = _
    rw [Bridge.frames_shifts, Bridge.frame_shifts, Bridge.miso, mosi_wires b hbits]
    rfl
  · rw [hrx, map_bitAt_packBits (by omega), hsam, List.drop_take, List.drop_left' (List.length_replicate ..), List.take_take,
      Nat.min_eq_left (by omega)]

/-- The positions of a long string of bytes overflow. -/
theorem packTx_eq_none (bypassBefore : ℕ) {tx : List Byte} (htx : tx ≠ []) (i : ℕ) (tdi : List Byte)
    (h : 2 ^ 31 ≤ bypassBefore + 8 * (i + tx.length - 1) + 7) : packTx bypassBefore i tx tdi = none := by
  induction tx generalizing i tdi with
  | nil => exact absurd rfl htx
  | cons b tx ih =>
    rw [packTx]
    split
    · rfl
    case isFalse hguard =>
      rw [not_or, not_le] at hguard
      refine ih ?_ (i + 1) _ ?_
      · rintro rfl
        rw [List.length_singleton] at h
        omega
      · rw [List.length_cons] at h
        omega

/-- A transaction of too many bits for an `int` is not made. -/
theorem Attached.shiftTx_eq_none (h : Attached b) {tx : List Byte} (htx : tx ≠ []) (rx : List Byte)
    (hover : 2 ^ 31 ≤ 8 * tx.length + (b.chain.devices.length - 1) + 7) :
    FlashJtagBridge.shiftTx (Target.bridge F) tx rx b = none := by
  have hcount := h.count
  rw [FlashJtagBridge.shiftTx]
  simp only [h.before, h.after]
  split
  · rfl
  case isFalse hguard =>
    have hlong : 2 ^ 28 < tx.length := by
      by_contra hshort
      rw [toInt_of_lt (by omega)] at hguard
      omega
    rw [packTx_eq_none _ htx 0 _ (by omega)]

/-- A transaction is the scan, with USER1 loaded. -/
theorem Attached.transfer_eq (h : Attached b) {tx : List Byte} (htx : tx ≠ []) (rx : List Byte) :
    ∃ b', Attached b' ∧ b'.wires = b.wires ∧
      transfer (Target.bridge F) tx rx b = FlashJtagBridge.shiftTx (Target.bridge F) tx rx b' := by
  obtain ⟨b', e, h', hwires⟩ := h.selectUser1 (F := F)
  have hindex := h.index
  have hcount := h.count
  refine ⟨b', h', hwires, ?_⟩
  rw [transfer, if_neg htx, if_neg (by omega), Method.bind_of_eq _ e]
  rfl

/-- **JTAG-to-SPI framing.** On a chain that the host knows, a transaction is made of which the flash sees on MOSI
exactly the bytes sent, most significant bit first, and returns what was on MISO meanwhile, if and only if the target
is the only device and the bits, rounded up to bytes, fit an `int`. -/
theorem transfer_framed_iff (h : Attached b) {tx : List Byte} (htx : tx ≠ []) (rx : List Byte) :
    (∃ rx' b' frame, transfer (Target.bridge F) tx rx b = some ((true, rx'), b') ∧
        b'.wires.frames = b.wires.frames ++ [frame] ∧ frame.map Prod.fst = tx.flatMap msbFirst ∧
        frame.map Prod.snd = rx'.flatMap msbFirst) ↔
      b.chain.devices.length = 1 ∧ 8 * tx.length + 7 < 2 ^ 31 := by
  obtain ⟨b₁, h₁, hwires, heq⟩ := h.transfer_eq (F := F) htx rx
  have hcount := h.count
  have hcount₁ := h₁.count
  have hsame : (b₁.wireBits tx).length = (b₁.wireAnswers F tx).length := by
    rw [length_wireBits, length_wireAnswers]
  constructor
  · rintro ⟨rx', b', frame, e, hframes, hmosi, -⟩
    have hfit : 8 * tx.length + (b₁.chain.devices.length - 1) + 7 < 2 ^ 31 := by
      by_contra hover
      rw [heq, h₁.shiftTx_eq_none htx rx (by omega)] at e
      cases e
    obtain ⟨rx₁, b'', e', hframes', -⟩ := h₁.shiftTx (F := F) htx rx hfit
    obtain rfl : b' = b'' := by
      rw [heq, e'] at e
      exact (Prod.mk.inj (Option.some.inj e)).2.symm
    rw [hframes', hwires] at hframes
    obtain rfl := List.singleton_inj.mp (List.append_cancel_left hframes)
    -- there are as many clocks as bits only if nothing else is on the chain
    have hlen := congrArg List.length hmosi
    rw [List.map_fst_zip hsame.le, length_wireBits, length_flatMap_msbFirst] at hlen
    rw [← hwires] at hcount
    omega
  · rintro ⟨hn, hfit⟩
    rw [hwires] at hcount₁
    obtain ⟨rx', b', e, hframes, hrx⟩ := h₁.shiftTx (F := F) htx rx (by omega)
    have hbits : b₁.wireBits tx = tx.flatMap msbFirst := by
      rw [wireBits, hwires, show b.wires.behind.length + b.wires.ahead.length = 0 by omega, List.replicate_zero, List.nil_append]
    refine ⟨rx', b', _, heq.trans e, hwires ▸ hframes, ?_, ?_⟩
    · rw [List.map_fst_zip hsame.le, hbits]
    · rw [List.map_snd_zip hsame.ge, hrx, List.take_of_length_le]
      rw [← hsame, hbits, length_flatMap_msbFirst]

/-- A flash that sends back what it gets. -/
def loopback : SpiDevice Unit := ⟨id, fun s x => (s, x), id⟩

/-- A bridge at rest with so many devices on either side. -/
def resting (ahead behind : ℕ) : FlashJtagBridge (Bridge Unit) where
  chain := ⟨⟨.waiting false ⟨.runTestIdle, ⟨List.replicate ahead [true], (), List.replicate behind [true], [], []⟩⟩ [],
    .runTestIdle, ""⟩, List.replicate (ahead + 1 + behind) ⟨0, 0, 6, [], none⟩, ""⟩
  deviceIndex := ahead

theorem resting_attached (ahead behind : ℕ) : (resting ahead behind).Attached where
  rest := ⟨⟨FtdiDevice.waits_waiting _ _ _, rfl, fun _ => rfl⟩, rfl, by
    simp [FtdiDevice.Delivers, resting, FtdiDevice.waiting]⟩
  widths dev hdev := by
    rw [List.eq_of_mem_replicate hdev]
    decide
  index := congrArg Nat.cast (List.length_replicate (n := ahead) (a := [true])).symm
  count := by
    show (List.replicate _ _).length = (List.replicate ahead _).length + 1 + (List.replicate behind _).length
    rw [List.length_replicate, List.length_replicate, List.length_replicate]

theorem resting_framed :
    ∃ rx' b' frame, transfer (Target.bridge loopback) [0x9F, 0] [] (resting 0 0) = some ((true, rx'), b') ∧
      b'.wires.frames = (resting 0 0).wires.frames ++ [frame] ∧ frame.map Prod.fst = [0x9F, 0].flatMap msbFirst ∧
      frame.map Prod.snd = rx'.flatMap msbFirst :=
  (transfer_framed_iff (resting_attached 0 0) (List.cons_ne_nil _ _) []).mpr ⟨rfl, by decide⟩

/-- With a device behind the target, the flash sees a 0 before the byte, and what is received is a bit late. -/
theorem resting_misframed :
    ∃ b' frame, transfer (Target.bridge loopback) [0x9F] [] (resting 0 1) = some ((true, [0x4F]), b') ∧
      b'.wires.frames = [frame] ∧ frame.map Prod.fst = false :: msbFirst 0x9F ∧
      frame.map Prod.snd = false :: msbFirst 0x9F := by
  have hrun : ((transfer (Target.bridge loopback) [0x9F] [] (resting 0 1)).map fun r => (r.1, r.2.wires.frames)) =
      some ((true, [0x4F]), [(false :: msbFirst 0x9F).map fun x => (x, x)]) := by decide +kernel
  obtain ⟨⟨r, b'⟩, e, hr⟩ := Option.map_eq_some_iff.mp hrun
  obtain ⟨rfl, hframes⟩ := Prod.mk.inj hr
  exact ⟨b', _, e, hframes, by decide, by decide⟩

end FlashJtagBridge

end OwlTap.Flash
