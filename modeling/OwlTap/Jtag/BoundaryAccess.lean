import OwlTap.Jtag.SelectInstruction

/-!
# Access to the boundary register of one device

While one device presents its boundary register and every other one a BYPASS bit, the bits of
the register are in the scan after one bit for each device nearer TDO. `writeBSR` puts them
there, and `readBSR` and `readDataDR` take them from there.
-/

namespace OwlTap.Jtag

open OwlTap Ftdi Bsdl

/-! ### Data of one device -/

/-- The parts of `n` devices: device `k` gets `b`, the others a 0 each. -/
def lanes (n k : ℕ) (b : List Bool) : List (List Bool) := (List.range n).map fun i => if i = k then b else [false]

@[simp] theorem length_lanes (n k : ℕ) (b : List Bool) : (lanes n k b).length = n := by simp [lanes]

theorem getElem_lanes {n k i : ℕ} (b : List Bool) (h : i < (lanes n k b).length) :
    (lanes n k b)[i] = if i = k then b else [false] := by
  simp [lanes]

theorem lanes_eq {n k : ℕ} (hk : k < n) (b : List Bool) :
    lanes n k b = List.replicate k [false] ++ b :: List.replicate (n - 1 - k) [false] := by
  apply List.ext_getElem
  · simp; omega
  · intro i h₁ h₂
    rw [getElem_lanes]
    rcases Nat.lt_trichotomy i k with h | rfl | h
    · rw [if_neg h.ne, List.getElem_append_left (by simpa using h), List.getElem_replicate]
    · rw [if_pos rfl, List.getElem_append_right (by simp)]
      simp
    · obtain ⟨j, rfl⟩ : ∃ j, i = k + 1 + j := ⟨i - (k + 1), by omega⟩
      rw [if_neg h.ne', List.getElem_append_right (by simp; omega)]
      simp [show k + 1 + j - k = j + 1 by omega]

theorem flatten_lanes {n k : ℕ} (hk : k < n) (b : List Bool) :
    (lanes n k b).flatten = List.replicate k false ++ b ++ List.replicate (n - 1 - k) false := by
  have hone : ∀ m, (List.replicate m [false]).flatten = List.replicate m false := fun m => by
    rw [List.flatten_replicate_singleton]
  rw [lanes_eq hk, List.flatten_append, List.flatten_cons, hone, hone, List.append_assoc]

theorem map_length_lanes (n k : ℕ) (b : List Bool) :
    (lanes n k b).map List.length = (List.range n).map fun i => if i = k then b.length else 1 := by
  rw [lanes, List.map_map]
  refine List.map_congr_left fun i _ => ?_
  simp only [Function.comp_apply]
  split <;> rfl

/-- The copying loop puts the bits of device `k` in their place. -/
theorem bits_orBits_lanes {n k : ℕ} (hk : k < n) (data : List Byte) (len : ℕ) :
    bits (orBits (bitAt data) k len (List.replicate ((len + (n - 1) + 7) / 8) 0)) (len + (n - 1)) =
      (lanes n k (bits data len)).flatten := by
  have hroom : k + len ≤ 8 * (List.replicate ((len + (n - 1) + 7) / 8) (0 : Byte)).length := by
    have := le_bytesFor (len + (n - 1))
    rw [List.length_replicate]
    unfold bytesFor at this
    omega
  rw [flatten_lanes hk]
  apply List.ext_getElem
  · simp; omega
  · intro j h₁ h₂
    have hzero : bitAt (List.replicate ((len + (n - 1) + 7) / 8) (0 : Byte)) j = false := bitAt_replicate_zero _ j
    rw [getElem_bits, bitAt_orBits _ _ hroom, hzero, Bool.false_or]
    simp only [length_bits] at h₁
    rw [← List.getD_eq_getElem _ false h₂, List.append_assoc]
    by_cases hj : j < k
    · rw [List.getD_append _ _ _ _ (by simpa using hj)]
      simp [hj]
    · rw [List.getD_append_right _ _ _ _ (by simpa using hj), List.length_replicate]
      by_cases hj' : j < k + len
      · have hlt : j - k < (bits data len).length := by rw [length_bits]; omega
        rw [List.getD_append _ _ _ _ hlt, List.getD_eq_getElem _ _ hlt, getElem_bits]
        simp [hj', Nat.le_of_not_lt hj]
      · rw [List.getD_append_right _ _ _ _ (by rw [length_bits]; omega)]
        simp [hj']

/-- Between TDI and TDO stand `len` bits of device `k` and one bit of every other. -/
def InLine (k len : ℕ) (regs : List (List Bool)) : Prop :=
  regs.map List.length = (List.range regs.length).map fun i => if i = k then len else 1

theorem InLine.length_getElem {k len : ℕ} {regs : List (List Bool)} (h : InLine k len regs) {i : ℕ}
    (hi : i < regs.length) : regs[i].length = if i = k then len else 1 := by
  have hget := congrArg (·[i]?) h
  simpa [hi] using hget

/-- The bits of device `k` come after one bit for each device before it. -/
theorem InLine.flatten_eq {k len : ℕ} {regs : List (List Bool)} (h : InLine k len regs) (hk : k < regs.length) :
    ∃ before after, regs.flatten = before ++ (regs[k] ++ after) ∧ before.length = k := by
  refine ⟨(regs.take k).flatten, (regs.drop (k + 1)).flatten, ?_, ?_⟩
  · rw [← List.flatten_cons, List.getElem_cons_drop, ← List.flatten_append, List.take_append_drop]
  · have hone : (regs.take k).map List.length = List.replicate k 1 := by
      refine List.eq_replicate_iff.mpr ⟨by simp; omega, fun n hn => ?_⟩
      obtain ⟨r, hr, rfl⟩ := List.mem_map.mp hn
      obtain ⟨j, hj, rfl⟩ := List.getElem_of_mem hr
      rw [List.length_take] at hj
      rw [List.getElem_take, h.length_getElem, if_neg (by omega)]
    rw [List.length_flatten, hone, List.sum_replicate_nat, Nat.mul_one]

theorem InLine.getD_flatten {k len : ℕ} {regs : List (List Bool)} (h : InLine k len regs) (hk : k < regs.length)
    {i : ℕ} (hi : i < len) :
    k + i < regs.flatten.length ∧ regs.flatten.getD (k + i) false = (regs[k]).getD i false := by
  obtain ⟨before, after, hflat, hlen⟩ := h.flatten_eq hk
  have hcell : i < (regs[k]).length := by rwa [h.length_getElem hk, if_pos rfl]
  constructor
  · rw [hflat, List.length_append, List.length_append]
    omega
  · rw [hflat, List.getD_append_right _ _ _ _ (by omega), hlen, Nat.add_sub_cancel_left,
      List.getD_append _ _ _ _ hcell]

namespace JtagChain

variable {δ : Type} (L : TestLogic δ) {c : JtagChain (List (Device δ))}

/-- The registers between TDI and TDO when a scan of data begins to shift: what was captured. -/
def captured (c : JtagChain (List (Device δ))) : List (List Bool) :=
  (shiftStart L c.tap.device.link.port .dr).target.map Device.reg

@[simp] theorem length_captured :
    (captured L c).length = (shiftStart L c.tap.device.link.port .dr).target.length := List.length_map _

/-- The host knows where the TAP is, that is in RUN-TEST/IDLE, and transfers go through whole. -/
abbrev Resting {σ : Type} (tap : TapController σ) : Prop :=
  tap.Synced ∧ tap.state = .runTestIdle ∧ tap.device.Delivers

/-- A scan of data for device `k`: it takes the bits `b`, and the others take a 0 each. -/
theorem scan_lane (hs : c.tap.Synced) (hd : c.tap.device.Delivers)
    (hn : c.devices.length = (captured L c).length) {k len : ℕ} (h1 : 1 ≤ len) (hline : InLine k len (captured L c))
    {buf : List Byte} (hbuf : buf.length = (len + c.bypassBits + 7) / 8) {b : List Bool} (hlen : b.length = len)
    (hbits : bits buf (len + c.bypassBits) = (lanes c.devices.length k b).flatten) (read : Bool) :
    ∃ tap, TapController.scan (Target.chain L) .dr (some buf) [] (len + c.bypassBits) read c.tap =
        some ((true, if read then packBits (captured L c).flatten else []), tap) ∧ Resting tap ∧
      tap.device.link.port.target.map Device.reg = lanes c.devices.length k b ∧
      tap.device.link.port.target.map Device.core =
        List.zipWith (L.update .dr) ((shiftStart L c.tap.device.link.port .dr).target.map Device.core)
          (lanes c.devices.length k b) := by
  obtain ⟨tap, e, hs', hi', hd', hregs, hcores, -⟩ := TapController.scan_chain L hs hd .dr
    (show 1 ≤ len + c.bypassBits by omega) (by rw [hbuf]; exact le_refl _) read hbits
    (by rw [map_length_lanes, hlen, hn]; exact hline.symm)
  exact ⟨tap, e, ⟨hs', hi', hd'⟩, hregs, hcores⟩

/-- What the two reading functions make of the TDO bytes: the bits of device `k`. -/
theorem orBits_lane {k len : ℕ} {regs : List (List Bool)} (h : InLine k len regs) (hk : k < regs.length) :
    orBits (fun b => bitAt (packBits regs.flatten) (k + b)) 0 len (List.replicate ((len + 7) / 8) 0) =
      packBits (regs.getD k []) := by
  have hlen : (regs.getD k []).length = len := by
    rw [List.getD_eq_getElem _ _ hk, h.length_getElem hk, if_pos rfl]
  have hroom : 0 + len ≤ 8 * (List.replicate ((len + 7) / 8) (0 : Byte)).length := by
    rw [List.length_replicate, Nat.zero_add]
    exact le_bytesFor len
  apply eq_packBits
  · rw [length_orBits, List.length_replicate, hlen, bytesFor]
  · intro i
    have hzero : bitAt (List.replicate ((len + 7) / 8) (0 : Byte)) i = false := bitAt_replicate_zero _ i
    rw [bitAt_orBits _ _ hroom, hzero, bitAt_packBits, Nat.sub_zero]
    by_cases hi : i < len
    · rw [(h.getD_flatten hk hi).2, List.getD_eq_getElem regs _ hk]
      simp [hi]
    · rw [List.getD_eq_default (regs.getD k []) _ (by omega)]
      simp [hi]

/-- What is shifted in by a scan that reads: zeros. -/
theorem bits_zeros_lane {n k : ℕ} (hk : k < n) (len : ℕ) :
    bits (List.replicate ((len + (n - 1) + 7) / 8) (0 : Byte)) (len + (n - 1)) =
      (lanes n k (List.replicate len false)).flatten := by
  rw [bits_replicate_zero, flatten_lanes hk, ← List.replicate_add, ← List.replicate_add]
  congr 1
  omega

/-- `readDataDR` returns what device `k` captured, and updates it with zeros. -/
theorem readDataDR_start (hs : c.tap.Synced) (hd : c.tap.device.Delivers)
    (hn : c.devices.length = (captured L c).length) {k len : ℕ} (hk : k < c.devices.length) (h1 : 1 ≤ len)
    (hline : InLine k len (captured L c)) :
    ∃ tap, readDataDR (Target.chain L) k len [] c =
        some ((true, packBits ((captured L c).getD k [])), { c with tap }) ∧ Resting tap ∧
      tap.device.link.port.target.map Device.reg = lanes c.devices.length k (List.replicate len false) ∧
      tap.device.link.port.target.map Device.core =
        List.zipWith (L.update .dr) ((shiftStart L c.tap.device.link.port .dr).target.map Device.core)
          (lanes c.devices.length k (List.replicate len false)) := by
  obtain ⟨tap, e, h⟩ := scan_lane L hs hd hn h1 hline List.length_replicate List.length_replicate
    (bits_zeros_lane hk len) true
  have e' : onTap (TapController.shiftDR (Target.chain L)
      (some (List.replicate ((len + c.bypassBits + 7) / 8) 0)) [] (len + c.bypassBits)) c =
      some ((true, packBits (captured L c).flatten), { c with tap }) := onTap_of_eq e
  refine ⟨tap, ?_, h⟩
  rw [readDataDR, deviceAt_of_lt hk]
  simp only [if_neg (show ¬len = 0 by omega), Int.toNat_natCast]
  rw [Method.bind_of_eq _ e', if_pos rfl, Method.pure_apply, orBits_lane hline (hn ▸ hk)]

/-- `readBSR` into a fresh vector does the same as `readDataDR`. -/
theorem readBSR_eq_readDataDR (T : Target (List (Device δ))) {k : ℕ} (hk : k < c.devices.length) {bsdl : BSDLDevice}
    (hb : c.devices[k].bsdl = some bsdl) (h1 : 1 ≤ bsdl.boundaryLength) :
    readBSR T k [] 0 c = readDataDR T k bsdl.boundaryLength [] c := by
  rw [readBSR, readDataDR, deviceAt_of_lt hk]
  simp only [hb, Nat.not_lt_zero, false_and, if_false, if_neg (show ¬bsdl.boundaryLength = 0 by omega),
    List.take_nil, List.nil_append, List.length_nil, Nat.sub_zero]
  rfl

/-- `readBSR` returns what device `k` captured, and updates it with zeros. -/
theorem readBSR_start (hs : c.tap.Synced) (hd : c.tap.device.Delivers)
    (hn : c.devices.length = (captured L c).length) {k : ℕ} (hk : k < c.devices.length) {bsdl : BSDLDevice}
    (hb : c.devices[k].bsdl = some bsdl) (h1 : 1 ≤ bsdl.boundaryLength)
    (hline : InLine k bsdl.boundaryLength (captured L c)) :
    ∃ tap, readBSR (Target.chain L) k [] 0 c =
        some ((true, packBits ((captured L c).getD k [])), { c with tap }) ∧ Resting tap ∧
      tap.device.link.port.target.map Device.reg =
        lanes c.devices.length k (List.replicate bsdl.boundaryLength false) ∧
      tap.device.link.port.target.map Device.core =
        List.zipWith (L.update .dr) ((shiftStart L c.tap.device.link.port .dr).target.map Device.core)
          (lanes c.devices.length k (List.replicate bsdl.boundaryLength false)) := by
  rw [readBSR_eq_readDataDR _ hk hb h1]
  exact readDataDR_start L hs hd hn hk h1 hline

/-- `writeBSR` shifts the bits of the buffer into the register of device `k`. -/
theorem writeBSR_start (hs : c.tap.Synced) (hd : c.tap.device.Delivers)
    (hn : c.devices.length = (captured L c).length) {k len : ℕ} (hk : k < c.devices.length) {data : List Byte}
    (hdata : len ≤ 8 * data.length) (h1 : 1 ≤ len) (hline : InLine k len (captured L c)) :
    ∃ tap, writeBSR (Target.chain L) k data len c = some (true, { c with tap }) ∧ Resting tap ∧
      tap.device.link.port.target.map Device.reg = lanes c.devices.length k (bits data len) ∧
      tap.device.link.port.target.map Device.core =
        List.zipWith (L.update .dr) ((shiftStart L c.tap.device.link.port .dr).target.map Device.core)
          (lanes c.devices.length k (bits data len)) := by
  have hbuf : (orBits (bitAt data) k len (List.replicate ((len + c.bypassBits + 7) / 8) 0)).length =
      (len + c.bypassBits + 7) / 8 := by
    rw [length_orBits, List.length_replicate]
  obtain ⟨tap, e, h⟩ := scan_lane L hs hd hn h1 hline hbuf (length_bits data len) (bits_orBits_lanes hk data len) false
  have e' : TapController.shiftDROut (Target.chain L)
      (some (orBits (bitAt data) k len (List.replicate ((len + c.bypassBits + 7) / 8) 0))) (len + c.bypassBits) c.tap =
      some (true, tap) := by
    rw [TapController.shiftDROut, Method.bind_of_eq _ e]
    rfl
  refine ⟨tap, ?_, h⟩
  rw [writeBSR, deviceAt_of_lt hk]
  simp only [if_neg (Nat.not_lt.mpr hdata), Int.toNat_natCast]
  exact onTap_of_eq e'

/-- The samples of a scan are the bits of the registers, as far as these go. -/
theorem getD_trackSamples (hs : c.tap.Synced) {buf : List Byte} {n j : ℕ} (hn : 1 ≤ n) (hj : j < n)
    (hj' : j < (captured L c).flatten.length) :
    (TapController.trackSamples (Target.chain L) c.tap .dr buf n).getD j false = (captured L c).flatten.getD j false := by
  have hsamples : TapController.trackSamples (Target.chain L) c.tap .dr buf n =
      (Series.shifts (captured L c) (bits buf n)).2 := by
    rw [TapController.trackSamples, ← hs.state]
    exact (run_scanTrack L c.tap.device.link.port .dr buf hn).1
  have happ : ((Series.shifts (captured L c) (bits buf n)).2 ++ _).getD j false = _ :=
    congrArg (·.getD j false) (Series.outs_append_flatten_shifts (captured L c) (bits buf n))
  rw [hsamples]
  rwa [List.getD_append _ _ _ _ (by simpa using hj), List.getD_append _ _ _ _ hj'] at happ

/-- `readBSR`, whole or partial, returns the cells that it reads. -/
theorem readBSR_cells (hs : c.tap.Synced) (hd : c.tap.device.Delivers)
    (hn : c.devices.length = (captured L c).length) {k : ℕ} (hk : k < c.devices.length) {bsdl : BSDLDevice}
    (hb : c.devices[k].bsdl = some bsdl) (hline : InLine k bsdl.boundaryLength (captured L c)) (partialBits : ℕ) {readLen : ℕ}
    (hlen : readLen =
      if 0 < partialBits ∧ partialBits < bsdl.boundaryLength then partialBits else bsdl.boundaryLength)
    (h1 : 1 ≤ readLen + c.bypassBits) :
    ∃ raw tap, readBSR (Target.chain L) k [] partialBits c = some ((true, raw), { c with tap }) ∧
      raw.length = bytesFor readLen ∧ ∀ i < readLen, bitAt raw i = ((captured L c).getD k []).getD i false := by
  have hk' : k < (captured L c).length := hn ▸ hk
  have hle : readLen ≤ bsdl.boundaryLength := by
    rw [hlen]
    split
    · rename_i h
      exact h.2.le
    · exact le_refl _
  obtain ⟨d, e, -⟩ := TapController.shiftDR_delivered (T := Target.chain L) h1
    (show bytesFor (readLen + c.bypassBits) ≤ (List.replicate ((readLen + c.bypassBits + 7) / 8) (0 : Byte)).length by
      rw [List.length_replicate]; exact le_refl _) hs hd
  have e' : onTap (TapController.readDR (Target.chain L) [] (readLen + c.bypassBits)) c = _ := onTap_of_eq e
  refine ⟨orBits (fun b => bitAt (packBits (TapController.trackSamples (Target.chain L) c.tap .dr
    (List.replicate ((readLen + c.bypassBits + 7) / 8) 0) (readLen + c.bypassBits))) (k + b)) 0 readLen
    (List.replicate ((readLen + 7) / 8) 0), ⟨d, .runTestIdle, c.tap.lastError⟩, ?_,
    by rw [length_orBits, List.length_replicate, bytesFor], fun i hi => ?_⟩
  · rw [readBSR, deviceAt_of_lt hk]
    simp only [hb, ← hlen, List.take_nil, List.nil_append, List.length_nil, Nat.sub_zero]
    rw [Method.bind_of_eq _ e', if_pos rfl, Method.pure_apply]
    rfl
  · have hroom : 0 + readLen ≤ 8 * (List.replicate ((readLen + 7) / 8) (0 : Byte)).length := by
      rw [List.length_replicate, Nat.zero_add]
      exact le_bytesFor readLen
    have hzero : bitAt (List.replicate ((readLen + 7) / 8) (0 : Byte)) i = false := bitAt_replicate_zero _ i
    obtain ⟨hflat, hcell⟩ := hline.getD_flatten hk' (show i < bsdl.boundaryLength by omega)
    rw [bitAt_orBits _ _ hroom, hzero, Nat.sub_zero, bitAt_packBits,
      getD_trackSamples L hs h1 (by rw [bypassBits]; omega) hflat, hcell, List.getD_eq_getElem (captured L c) _ hk']
    simp [hi]

/-- A part that is empty, or not smaller than the whole, is the whole. -/
theorem readBSR_whole {σ : Type} (T : Target σ) {c : JtagChain σ} {k : ℕ} (hk : k < c.devices.length)
    {bsdl : BSDLDevice} (hb : c.devices[k].bsdl = some bsdl) {partialBits : ℕ}
    (hp : ¬(0 < partialBits ∧ partialBits < bsdl.boundaryLength)) :
    readBSR T k [] partialBits c = readBSR T k [] 0 c := by
  rw [readBSR, readBSR, deviceAt_of_lt hk]
  simp only [hb, if_neg hp, Nat.not_lt_zero, false_and, if_false]

/-- There is nothing to read when the register has no cell and the device is alone. -/
theorem readBSR_nothing {σ : Type} (T : Target σ) {c : JtagChain σ} {k : ℕ} (hk : k < c.devices.length)
    {bsdl : BSDLDevice} (hb : c.devices[k].bsdl = some bsdl) (h0 : bsdl.boundaryLength + c.bypassBits = 0)
    (partialBits : ℕ) : ∃ c', readBSR T k [] partialBits c = some ((false, []), c') := by
  have hlen : (if 0 < partialBits ∧ partialBits < bsdl.boundaryLength then partialBits else bsdl.boundaryLength) +
      c.bypassBits = 0 := by
    rw [if_neg (by omega), h0]
  refine ⟨{ c with lastError := c.tap.lastError }, ?_⟩
  rw [readBSR, deviceAt_of_lt hk]
  simp only [hb, hlen]
  rfl

/-- What is read has a bit for each that was asked for, and zeros after them. -/
theorem readBSR_padded {σ : Type} {T : Target σ} {i : ℤ} {part : ℕ} {chain chain' : JtagChain σ} {dev : BSDLDevice} {raw : List Byte}
    (hb : (chain.deviceAt i).bind ChainDevice.bsdl = some dev)
    (e : readBSR T i [] part chain = some ((true, raw), chain')) :
    let n := if 0 < part ∧ part < dev.boundaryLength then part else dev.boundaryLength
    raw.length = bytesFor n ∧ ∀ j, n ≤ j → bitAt raw j = false := by
  intro n
  obtain ⟨cd, hat, hcd⟩ := Option.bind_eq_some_iff.mp hb
  unfold readBSR at e
  simp only [hat, hcd] at e
  obtain ⟨⟨ok, full⟩, chain₁, -, hrest⟩ := Method.bind_eq_some.mp e
  cases ok with
  | false => cases (Prod.mk.inj (Prod.mk.inj (Option.some.inj hrest)).1).1
  | true =>
    obtain rfl := (Prod.mk.inj (Prod.mk.inj (Option.some.inj hrest)).1).2
    have hroom : 0 + n ≤ 8 * ((n + 7) / 8) := by omega
    simp only [List.take_nil, List.nil_append, List.length_nil, Nat.sub_zero]
    refine ⟨by rw [length_orBits, List.length_replicate]; rfl, fun j hj => ?_⟩
    rw [bitAt_orBits_zeros _ hroom, decide_eq_false (show ¬j < 0 + n by omega), Bool.and_false, Bool.false_and]

/-- **Access to the boundary register.** Let the host know where the TAP is, and let device `k` have
`len` bits between TDI and TDO, and every other device one, when a scan of data begins to shift.
`writeBSR` leaves the first `len` bits of the buffer in the register of device `k`, bit `i` in cell
`i`, and the device updates with them. `readBSR` into a fresh vector returns what was captured,
cell `i` at bit `i`, and so does `readDataDR`. When the bits written are what is captured next,
they are read back. -/
theorem boundaryAccess_exact (hs : c.tap.Synced) (hd : c.tap.device.Delivers)
    (hn : c.devices.length = (captured L c).length) {k len : ℕ} (hk : k < c.devices.length) (h1 : 1 ≤ len)
    (hline : InLine k len (captured L c)) {bsdl : BSDLDevice} (hb : c.devices[k].bsdl = some bsdl)
    (hlen : bsdl.boundaryLength = len) {data : List Byte} (hdata : len ≤ 8 * data.length) :
    (∃ c', writeBSR (Target.chain L) k data len c = some (true, c') ∧
      (c'.tap.device.link.port.target.map Device.reg)[k]? = some (bits data len) ∧
      (c'.tap.device.link.port.target.map Device.core)[k]? =
        ((shiftStart L c.tap.device.link.port .dr).target[k]?).map (fun d => L.update .dr d.core (bits data len)) ∧
      (InLine k len (captured L c') → (captured L c').length = c.devices.length →
        (captured L c')[k]? = some (bits data len) →
        ∃ raw c'', readBSR (Target.chain L) k [] 0 c' = some ((true, raw), c'') ∧ bits raw len = bits data len)) ∧
    ∃ raw c', readBSR (Target.chain L) k [] 0 c = some ((true, raw), c') ∧
      readDataDR (Target.chain L) k len [] c = some ((true, raw), c') ∧
      ∀ i < len, bitAt raw i = ((captured L c).getD k []).getD i false := by
  subst hlen
  constructor
  · obtain ⟨tap, e, ⟨hs', -, hd'⟩, hregs, hcores⟩ := writeBSR_start L hs hd hn hk hdata h1 hline
    have hlane : (lanes c.devices.length k (bits data bsdl.boundaryLength))[k]? = some (bits data bsdl.boundaryLength) := by
      rw [List.getElem?_eq_getElem (by rwa [length_lanes]), getElem_lanes, if_pos rfl]
    refine ⟨_, e, by rw [hregs, hlane], ?_, fun hline' hn' hback => ?_⟩
    · rw [hcores, List.getElem?_zipWith, hlane, List.getElem?_map]
      cases (shiftStart L c.tap.device.link.port .dr).target[k]? <;> rfl
    · obtain ⟨tap', e', -⟩ := readBSR_start L (c := { c with tap }) hs' hd' hn'.symm hk hb h1 hline'
      refine ⟨_, _, e', ?_⟩
      have hget : (captured L { c with tap }).getD k [] = bits data bsdl.boundaryLength := by
        rw [List.getD_eq_getElem?_getD, hback, Option.getD_some]
      rw [hget]
      have := bits_packBits (bits data bsdl.boundaryLength)
      rwa [length_bits] at this
  · obtain ⟨tap, e, -⟩ := readBSR_start L hs hd hn hk hb h1 hline
    exact ⟨_, _, e, (readBSR_eq_readDataDR _ hk hb h1).symm.trans e, fun i _ => bitAt_packBits _ i⟩

/-- A model with a boundary register of 3 cells. -/
def threeCells : BSDLDevice := { instructionLength := 6, boundaryLength := 3 }

/-- The two devices: SAMPLE is in force in the one nearest TDO, BYPASS in the other. -/
def sampling : JtagChain (List (Device BoundaryDevice)) :=
  idle [⟨0, 0x13722093, 6, [], some threeCells⟩, ⟨1, 0x4BA00477, 4, [], none⟩]
    (List.zipWith (fun spec instruction => ⟨{ BoundaryDevice.powered spec with instruction := some instruction }, []⟩)
      twoSpecs [[true, false, false, false, false, false], [true, true, true, true]])

theorem boundaryAccess_sampling :
    ∃ c', writeBSR (Target.chain BoundaryDevice.logic) (0 : ℕ) [0x05] 3 sampling = some (true, c') ∧
      (c'.tap.device.link.port.target.map Device.reg)[0]? = some [true, false, true] := by
  have hline : InLine 0 3 (captured BoundaryDevice.logic sampling) := by
    unfold InLine
    decide +kernel
  obtain ⟨⟨c', e, hreg, -⟩, -⟩ := boundaryAccess_exact BoundaryDevice.logic (c := sampling) (idle_synced _ _)
    (idle_delivers _ _) (by decide +kernel) (show 0 < 2 by decide) (show 1 ≤ 3 by decide) hline
    (show (sampling.devices[0]).bsdl = some threeCells from rfl) rfl (show 3 ≤ 8 * ([0x05] : List Byte).length by decide)
  exact ⟨c', e, hreg⟩

end JtagChain

end OwlTap.Jtag
