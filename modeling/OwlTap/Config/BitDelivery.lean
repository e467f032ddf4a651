import OwlTap.Base.BitOrder
import OwlTap.Base.ChainStream
import OwlTap.Config.PlConfig
import OwlTap.Jtag.Captures

/-!
# The bits of a bitstream

While the other devices are in BYPASS, what arrives at the configuration logic of the target in the
scan of the bitstream is a 0 for each device nearer TDI, the file from its sync word on, every byte
from its most significant bit, and a 0 for each device nearer TDO (`program_delivers`).
-/

namespace OwlTap

namespace Ftdi.FtdiDevice

variable {δ : Type} {L : TestLogic δ} {d₁ d₂ : FtdiDevice (List (Device δ))}

/-- What arrives at device `k` in SHIFT-DR from one moment to another: the cycles recorded between them, replayed. -/
def arrivalsSince (L : TestLogic δ) (k : ℕ) (d₁ d₂ : FtdiDevice (List (Device δ))) : List Bool :=
  Chain.arrivals L .dr k d₁.link.port ((d₂.link.trace.drop d₁.link.trace.length).map Cycle.pins)

theorem Clocked.arrivalsSince {cs : List Pins} (h : Clocked (Target.chain L) d₁ d₂ cs) (k : ℕ) :
    FtdiDevice.arrivalsSince L k d₁ d₂ = Chain.arrivals L .dr k d₁.link.port cs := by
  rw [FtdiDevice.arrivalsSince, h.trace, List.drop_left, Port.map_pins_cycles]

end Ftdi.FtdiDevice

namespace Config

open Ftdi Bsdl Jtag

variable {δ : Type} (L : TestLogic δ)

/-- In a scan there arrives at device `k` what the devices behind it captured, and then the bits. -/
theorem arrivals_scanTrack (p : Port (List (Device δ))) (reg : Register) (k : ℕ) (buf : List Byte) {n : ℕ} (hn : 1 ≤ n) :
    Chain.arrivals L reg k p (TapController.scanTrack p.state reg buf n) =
      ((((shiftStart L p reg).target.map Device.reg).drop (k + 1)).flatten ++ bits buf n).take n := by
  have hway : Chain.arrivals L reg k p (pathPins p.state reg.shift) = [] := by
    refine Chain.arrivals_eq_nil p ?_
    rw [map_tms_pathPins]
    exact shift_notMem_tmsPath _ reg
  have hstate := state_shiftStart L p reg
  have hshift : (shiftStart L p reg).state.IsShift := hstate ▸ reg.isShift_shift
  have hbits : Chain.arrivals L reg k (shiftStart L p reg) (scanPins buf n) =
      (Series.shifts (((shiftStart L p reg).target.map Device.reg).drop (k + 1)) (bits buf n)).2 := by
    rw [Chain.arrivals_shift (by
      rw [TapController.visits_scanPins hshift buf hn, hstate, length_scanPins buf hn]), TapController.map_tdi_scanPins buf hn]
  have hback : Chain.arrivals L reg k ((shiftStart L p reg).run (Target.chain L) (scanPins buf n))
      (pathPins reg.exit1 .runTestIdle) = [] := by
    refine Chain.arrivals_eq_nil _ ?_
    rw [Port.state_run, hstate, TapController.run_scanPins, map_tms_pathPins, tmsPath_exit1]
    cases reg <;> decide
  rw [TapController.scanTrack, Chain.arrivals_append, Chain.arrivals_append, hway, ← shiftStart, hbits, hback,
    List.nil_append, List.append_nil, Series.outs_shifts, length_bits]

/-- A number that fits an `int`. -/
theorem toInt_of_lt {n : ℕ} (h : n < 2 ^ 31) : toInt n = n := by
  rw [toInt, BitVec.toInt_eq_toNat_of_lt (by rw [BitVec.toNat_ofNat]; omega), BitVec.toNat_ofNat, Nat.mod_eq_of_lt (by omega)]

/-- The number of bits, while it fits an `int`. -/
theorem totalDrBits_eq {len count : ℕ} (h : 8 * len < 2 ^ 31) :
    toInt (8 * len) + (count : ℤ) = ((8 * len + count : ℕ) : ℤ) := by
  rw [toInt_of_lt h, Int.natCast_add]

/-- The number of bytes. -/
theorem tdiBytes_eq (n : ℕ) : ((n : ℤ) + 7).tdiv 8 = (bytesFor n : ℤ) := by
  rw [Int.tdiv_eq_ediv_of_nonneg (by omega), bytesFor]
  omega

/-! ### The buffer -/

/-- Reversed, the least significant bit is the most significant one. -/
theorem lsbFirst_bitReverseByte (b : Byte) : lsbFirst (bitReverseByte b) = msbFirst b := by
  revert b
  decide +kernel

/-- What is sent of a file: from the first sync word on, or all of it if there is none. -/
def payload (content : List Byte) : List Byte := content.drop ((indexOf sync content).getD 0)

/-- What should be sent of a file: everything from the first sync word on, or all of it if there is none. -/
def FromSync (content sent : List Byte) : Prop :=
  (∃ i, sent = content.drop i ∧ sync <+: sent ∧ ∀ j < i, ¬sync <+: content.drop j) ∨ (sent = content ∧ ¬sync <:+: content)

theorem fromSync_payload (content : List Byte) : FromSync content (payload content) := by
  rw [payload]
  cases hi : indexOf sync content with
  | none => exact .inr ⟨rfl, not_infix_of_indexOf hi⟩
  | some i => exact .inl ⟨i, rfl, prefix_of_indexOf hi, fun j hj => not_prefix_of_indexOf hi hj⟩

/-- There is one such suffix. -/
theorem FromSync.unique {content a b : List Byte} (ha : FromSync content a) (hb : FromSync content b) : b = a := by
  obtain ⟨i, rfl, hi, hbefore⟩ | ⟨rfl, hnone⟩ := ha
  · obtain ⟨j, rfl, hj, hbefore'⟩ | ⟨rfl, hnone⟩ := hb
    · have hij : i = j := by
        by_contra hne
        obtain hlt | hlt := Nat.lt_or_gt_of_ne hne
        · exact hbefore' i hlt hi
        · exact hbefore j hlt hj
      rw [hij]
    · exact absurd (hi.isInfix.trans (List.drop_suffix i _).isInfix) hnone
  · obtain ⟨j, rfl, hj, -⟩ | ⟨rfl, -⟩ := hb
    · exact absurd (hj.isInfix.trans (List.drop_suffix j _).isInfix) hnone
    · rfl

/-- The payload is what is loaded. -/
theorem loadBitstream_eq {content : List Byte} (h : content ≠ []) :
    loadBitstream (some content) = some ((payload content).map bitReverseByte) := by
  rw [loadBitstream]
  simp only [if_neg h]
  rfl

/-- There is something to send. -/
theorem payload_ne_nil {content : List Byte} (h : content ≠ []) : payload content ≠ [] := by
  rw [payload, ne_eq, List.drop_eq_nil_iff, not_le]
  cases hi : indexOf sync content with
  | none => exact List.length_pos_iff.mpr h
  | some i =>
    have := le_of_indexOf hi (by decide)
    have hfour : sync.length = 4 := rfl
    exact show i < content.length by omega

/-- The bits of the body, and zeros. -/
theorem bits_resize (raw : List Byte) {m k : ℕ} (h : 8 * raw.length + m ≤ 8 * k) :
    bits (resize (raw.map bitReverseByte) k) (8 * raw.length + m) = raw.flatMap msbFirst ++ List.replicate m false := by
  have hk : (raw.map bitReverseByte).length ≤ k := by rw [List.length_map]; omega
  have hlen : raw.length = (raw.map bitReverseByte).length := (List.length_map _).symm
  rw [resize, List.take_of_length_le hk, hlen, bits_append, bits_whole, bits_replicate_zero, List.flatMap_map]
  congr 1
  exact List.flatMap_congr fun b _ => lsbFirst_bitReverseByte b

/-! ### The sequence on a chain at rest -/

namespace PlConfig

variable {L} {devices : List ChainDevice}

/-- The configuration of device `t` of a chain at rest. -/
structure Ready (devices : List ChainDevice) (t : ℕ) (p : PlConfig (List (Device δ))) : Prop where
  /-- The chain. -/
  rest : p.chain.Rested L devices
  /-- The device. -/
  index : p.deviceIndex = t
  /-- It is on the chain. -/
  lt : t < devices.length

/-- The other devices are in BYPASS, and capture a 0. -/
def OthersBypass (L : TestLogic δ) (t : ℕ) (cores : List δ) : Prop :=
  ∀ i (h : i < cores.length), i ≠ t → L.capture .dr cores[i] = [false]

variable {t : ℕ} {p : PlConfig (List (Device δ))}

theorem Ready.length (h : Ready (L := L) devices t p) : p.chain.tap.cores.length = devices.length := by
  have := h.rest.widths.length
  rw [h.rest.devices] at this
  exact this.symm

/-- One bit for each other device. -/
theorem Ready.bypassCount (h : Ready (L := L) devices t p) : p.bypassCount = devices.length - 1 := by
  have hlt := h.lt
  have hsplit : List.range devices.length = List.range t ++ t :: (List.range (devices.length - 1 - t)).map (t + 1 + ·) := by
    conv => lhs; rw [show devices.length = t + 1 + (devices.length - 1 - t) by omega, List.range_add, List.range_succ]
    rw [List.append_assoc, List.singleton_append]
  have hl : (List.range t).filter (fun i : ℕ => decide ((i : ℤ) ≠ p.deviceIndex)) = List.range t := by
    refine List.filter_eq_self.mpr fun i hi => decide_eq_true ?_
    rw [h.index]
    exact_mod_cast (List.mem_range.mp hi).ne
  have hr : ((List.range (devices.length - 1 - t)).map (t + 1 + ·)).filter (fun i : ℕ => decide ((i : ℤ) ≠ p.deviceIndex)) =
      (List.range (devices.length - 1 - t)).map (t + 1 + ·) := by
    refine List.filter_eq_self.mpr fun i hi => decide_eq_true ?_
    obtain ⟨j, -, rfl⟩ := List.mem_map.mp hi
    rw [h.index]
    omega
  rw [PlConfig.bypassCount, h.rest.devices, hsplit, List.filter_append, List.filter_cons_of_neg (by simp [h.index]), hl, hr,
    List.length_append, List.length_range, List.length_map, List.length_range]
  omega

/-- With the TAP in another state of rest. -/
theorem Ready.of_tap (h : Ready (L := L) devices t p) {tap : TapController (List (Device δ))} (hr : tap.AtRest)
    (hw : tap.cores.map L.irWidth = p.chain.tap.cores.map L.irWidth) (record : Record) :
    Ready (L := L) devices t { p with chain := { p.chain with tap }, record } :=
  ⟨h.rest.of_cores hr hw, h.index, h.lt⟩

/-- An instruction is loaded into the target, and BYPASS into the others. -/
theorem Ready.loadInstruction (h : Ready (L := L) devices t p) (opcode : BitVec 32) :
    ∃ p', scanStep (PlConfig.loadInstruction (Target.chain L) opcode) p = some (true, p') ∧
      Ready (L := L) devices t p' ∧
      p'.chain.tap.cores = List.zipWith (L.update .ir) p.chain.tap.cores (placed t opcode devices) := by
  have hlt : t < p.chain.devices.length := by
    rw [h.rest.devices]
    exact h.lt
  obtain ⟨tap, e, hrest, hcores⟩ := JtagChain.selectInstruction_rest L h.rest.rest h.rest.widths hlt opcode
  rw [h.rest.devices] at hcores
  have hlen : (placed t opcode devices).length = p.chain.tap.cores.length := by
    rw [placed, List.length_mapIdx, h.length]
  have eselect : onChain (JtagChain.selectInstruction (Target.chain L) p.deviceIndex opcode) p =
      some (true, { p with chain := { p.chain with tap } }) := by
    rw [← h.index] at e
    exact Method.on_of_eq _ e
  have eload : PlConfig.loadInstruction (Target.chain L) opcode p =
      some (true, { p with chain := { p.chain with tap } }) := by
    rw [PlConfig.loadInstruction, Method.bind_of_eq _ eselect]
    rfl
  refine ⟨{ p with chain := { p.chain with tap }, record := { p.record with shifts := p.record.shifts ++ [true] } }, ?_,
    h.of_tap hrest ?_ _, hcores⟩
  · rw [scanStep, Method.bind_of_eq _ eload]
    rfl
  · rw [hcores, irWidths_zipWith_update L .ir hlen]

/-- A clock burst. -/
theorem Ready.burst (h : Ready (L := L) devices t p) (cycles : ℕ) :
    ∃ p', PlConfig.burst (Target.chain L) cycles p = some ((), p') ∧ Ready (L := L) devices t p' ∧
      p'.chain.tap.cores = p.chain.tap.cores := by
  obtain ⟨tap, e, hrest, hcores, -⟩ := h.rest.clkIdle cycles
  have e' : onChain (JtagChain.onTap (TapController.clkIdle (Target.chain L) cycles)) p =
      some (true, { p with chain := { p.chain with tap } }) := Method.on_of_eq _ e
  refine ⟨{ p with chain := { p.chain with tap }, record := { p.record with bursts := p.record.bursts ++ [true] } }, ?_,
    ⟨hrest, h.index, h.lt⟩, hcores⟩
  rw [PlConfig.burst, Method.bind_of_eq _ e']
  rfl

/-- Before the bitstream, the other devices are in BYPASS. -/
theorem Ready.selectCfgIn (h : Ready (L := L) devices t p)
    (hbyp : ∀ d, L.capture .dr (L.update .ir d (List.replicate (L.irWidth d) true)) = [false]) :
    ∃ p', PlConfig.selectCfgIn (Target.chain L) p = some (true, p') ∧ Ready (L := L) devices t p' ∧
      OthersBypass L t p'.chain.tap.cores := by
  obtain ⟨p₁, e₁, h₁, -⟩ := h.loadInstruction PlIr.jprogram
  obtain ⟨p₂, e₂, h₂, -⟩ := h₁.burst 16
  obtain ⟨p₃, e₃, h₃, -⟩ := h₂.burst 600000
  obtain ⟨p₄, e₄, h₄, hcores₄⟩ := h₃.loadInstruction PlIr.cfgIn
  obtain ⟨p₅, e₅, h₅, hcores₅⟩ := h₄.burst 2
  have ewait : waitInitB (Target.chain L) 600000 p₂ = some (true, p₃) := by
    rw [waitInitB, Method.bind_of_eq _ e₃]
    rfl
  refine ⟨p₅, ?_, h₅, fun i hi hne => ?_⟩
  · rw [PlConfig.selectCfgIn, Method.bind_of_eq _ e₁, if_pos rfl, Method.bind_of_eq _ e₂, Method.bind_of_eq _ ewait,
      if_pos rfl, Method.bind_of_eq _ e₄, if_pos rfl, Method.bind_of_eq _ e₅]
    rfl
  · have hwidths : p₃.chain.tap.cores.map L.irWidth = devices.map ChainDevice.irLength := by
      rw [← h₃.rest.widths.widths, h₃.rest.devices]
    have hi₃ : i < p₃.chain.tap.cores.length := by
      rw [hcores₅, hcores₄, List.length_zipWith] at hi
      omega
    have hid : i < devices.length := h₃.length ▸ hi₃
    have hwidth : devices[i].irLength = L.irWidth p₃.chain.tap.cores[i] := by
      have := congrArg (·[i]?) hwidths
      simp only [List.getElem?_map, List.getElem?_eq_getElem hi₃, List.getElem?_eq_getElem hid, Option.map_some] at this
      exact (Option.some.inj this).symm
    have hcore : p₅.chain.tap.cores[i] =
        L.update .ir p₃.chain.tap.cores[i] (List.replicate (L.irWidth p₃.chain.tap.cores[i]) true) := by
      simp only [hcores₅, hcores₄, List.getElem_zipWith, placed, List.getElem_mapIdx, if_neg hne, hwidth]
    rw [hcore]
    exact hbyp _

/-! ### The scan of the bitstream -/

/-- What the devices behind the target put before the bits. -/
theorem flatten_drop_of_bypass {cores : List δ} (h : OthersBypass L t cores) :
    ((cores.map (L.capture .dr)).drop (t + 1)).flatten = List.replicate (cores.length - (t + 1)) false := by
  have hall : (cores.map (L.capture .dr)).drop (t + 1) = List.replicate (cores.length - (t + 1)) [false] := by
    refine List.eq_replicate_iff.mpr ⟨by simp, fun c hc => ?_⟩
    obtain ⟨i, hi, rfl⟩ := List.mem_iff_getElem.mp hc
    rw [List.getElem_drop, List.getElem_map]
    exact h _ _ (by omega)
  rw [hall, List.flatten_replicate_singleton]

/-- The bits of a bitstream are shifted in one scan, while rounding up to bytes does not overflow. -/
theorem shiftBitstream_of_fits {σ : Type} (T : Target σ) {p p' : PlConfig σ} {body : List Byte} {n : ℕ}
    (hn : n = 8 * body.length + p.bypassCount) (hfit : n + 7 < 2 ^ 31)
    (e : onChain (JtagChain.onTap (TapController.shiftDROut T (some (resize body (bytesFor n))) n)) p = some (true, p')) :
    PlConfig.shiftBitstream T body p = some (true, p') := by
  have htotal : toInt (8 * body.length) + (p.bypassCount : ℤ) = n := by
    rw [totalDrBits_eq (by omega), hn]
  rw [PlConfig.shiftBitstream]
  simp only [htotal, tdiBytes_eq, Int.toNat_natCast]
  rw [if_neg (by omega), Method.bind_of_eq _ e]
  rfl

/-- Nothing is shifted when it does. -/
theorem shiftBitstream_of_overflow {σ : Type} (T : Target σ) {p : PlConfig σ} {body : List Byte} (h : 8 * body.length < 2 ^ 31)
    (hover : 2 ^ 31 ≤ 8 * body.length + p.bypassCount + 7) : PlConfig.shiftBitstream T body p = none := by
  rw [PlConfig.shiftBitstream]
  simp only [totalDrBits_eq h]
  rw [if_pos (.inl (by omega))]

/-- What is left of zeros, the body and more zeros when the register is full. -/
theorem take_zeros {n t : ℕ} {bits : List Bool} (ht : t < n) :
    (List.replicate (n - (t + 1)) false ++ (bits ++ List.replicate (n - 1) false)).take (bits.length + (n - 1)) =
      List.replicate (n - 1 - t) false ++ (bits ++ List.replicate t false) := by
  rw [List.take_append, List.take_append, List.take_of_length_le (by simp; omega), List.take_of_length_le (by simp; omega),
    List.take_replicate, List.length_replicate]
  congr 2
  · omega
  · congr 1
    omega

/-- While the other devices are in BYPASS, every bit of the body arrives at the target, in order: after a 0 for each
device behind, and before a 0 for each device ahead. -/
theorem Ready.shiftBitstream (h : Ready (L := L) devices t p) (hbyp : OthersBypass L t p.chain.tap.cores)
    {raw : List Byte} (hraw : raw ≠ []) (hfit : 8 * raw.length + (devices.length - 1) + 7 < 2 ^ 31) :
    ∃ p', scanStep (PlConfig.shiftBitstream (Target.chain L) (raw.map bitReverseByte)) p = some (true, p') ∧
      FtdiDevice.arrivalsSince L t p.chain.tap.device p'.chain.tap.device =
        List.replicate (devices.length - 1 - t) false ++ (raw.flatMap msbFirst ++ List.replicate t false) := by
  have hpos : 0 < raw.length := List.length_pos_iff.mpr hraw
  have hrest := h.rest.rest
  set n := 8 * raw.length + (devices.length - 1) with hn
  set buf := resize (raw.map bitReverseByte) (bytesFor n) with hbuf
  have hlong : bytesFor n ≤ buf.length := by
    rw [hbuf, resize, List.length_append, List.length_take, List.length_replicate]
    omega
  obtain ⟨d, e, -, hclk, -⟩ :=
    TapController.shiftDROut_delivered (T := Target.chain L) (by omega) hlong hrest.synced hrest.delivers
  have eshift : PlConfig.shiftBitstream (Target.chain L) (raw.map bitReverseByte) p =
      some (true, { p with chain := { p.chain with tap := ⟨d, .runTestIdle, p.chain.tap.lastError⟩ } }) := by
    refine shiftBitstream_of_fits _ ?_ hfit (Method.on_of_eq _ (JtagChain.onTap_of_eq e))
    rw [h.bypassCount, List.length_map]
  refine ⟨{ p with
    chain := { p.chain with tap := ⟨d, .runTestIdle, p.chain.tap.lastError⟩ }
    record := { p.record with shifts := p.record.shifts ++ [true] } }, ?_, ?_⟩
  · rw [scanStep, Method.bind_of_eq _ eshift]
    rfl
  · show FtdiDevice.arrivalsSince L t p.chain.tap.device d = _
    rw [hclk.arrivalsSince, ← hrest.synced.state, arrivals_scanTrack L _ _ _ _ (by omega), hrest.start_regs,
      flatten_drop_of_bypass hbyp, h.length, hn, hbuf, bits_resize raw (le_bytesFor n), ← length_flatMap_msbFirst raw,
      take_zeros h.lt]

/-- Programming is the sequence up to the bitstream, its scan, and the rest. -/
theorem program_eq {σ : Type} (T : Target σ) {p p₁ p₂ : PlConfig σ} {content : List Byte} (hne : content ≠ [])
    (path : String) (e₁ : PlConfig.selectCfgIn T { p with record := {} } = some (true, p₁))
    (e₂ : scanStep (PlConfig.shiftBitstream T ((payload content).map bitReverseByte)) p₁ = some (true, p₂)) :
    PlConfig.program T path (some content) p = (do if ← PlConfig.startUp T then verify T else pure false) p₂ := by
  have hbody : (payload content).map bitReverseByte ≠ [] := by
    rw [ne_eq, List.map_eq_nil_iff]
    exact payload_ne_nil hne
  rw [PlConfig.program, Method.modify_bind, loadBitstream_eq hne]
  simp only [if_neg hbody]
  rw [Method.bind_of_eq _ e₁, if_pos rfl, Method.bind_of_eq _ e₂]
  rfl

/-- In the scan of a bitstream the configuration logic receives a 0 for each device nearer TDI, then the file from its
first sync word on, every byte from its most significant bit, and then a 0 for each device nearer TDO. -/
theorem program_delivers (hbyp : ∀ d, L.capture .dr (L.update .ir d (List.replicate (L.irWidth d) true)) = [false])
    (h : Ready (L := L) devices t p) {content sent : List Byte} (hne : content ≠ []) (hsent : FromSync content sent)
    (hfit : 8 * sent.length + (devices.length - 1) + 7 < 2 ^ 31) (path : String) :
    ∃ body p₁ p₂, loadBitstream (some content) = some body ∧
      PlConfig.selectCfgIn (Target.chain L) { p with record := {} } = some (true, p₁) ∧
      scanStep (PlConfig.shiftBitstream (Target.chain L) body) p₁ = some (true, p₂) ∧
      PlConfig.program (Target.chain L) path (some content) p =
        (do if ← PlConfig.startUp (Target.chain L) then verify (Target.chain L) else pure false) p₂ ∧
      FtdiDevice.arrivalsSince L t p₁.chain.tap.device p₂.chain.tap.device =
        List.replicate (devices.length - 1 - t) false ++ (sent.flatMap msbFirst ++ List.replicate t false) := by
  obtain rfl : sent = payload content := (fromSync_payload content).unique hsent
  have h₀ : Ready (L := L) devices t { p with record := {} } := ⟨h.rest, h.index, h.lt⟩
  obtain ⟨p₁, e₁, h₁, hbyp₁⟩ := h₀.selectCfgIn hbyp
  obtain ⟨p₂, e₂, harr⟩ := h₁.shiftBitstream hbyp₁ (payload_ne_nil hne) hfit
  exact ⟨_, p₁, p₂, loadBitstream_eq hne, e₁, e₂, program_eq _ hne path e₁ e₂, harr⟩

/-- A file whose bits are too many for an `int` once they are rounded up to bytes is not sent. -/
theorem Ready.program_overflows
    (hbyp : ∀ d, L.capture .dr (L.update .ir d (List.replicate (L.irWidth d) true)) = [false])
    (h : Ready (L := L) devices t p) {content sent : List Byte} (hne : content ≠ []) (hsent : FromSync content sent)
    (hint : 8 * sent.length < 2 ^ 31) (hover : 2 ^ 31 ≤ 8 * sent.length + (devices.length - 1) + 7) (path : String) :
    PlConfig.program (Target.chain L) path (some content) p = none := by
  obtain rfl : sent = payload content := (fromSync_payload content).unique hsent
  have h₀ : Ready (L := L) devices t { p with record := {} } := ⟨h.rest, h.index, h.lt⟩
  obtain ⟨p₁, e₁, h₁, -⟩ := h₀.selectCfgIn hbyp
  have hbody : (payload content).map bitReverseByte ≠ [] := by
    rw [ne_eq, List.map_eq_nil_iff]
    exact payload_ne_nil hne
  have hshift : PlConfig.shiftBitstream (Target.chain L) ((payload content).map bitReverseByte) p₁ = none := by
    refine shiftBitstream_of_overflow _ ?_ ?_
    · rwa [List.length_map]
    · rwa [List.length_map, h₁.bypassCount]
  rw [PlConfig.program, Method.modify_bind, loadBitstream_eq hne]
  simp only [if_neg hbody]
  rw [Method.bind_of_eq _ e₁, if_pos rfl, scanStep]
  exact Method.bind_of_none _ (Method.bind_of_none _ hshift)

/-- All ones puts a device with a boundary register in BYPASS. -/
theorem bypass_boundary (d : BoundaryDevice) :
    BoundaryDevice.logic.capture .dr
      (BoundaryDevice.logic.update .ir d (List.replicate (BoundaryDevice.logic.irWidth d) true)) = [false] :=
  BoundaryDevice.captureDr_bypass rfl

/-- A PL TAP nearest TDO, with an ARM DAP behind it. -/
def zynq : PlConfig (List (Device BoundaryDevice)) := ⟨JtagChain.two, 0, "", {}⟩

theorem zynq_ready : Ready (L := BoundaryDevice.logic) JtagChain.two.devices 0 zynq where
  rest := ⟨⟨JtagChain.idle_synced _ _, rfl, JtagChain.idle_delivers _ _⟩, ⟨rfl, by decide⟩, rfl⟩
  index := rfl
  lt := by decide

/-- A file with one byte before the sync word. -/
theorem zynq_receives :
    ∃ body p₁ p₂, loadBitstream (some [0x01, 0xAA, 0x99, 0x55, 0x66, 0x20]) = some body ∧
      PlConfig.selectCfgIn (Target.chain BoundaryDevice.logic) { zynq with record := {} } = some (true, p₁) ∧
      scanStep (PlConfig.shiftBitstream (Target.chain BoundaryDevice.logic) body) p₁ = some (true, p₂) ∧
      PlConfig.program (Target.chain BoundaryDevice.logic) "" (some [0x01, 0xAA, 0x99, 0x55, 0x66, 0x20]) zynq =
        (do if ← PlConfig.startUp (Target.chain BoundaryDevice.logic) then verify (Target.chain BoundaryDevice.logic)
            else pure false) p₂ ∧
      FtdiDevice.arrivalsSince BoundaryDevice.logic 0 p₁.chain.tap.device p₂.chain.tap.device =
        List.replicate 1 false ++
          (([0xAA, 0x99, 0x55, 0x66, 0x20] : List Byte).flatMap msbFirst ++ List.replicate 0 false) := by
  have hsent : FromSync [0x01, 0xAA, 0x99, 0x55, 0x66, 0x20] [0xAA, 0x99, 0x55, 0x66, 0x20] := fromSync_payload _
  exact program_delivers bypass_boundary zynq_ready (List.cons_ne_nil _ _) hsent (by decide) ""

/-- A file of one byte less than 2²⁸, without a sync word: rounding its bits, and the one for the other device, up to
bytes overflows. -/
theorem zynq_overflows :
    ∃ len, len = 2 ^ 28 - 1 ∧ FromSync (List.replicate len 0) (List.replicate len 0) ∧
      PlConfig.program (Target.chain BoundaryDevice.logic) "" (some (List.replicate len 0)) zynq = none := by
  obtain ⟨len, hlen⟩ : ∃ len, len = 2 ^ 28 - 1 := ⟨_, rfl⟩
  have hne : List.replicate len (0 : Byte) ≠ [] := by
    rw [ne_eq, List.replicate_eq_nil_iff]
    omega
  have hsent : FromSync (List.replicate len 0) (List.replicate len 0) := by
    refine .inr ⟨rfl, fun hinfix => ?_⟩
    have hmem : (0xAA : Byte) ∈ List.replicate len 0 := hinfix.subset (by decide)
    exact absurd (List.eq_of_mem_replicate hmem) (by decide)
  refine ⟨len, hlen, hsent, zynq_ready.program_overflows bypass_boundary hne hsent ?_ ?_ ""⟩
  · rw [List.length_replicate]
    omega
  · rw [List.length_replicate, show JtagChain.two.devices.length = 2 from rfl]
    omega

end PlConfig

end Config

end OwlTap
