import OwlTap.Base.BoundaryDevice
import OwlTap.Jtag.SelectInstruction

/-!
# Enumeration of the chain

After a reset every device presents its IDCODE or one BYPASS bit, and `detectDevices` reads
these bits and then the zeros that it shifts in itself. A zero may therefore be a BYPASS
device or the end of the chain; the decoder takes it for a device when a one is among the
31 bits that follow. So it finds the devices, all of them and no others, if and only if
every BYPASS device has a device with an IDCODE among the 31 after it.
-/

namespace OwlTap.Jtag

open OwlTap Ftdi

/-! ### What devices present -/

/-- What a device presents after a reset. -/
inductive Identity where
  /-- A 32-bit IDCODE, bit 0 set and not all ones. -/
  | idcode (id : BitVec 32) (lsb : id.getLsbD 0 = true) (ne : id ≠ 0xFFFFFFFF)
  /-- The BYPASS register. -/
  | bypass

namespace Identity

/-- The bits presented. -/
def bits : Identity → List Bool
  | idcode id _ _ => (List.range 32).map id.getLsbD
  | bypass => [false]

/-- The IDCODE, 0 for BYPASS. -/
def code : Identity → BitVec 32
  | idcode id _ _ => id
  | bypass => 0

/-- Whether there is an IDCODE. -/
def isIdcode : Identity → Bool
  | idcode .. => true
  | bypass => false

/-- The bits of a chain. -/
def stream (ps : List Identity) : List Bool := ps.flatMap bits

/-- Every BYPASS device has a device with an IDCODE among the 31 after it. -/
def Seen : List Identity → Prop
  | [] => True
  | idcode .. :: ps => Seen ps
  | bypass :: ps => (∃ p ∈ ps.take 31, p.isIdcode) ∧ Seen ps

/-- The first `m` bits of a chain are zeros if and only if its first `m` devices are in BYPASS. -/
theorem stream_zero_iff (ps : List Identity) (m : ℕ) :
    (∀ i < m, (stream ps).getD i false = false) ↔ ¬∃ p ∈ ps.take m, p.isIdcode := by
  induction ps generalizing m with
  | nil => simp [stream]
  | cons p ps ih =>
    cases m with
    | zero => simp
    | succ m =>
      cases p with
      | idcode id lsb ne =>
        refine ⟨fun h => ?_, fun h => absurd ⟨_, List.mem_cons_self, rfl⟩ h⟩
        have hget : (stream (idcode id lsb ne :: ps)).getD 0 false = id.getLsbD 0 := rfl
        rw [h 0 (Nat.succ_pos m), lsb] at hget
        cases hget
      | bypass =>
        have hget : ∀ i, (stream (bypass :: ps)).getD (i + 1) false = (stream ps).getD i false := fun i => by
          simp [stream, bits]
        have hzero : (stream (bypass :: ps)).getD 0 false = false := by simp [stream, bits]
        have htake : (∃ p ∈ (bypass :: ps).take (m + 1), p.isIdcode) ↔ ∃ p ∈ ps.take m, p.isIdcode := by
          simp [isIdcode]
        rw [htake, ← ih m]
        constructor
        · intro h i hi
          rw [← hget]
          exact h (i + 1) (Nat.succ_lt_succ hi)
        · intro h i hi
          cases i with
          | zero => exact hzero
          | succ i => rw [hget]; exact h i (Nat.lt_of_succ_lt_succ hi)

end Identity

/-! ### Decoding -/

theorem getLsbD_orFold (f : ℕ → Bool) (n : ℕ) {j : ℕ} (hj : j < 32) :
    ((List.range n).foldl (fun v i => if f i then v ||| 1#32 <<< i else v) 0#32).getLsbD j =
      (decide (j < n) && f j) := by
  induction n with
  | zero => simp
  | succ n ih =>
    have hbit : (1#32 <<< n).getLsbD j = decide (j = n) := getLsbD_one_shiftLeft hj
    rw [List.range_succ, List.foldl_append, List.foldl_cons, List.foldl_nil]
    by_cases hn : j = n
    · subst hn
      cases hf : f j <;> simp [ih, hf, hbit]
    · have hlt : decide (j < n + 1) = decide (j < n) := decide_eq_decide.mpr (by omega)
      rw [hlt, ← ih]
      cases f n with
      | false => rfl
      | true => rw [if_pos rfl, BitVec.getLsbD_or, hbit, decide_eq_false hn, Bool.or_false]

/-- The TDO bytes from `bitPos` on are the bits of the devices `ps`, and zeros. -/
structure Presents (tdo : List Byte) (bitPos : ℕ) (ps : List Identity) : Prop where
  /-- All bits were read. -/
  length : tdo.length = 32
  /-- The bits. -/
  bitAt : ∀ i, bitAt tdo (bitPos + i) = (Identity.stream ps).getD i false
  /-- The devices' bits are among those read. -/
  room : bitPos + (Identity.stream ps).length ≤ maxBits

namespace Presents

variable {tdo : List Byte} {bitPos : ℕ} {p : Identity} {ps : List Identity}

/-- The bits after those of the first device are the bits of the others. -/
theorem tail (h : Presents tdo bitPos (p :: ps)) : Presents tdo (bitPos + p.bits.length) ps := by
  have hs : Identity.stream (p :: ps) = p.bits ++ Identity.stream ps := List.flatMap_cons
  refine ⟨h.length, fun i => ?_, ?_⟩
  · rw [Nat.add_assoc, h.bitAt, hs, List.getD_append_right _ _ _ _ (Nat.le_add_right _ _), Nat.add_sub_cancel_left]
  · have := h.room
    rw [hs, List.length_append] at this
    omega

theorem bitAt_zero (h : Presents tdo bitPos (p :: ps)) : OwlTap.bitAt tdo bitPos = p.bits.getD 0 false := by
  have := h.bitAt 0
  rw [Nat.add_zero] at this
  rw [this]
  cases p <;> rfl

/-- The decoder sees 32 zeros if and only if the next 32 devices are in BYPASS. -/
theorem allZero_iff (h : Presents tdo bitPos ps) : allZero tdo bitPos = true ↔ ¬∃ p ∈ ps.take 32, p.isIdcode := by
  rw [← Identity.stream_zero_iff, allZero, List.all_eq_true]
  have hone : ∀ i, (!(decide (bitPos + i < maxBits) && OwlTap.bitAt tdo (bitPos + i))) = true ↔
      (Identity.stream ps).getD i false = false := by
    intro i
    rw [h.bitAt]
    by_cases hi : bitPos + i < maxBits
    · simp [hi]
    · have hr := h.room
      rw [List.getD_eq_default _ _ (by omega)]
      simp
  exact ⟨fun ha i hi => (hone i).mp (ha i (List.mem_range.mpr hi)),
    fun ha i hi => (hone i).mpr (ha i (List.mem_range.mp hi))⟩

/-- The decoder reads the IDCODE of the first device. -/
theorem idcodeAt_eq {id : BitVec 32} {lsb : id.getLsbD 0 = true} {ne : id ≠ 0xFFFFFFFF}
    (h : Presents tdo bitPos (.idcode id lsb ne :: ps)) : idcodeAt tdo bitPos = id := by
  apply BitVec.eq_of_getLsbD_eq
  intro j hj
  have hroom := h.room
  have hs : Identity.stream (.idcode id lsb ne :: ps) = (List.range 32).map id.getLsbD ++ Identity.stream ps :=
    List.flatMap_cons
  rw [hs, List.length_append, List.length_map, List.length_range] at hroom
  have hfold := getLsbD_orFold (fun i => decide (bitPos + i < maxBits ∧ OwlTap.bitAt tdo (bitPos + i))) 32 hj
  simp only [decide_eq_true_eq] at hfold
  refine hfold.trans ?_
  rw [h.bitAt, hs, List.getD_append _ _ _ _ (by simpa using hj)]
  simp [hj, show bitPos + j < maxBits by omega]

end Presents

/-- The positions and IDCODEs of a list of devices, from position `k` on. -/
def listed : (k : ℕ) → List Identity → List (ℕ × BitVec 32)
  | _, [] => []
  | k, p :: ps => (k, p.code) :: listed (k + 1) ps

/-- What is found of a device. -/
def ChainDevice.entry (d : ChainDevice) : ℕ × BitVec 32 := (d.position, d.idcode)

/-- The decoder finds the devices if and only if every BYPASS device is seen for one. -/
theorem decodeDevices_eq_iff {tdo : List Byte} {ps : List Identity} {fuel bitPos k : ℕ}
    (h : Presents tdo bitPos ps) (hf : ps.length < fuel) :
    (decodeDevices tdo fuel bitPos k).map ChainDevice.entry = listed k ps ↔ Identity.Seen ps := by
  induction ps generalizing fuel bitPos k with
  | nil =>
    obtain ⟨fuel, rfl⟩ : ∃ m, fuel = m + 1 := ⟨fuel - 1, by omega⟩
    have hb : bitAt tdo bitPos = false := h.bitAt 0
    have hz : allZero tdo bitPos = true := h.allZero_iff.mpr (by simp)
    have hnil : decodeDevices tdo (fuel + 1) bitPos k = [] := by
      rw [decodeDevices, if_pos hb, if_pos hz]
      exact ite_self _
    rw [hnil]
    exact ⟨fun _ => trivial, fun _ => rfl⟩
  | cons p ps ih =>
    obtain ⟨fuel, rfl⟩ : ∃ m, fuel = m + 1 := ⟨fuel - 1, by omega⟩
    have hfuel : ps.length < fuel := by simpa using hf
    have hin : ¬(maxBits ≤ bitPos ∨ tdo.length ≤ bitPos / 8) := by
      have hroom := h.tail.room
      have hpos : 1 ≤ p.bits.length := by cases p <;> simp [Identity.bits]
      have hlen := h.length
      simp only [maxBits] at hroom ⊢
      omega
    cases p with
    | idcode id lsb ne =>
      have hb : bitAt tdo bitPos = true := h.bitAt_zero.trans lsb
      have ih := ih (k := k + 1) h.tail hfuel
      rw [show (Identity.idcode id lsb ne).bits.length = 32 by simp [Identity.bits]] at ih
      rw [decodeDevices, if_neg hin, if_neg (by simp [hb])]
      simp only [h.idcodeAt_eq, if_neg ne, List.map_cons, listed, ChainDevice.entry, Identity.code, List.cons.injEq,
        true_and]
      exact ih
    | bypass =>
      have hb : bitAt tdo bitPos = false := h.bitAt_zero
      have ih := ih (k := k + 1) h.tail hfuel
      have hz : allZero tdo bitPos = true ↔ ¬∃ p ∈ ps.take 31, p.isIdcode := by
        rw [h.allZero_iff]
        simp [Identity.isIdcode]
      rw [decodeDevices, if_neg hin, if_pos hb]
      by_cases hseen : ∃ p ∈ ps.take 31, p.isIdcode
      · rw [if_neg fun hall => hz.mp hall hseen]
        simp only [List.map_cons, listed, ChainDevice.entry, Identity.code, List.cons.injEq, true_and]
        exact ih.trans ⟨fun hs => ⟨hseen, hs⟩, fun hs => hs.2⟩
      · rw [if_pos (hz.mpr hseen)]
        exact ⟨nofun, fun hs => absurd hs.1 hseen⟩

/-- The instruction register of a device with an IDCODE is as long as its manufacturer's are taken to be. -/
theorem irLength_of_mem_decodeDevices {tdo : List Byte} {fuel bitPos k : ℕ} {dev : ChainDevice}
    (h : dev ∈ decodeDevices tdo fuel bitPos k) (h0 : dev.idcode ≠ 0) : dev.irLength = irLengthOf dev.idcode := by
  induction fuel generalizing bitPos k with
  | zero => cases h
  | succ fuel ih =>
    rw [decodeDevices] at h
    split at h
    · cases h
    split at h
    · split at h
      · cases h
      rcases List.mem_cons.mp h with rfl | h
      · exact absurd rfl h0
      · exact ih h
    · dsimp only at h
      split at h
      · cases h
      rcases List.mem_cons.mp h with rfl | h
      · rfl
      · exact ih h

/-! ### The enumeration -/

section

variable {δ : Type} (L : TestLogic δ)

/-- After `reset` every device presents its identity, and the chain is in RUN-TEST/IDLE. -/
theorem run_resetPins (p : Port (List (Device δ))) :
    ∃ ch, p.run (Target.chain L) TapController.resetPins = ⟨.runTestIdle, ch⟩ ∧
      ch.map (fun d => L.capture .dr d.core) = p.target.map fun d => L.identity d.core := by
  obtain ⟨q, hq⟩ : ∃ q, q = p.run (Target.chain L) (List.replicate 5 ⟨true, false⟩) := ⟨_, rfl⟩
  have hstate : q.state = .testLogicReset := by
    rw [hq, Port.state_run]
    exact TapState.run_five_ones p.state
  have hids := Chain.identities_run L p (List.replicate 5 ⟨true, false⟩)
  obtain ⟨s, ch⟩ := q
  obtain rfl : s = .testLogicReset := hstate
  refine ⟨ch.map (Device.reset L), ?_, ?_⟩
  · rw [TapController.resetPins, Port.run_append, ← hq]
    rfl
  · rw [← hids, ← hq, List.map_map]
    exact List.map_congr_left fun d _ => L.capture_reset d.core

/-- The bytes read after a reset present the devices. -/
theorem presents_of_shifts {rs : List (List Bool)} {ps : List Identity} (h : rs = ps.map Identity.bits)
    (hroom : (Identity.stream ps).length ≤ maxBits) :
    Presents (packBits (Series.shifts rs (List.replicate maxBits false)).2) 0 ps := by
  have hl : (Series.shifts rs (List.replicate maxBits false)).2.length = maxBits := by simp
  have hflat : rs.flatten = Identity.stream ps := by rw [h, Identity.stream, List.flatMap_def]
  have happ := Series.outs_append_flatten_shifts rs (List.replicate maxBits false)
  refine ⟨by rw [length_packBits, hl]; rfl, fun i => ?_, by rwa [Nat.zero_add]⟩
  rw [Nat.zero_add, bitAt_packBits]
  by_cases hi : i < maxBits
  · have := congrArg (·.getD i false) happ
    simp only [hflat] at this
    rw [List.getD_append _ _ _ _ (by rwa [hl])] at this
    rw [this]
    by_cases hs : i < (Identity.stream ps).length
    · rw [List.getD_append _ _ _ _ hs]
    · rw [List.getD_append_right _ _ _ _ (by omega), List.getD_eq_default _ _ (Nat.le_of_not_lt hs)]
      simp
  · rw [List.getD_eq_default _ _ (by omega), List.getD_eq_default _ _ (by omega)]

theorem length_le_stream (ps : List Identity) : ps.length ≤ (Identity.stream ps).length := by
  induction ps with
  | nil => exact le_refl _
  | cons p ps ih =>
    have hp : 1 ≤ p.bits.length := by cases p <;> simp [Identity.bits]
    rw [Identity.stream, List.flatMap_cons, List.length_append, List.length_cons, ← Identity.stream]
    omega

namespace JtagChain

/-- The TCK cycles of `detectDevices`. -/
def detectPins : List Pins :=
  TapController.resetPins ++ (List.replicate 10 ⟨false, false⟩ ++
    TapController.scanTrack .runTestIdle .dr (List.replicate ((maxBits + 7) / 8) 0) maxBits)

/-- What is read after a reset: `detectDevices` decodes the bits presented, and the chain is in RUN-TEST/IDLE
then. -/
theorem detectDevices_spec {c : JtagChain (List (Device δ))} {t : Bool} (hw : c.tap.device.Waits t)
    (hd : c.tap.device.Delivers) {ps : List Identity}
    (hp : c.tap.device.link.port.target.map (fun d => L.identity d.core) = ps.map Identity.bits)
    (hroom : (Identity.stream ps).length ≤ maxBits) :
    ∃ tdo c', detectDevices (Target.chain L) c = some (c'.devices.length, c') ∧ Presents tdo 0 ps ∧
      c'.devices = decodeDevices tdo (maxBits + 1) 0 0 ∧
      c'.tap.Synced ∧ c'.tap.state = .runTestIdle ∧ c'.tap.device.Delivers ∧
      c'.tap.device.link.port = c.tap.device.link.port.run (Target.chain L) detectPins := by
  obtain ⟨d₁, e₁, hs₁, hc₁, ho₁⟩ := TapController.reset_spec (T := Target.chain L) hw hd.noCut
  have hd₁ : d₁.Delivers := fun o h => hd o (List.mem_of_mem_drop (ho₁ ▸ h))
  obtain ⟨d₂, m, e₂, hs₂, hc₂, ho₂⟩ := TapController.clkIdle_spec (T := Target.chain L) 10 hs₁ hd₁.noCut
  have hd₂ : d₂.Delivers := fun o h => hd₁ o (List.mem_of_mem_drop (ho₂ ▸ h))
  have hzeros : bytesFor maxBits ≤ (List.replicate ((maxBits + 7) / 8) (0 : Byte)).length := by decide
  obtain ⟨d₃, e₃, hs₃, hc₃, hd₃⟩ := TapController.shiftDR_delivered (T := Target.chain L)
    (show 1 ≤ maxBits by decide) hzeros hs₂ hd₂
  -- the chain when the scan starts
  obtain ⟨ch, hch, hcap⟩ := run_resetPins L c.tap.device.link.port
  have hport : d₂.link.port = ⟨.runTestIdle, ch⟩ := by
    rw [hc₂.port, hc₁.port, hch, pathPins_self, List.nil_append, run_idle]
  have hregs : (shiftStart L ⟨.runTestIdle, ch⟩ .dr).target.map Device.reg = ps.map Identity.bits := by
    rw [shiftStart_idle, List.map_map, ← hp, ← hcap]; rfl
  have hsamples : TapController.trackSamples (Target.chain L) ⟨d₂, .runTestIdle, c.tap.lastError⟩ .dr
      (List.replicate ((maxBits + 7) / 8) 0) maxBits =
      (Series.shifts (ps.map Identity.bits) (List.replicate maxBits false)).2 := by
    have := (run_scanTrack L ⟨.runTestIdle, ch⟩ .dr (List.replicate ((maxBits + 7) / 8) 0)
      (show 1 ≤ maxBits by decide)).1
    rw [hregs, bits_replicate_zero] at this
    rw [TapController.trackSamples, hport]
    exact this
  rw [hsamples] at e₃
  have e₁' : onTap (TapController.reset (Target.chain L)) { c with devices := [] } =
      some (true, ⟨⟨d₁, .runTestIdle, c.tap.lastError⟩, [], c.lastError⟩) := onTap_of_eq e₁
  have e₂' : onTap (TapController.clkIdle (Target.chain L) 10)
      ⟨⟨d₁, .runTestIdle, c.tap.lastError⟩, [], c.lastError⟩ =
      some (true, ⟨⟨d₂, .runTestIdle, c.tap.lastError⟩, [], c.lastError⟩) := onTap_of_eq e₂
  have e₃' : onTap (TapController.readDR (Target.chain L) [] maxBits)
      ⟨⟨d₂, .runTestIdle, c.tap.lastError⟩, [], c.lastError⟩ = some ((true, _),
        ⟨⟨d₃, .runTestIdle, c.tap.lastError⟩, [], c.lastError⟩) := onTap_of_eq e₃
  obtain ⟨tdo, htdo⟩ : ∃ tdo, tdo = packBits (Series.shifts (ps.map Identity.bits) (List.replicate maxBits false)).2 :=
    ⟨_, rfl⟩
  rw [← htdo] at e₃'
  refine ⟨tdo, ⟨⟨d₃, .runTestIdle, c.tap.lastError⟩, decodeDevices tdo (maxBits + 1) 0 0,
    if decodeDevices tdo (maxBits + 1) 0 0 = [] then rawTdo tdo else ""⟩, ?_, htdo ▸ presents_of_shifts rfl hroom, rfl,
    hs₃, rfl, hd₃, ?_⟩
  · rw [detectDevices, Method.modify_bind, Method.bind_of_eq _ e₁', if_pos rfl, Method.bind_of_eq _ e₂', if_pos rfl,
      Method.bind_of_eq _ e₃']
    rfl
  · show d₃.link.port = _
    rw [hc₃.port, hc₂.port, hc₁.port, pathPins_self, List.nil_append, detectPins, Port.run_append, Port.run_append]

/-- **Enumeration.** On a chain whose devices present IDCODEs or BYPASS bits after a reset, 256 bits
at most, and with every transfer delivered, `detectDevices` finds the devices in order with their
IDCODEs, none missing, added or split, if and only if every BYPASS device has a device with an
IDCODE among the 31 after it. -/
theorem detectDevices_exact_iff {c : JtagChain (List (Device δ))} {t : Bool} (hw : c.tap.device.Waits t)
    (hd : c.tap.device.Delivers) {ps : List Identity}
    (hp : c.tap.device.link.port.target.map (fun d => L.identity d.core) = ps.map Identity.bits)
    (hroom : (Identity.stream ps).length ≤ maxBits) :
    ∃ c', detectDevices (Target.chain L) c = some (c'.devices.length, c') ∧
      (c'.devices.map ChainDevice.entry = listed 0 ps ↔ Identity.Seen ps) := by
  obtain ⟨tdo, c', e, hpres, hdev, -⟩ := detectDevices_spec L hw hd hp hroom
  have hlen : ps.length < maxBits + 1 := Nat.lt_succ_of_le ((length_le_stream ps).trans hroom)
  exact ⟨c', e, by rw [hdev]; exact decodeDevices_eq_iff hpres hlen⟩

end JtagChain

end

/-! ### A BYPASS device at the end -/

namespace JtagChain

/-- What the two devices present: an IDCODE nearest TDO, and BYPASS behind it. -/
def twoIdentities : List Identity := [.idcode 0x13722093 (by decide) (by decide), .bypass]

theorem two_identities :
    two.tap.device.link.port.target.map (fun d => BoundaryDevice.logic.identity d.core) =
      twoIdentities.map Identity.bits := rfl

theorem detectDevices_two :
    ∃ c', detectDevices (Target.chain BoundaryDevice.logic) two = some (c'.devices.length, c') ∧
      c'.devices.map ChainDevice.entry ≠ [(0, 0x13722093), (1, 0)] := by
  obtain ⟨c', e, hiff⟩ := detectDevices_exact_iff BoundaryDevice.logic (c := two) (idle_synced _ _).waits
    (idle_delivers _ _) two_identities (by decide)
  refine ⟨c', e, fun h => ?_⟩
  obtain ⟨⟨p, hp, -⟩, -⟩ : Identity.Seen [.bypass] := hiff.mp h
  cases hp

/-- The host misses the device in BYPASS at the far end of the chain. -/
theorem detectDevices_misses_bypass :
    two.tap.device.link.port.target.map (fun d => BoundaryDevice.logic.identity d.core) =
        twoIdentities.map Identity.bits ∧
      (detectDevices (Target.chain BoundaryDevice.logic) two).map
          (fun r => (r.1, r.2.devices.map ChainDevice.entry)) = some (1, [(0, 0x13722093)]) :=
  ⟨rfl, by decide +kernel⟩

end JtagChain

end OwlTap.Jtag
