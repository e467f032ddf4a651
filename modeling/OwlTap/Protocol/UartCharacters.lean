import Mathlib.Algebra.Order.Field.Rat
import Mathlib.Algebra.Order.Floor.Ring
import Mathlib.Data.List.Chain
import Mathlib.Data.List.Range
import Mathlib.Data.Rat.Floor
import Mathlib.Tactic.Linarith
import OwlTap.Base.BinaryValue
import OwlTap.Protocol.UartDecoder

/-!
# Characters on a serial line

The line is idle, or at the level of the bit of the character that is being sent (`lineAt`). If
samples are less than half a bit apart, the first low one comes in the first half of the start bit,
each sample that is taken for a bit lies in it (`advance_bit`), and the search goes on in the stop
bits: so what is decoded of characters is what they are, with whatever gaps between them
(`decodeUart_characters`).
-/

namespace OwlTap.Protocol

open OwlTap Bsdl BoundaryScan Capture

/-! ### Characters on the line -/

namespace UartConfig

/-- The data bits of a character, least significant one first. -/
def charBits (cfg : UartConfig) (c : BitVec cfg.dataBits) : List Bool := (List.range cfg.dataBits).map c.getLsbD

/-- The parity bit, if there is one: it makes the number of high bits odd or even. -/
def parityBits (cfg : UartConfig) (c : BitVec cfg.dataBits) : List Bool :=
  if cfg.parityEnable then [decide ((cfg.charBits c).count true % 2 ≠ if cfg.parityOdd then 1 else 0)] else []

/-- A character on the line: a start bit, the data, the parity, and the stop bits. -/
def frameBits (cfg : UartConfig) (c : BitVec cfg.dataBits) : List Bool :=
  false :: (cfg.charBits c ++ cfg.parityBits c ++ List.replicate cfg.stopBits true)

/-- How many bits these are. -/
def frameLength (cfg : UartConfig) : ℕ := 1 + cfg.totalDataParityBits + cfg.stopBits

/-- The level of the line at a time, when characters are sent one after the other, each after a gap in which the line is
idle. -/
def lineAt (cfg : UartConfig) : List (ℚ × BitVec cfg.dataBits) → (originUs tUs : ℚ) → Bool
  | [], _, _ => true
  | (gap, c) :: rest, originUs, tUs =>
    let startUs := originUs + gap
    if tUs < startUs then true
    else if tUs < startUs + cfg.bitUs * cfg.frameLength then
      (cfg.frameBits c).getD ⌊(tUs - startUs) / cfg.bitUs⌋.toNat true
    else cfg.lineAt rest (startUs + cfg.bitUs * cfg.frameLength) tUs

/-- When the last stop bit ends. -/
def endUs (cfg : UartConfig) : List (ℚ × BitVec cfg.dataBits) → (originUs : ℚ) → ℚ
  | [], originUs => originUs
  | (gap, _) :: rest, originUs => cfg.endUs rest (originUs + gap + cfg.bitUs * cfg.frameLength)

/-- Samples in order, less than half a bit apart. -/
def Spaced (cfg : UartConfig) (t0Frame : SampleFrame) (samples : List SampleFrame) : Prop :=
  samples.IsChain fun a b => sampleTimeUs a t0Frame ≤ sampleTimeUs b t0Frame ∧
    sampleTimeUs b t0Frame < sampleTimeUs a t0Frame + cfg.bitUs / 2

end UartConfig

/-- Samples go on at least until a point of time. -/
def Reaches (t0Frame : SampleFrame) (tUs : ℚ) (samples : List SampleFrame) : Prop :=
  ∃ last, samples.getLast? = some last ∧ tUs ≤ sampleTimeUs last t0Frame

/-- Samples of a line on which characters are sent, from when it is idle until the middle of the last stop bit or later. -/
structure UartConfig.Captures (cfg : UartConfig) (chars : List (ℚ × BitVec cfg.dataBits)) (t0Frame : SampleFrame)
    (samples : List SampleFrame) : Prop where
  spaced : cfg.Spaced t0Frame samples
  line : ∀ frame ∈ samples, samplePinValue frame cfg.rxPin = cfg.lineAt chars 0 (sampleTimeUs frame t0Frame)
  gaps : ∀ sent ∈ chars, 0 ≤ sent.1
  idle : ∀ sent ∈ chars.head?, 0 < sent.1
  reaches : chars ≠ [] → Reaches t0Frame (cfg.endUs chars 0 - cfg.bitUs / 2) samples

/-! ### The line -/

namespace UartConfig

variable {cfg : UartConfig}

theorem bitUs_pos (hbaud : cfg.baudRate ≠ 0) : 0 < cfg.bitUs :=
  div_pos (by norm_num) (Nat.cast_pos.mpr (Nat.pos_of_ne_zero hbaud))

theorem lineAt_idle {gap originUs tUs : ℚ} {c : BitVec cfg.dataBits} {rest : List (ℚ × BitVec cfg.dataBits)}
    (h : tUs < originUs + gap) : cfg.lineAt ((gap, c) :: rest) originUs tUs = true := if_pos h

/-- Within a bit the line is at its level. -/
theorem lineAt_bit (hbit : 0 < cfg.bitUs) {gap originUs tUs : ℚ} {c : BitVec cfg.dataBits}
    {rest : List (ℚ × BitVec cfg.dataBits)} {k : ℕ} (hk : k < cfg.frameLength)
    (hle : originUs + gap + cfg.bitUs * k ≤ tUs) (hlt : tUs < originUs + gap + cfg.bitUs * k + cfg.bitUs) :
    cfg.lineAt ((gap, c) :: rest) originUs tUs = (cfg.frameBits c).getD k true := by
  have hstart : ¬tUs < originUs + gap := by
    have : 0 ≤ cfg.bitUs * k := mul_nonneg hbit.le (Nat.cast_nonneg k)
    linarith
  have hend : tUs < originUs + gap + cfg.bitUs * cfg.frameLength := by
    have hle : ((k : ℚ) + 1) ≤ cfg.frameLength := by exact_mod_cast hk
    have := mul_le_mul_of_nonneg_left hle hbit.le
    linarith
  have hfloor : ⌊(tUs - (originUs + gap)) / cfg.bitUs⌋ = (k : ℤ) := by
    rw [Int.floor_eq_iff, le_div_iff₀ hbit, div_lt_iff₀ hbit, Int.cast_natCast]
    constructor
    · linarith
    · linarith
  rw [lineAt, if_neg hstart, if_pos hend, hfloor, Int.toNat_natCast]

theorem length_charBits (c : BitVec cfg.dataBits) : (cfg.charBits c).length = cfg.dataBits := by
  rw [charBits, List.length_map, List.length_range]

theorem length_data_parity (c : BitVec cfg.dataBits) :
    (cfg.charBits c ++ cfg.parityBits c).length = cfg.totalDataParityBits := by
  rw [List.length_append, length_charBits, totalDataParityBits, parityBits]
  split <;> rfl

/-- The data bits come after the start bit. -/
theorem frameBits_data (c : BitVec cfg.dataBits) {k : ℕ} (hk : k < cfg.dataBits) :
    (cfg.frameBits c).getD (k + 1) true = c.getLsbD k := by
  have hk' : k < (cfg.charBits c).length := by rwa [length_charBits]
  rw [frameBits, List.getD_cons_succ, List.append_assoc, List.getD_append _ _ _ _ hk', List.getD_eq_getElem _ _ hk']
  exact (List.getElem_map _).trans (congrArg _ (List.getElem_range _))

/-- Then comes the parity bit. -/
theorem frameBits_parity (c : BitVec cfg.dataBits) (hparity : cfg.parityEnable = true) :
    (cfg.frameBits c).getD (cfg.dataBits + 1) true = cfg.expectedParity ((cfg.charBits c).count true) := by
  have hbit : ∀ (ones : ℕ) (odd : Bool), decide (ones % 2 ≠ if odd then 1 else 0) =
      if odd then decide (ones % 2 = 0) else decide (ones % 2 = 1) := by
    intro ones odd
    rcases Nat.mod_two_eq_zero_or_one ones with h | h <;> rw [h] <;> cases odd <;> rfl
  have hlength := length_charBits c
  rw [frameBits, List.getD_cons_succ, List.append_assoc, List.getD_append_right _ _ _ _ hlength.le, hlength, Nat.sub_self,
    parityBits, if_pos hparity, hbit]
  rfl

/-- All that follows is high. -/
theorem frameBits_stop (c : BitVec cfg.dataBits) {k : ℕ} (hk : 1 + cfg.totalDataParityBits ≤ k) :
    (cfg.frameBits c).getD k true = true := by
  obtain ⟨k, rfl⟩ := Nat.exists_eq_add_of_le' (Nat.le_of_add_right_le hk)
  have hlength := length_data_parity c
  rw [frameBits, List.getD_cons_succ, List.getD_append_right _ _ _ _ (by rw [hlength]; omega)]
  generalize k - (cfg.charBits c ++ cfg.parityBits c).length = i
  by_cases hi : i < cfg.stopBits
  · rw [List.getD_replicate _ hi]
  · rw [List.getD_eq_default _ _ (by rw [List.length_replicate]; omega)]

/-- Before the characters the line is idle. -/
theorem lineAt_before {chars : List (ℚ × BitVec cfg.dataBits)} (hgaps : ∀ sent ∈ chars, 0 ≤ sent.1) {originUs tUs : ℚ}
    (h : tUs < originUs) : cfg.lineAt chars originUs tUs = true := by
  cases chars with
  | nil => rfl
  | cons sent rest =>
    have hgap := hgaps sent List.mem_cons_self
    exact lineAt_idle (by linarith)

/-- From the stop bits on the line is as if the character had not been. -/
theorem lineAt_after (hbit : 0 < cfg.bitUs) {gap originUs tUs : ℚ} {c : BitVec cfg.dataBits}
    {rest : List (ℚ × BitVec cfg.dataBits)} (hgaps : ∀ sent ∈ rest, 0 ≤ sent.1)
    (h : originUs + gap + cfg.bitUs * (1 + cfg.totalDataParityBits) ≤ tUs) :
    cfg.lineAt ((gap, c) :: rest) originUs tUs =
      cfg.lineAt rest (originUs + gap + cfg.bitUs * cfg.frameLength) tUs := by
  have hstart : ¬tUs < originUs + gap := by
    have : 0 ≤ cfg.bitUs * (1 + cfg.totalDataParityBits) := mul_nonneg hbit.le (by positivity)
    linarith
  by_cases hend : tUs < originUs + gap + cfg.bitUs * cfg.frameLength
  · have hfloor : 1 + cfg.totalDataParityBits ≤ ⌊(tUs - (originUs + gap)) / cfg.bitUs⌋.toNat := by
      have hle : ((1 + cfg.totalDataParityBits : ℕ) : ℤ) ≤ ⌊(tUs - (originUs + gap)) / cfg.bitUs⌋ := by
        rw [Int.le_floor, le_div_iff₀ hbit]
        push_cast
        linarith
      omega
    rw [lineAt, if_neg hstart, if_pos hend, frameBits_stop c hfloor, lineAt_before hgaps hend]
  · rw [lineAt, if_neg hstart, if_neg hend]

theorem le_endUs (hbit : 0 < cfg.bitUs) {chars : List (ℚ × BitVec cfg.dataBits)} (hgaps : ∀ sent ∈ chars, 0 ≤ sent.1)
    (originUs : ℚ) : originUs ≤ cfg.endUs chars originUs := by
  induction chars generalizing originUs with
  | nil => exact le_refl _
  | cons sent rest ih =>
    obtain ⟨hgap, hrest⟩ := List.forall_mem_cons.mp hgaps
    have hlength : 0 ≤ cfg.bitUs * cfg.frameLength := mul_nonneg hbit.le (Nat.cast_nonneg _)
    have hle : originUs ≤ originUs + sent.1 + cfg.bitUs * cfg.frameLength := by linarith
    exact hle.trans (ih hrest _)

end UartConfig

/-! ### Samples -/

namespace UartDecoder

variable {cfg : UartConfig} {t0Frame : SampleFrame}

theorem time_le_of_spaced {frame : SampleFrame} {rest : List SampleFrame} (h : cfg.Spaced t0Frame (frame :: rest)) :
    ∀ later ∈ rest, sampleTimeUs frame t0Frame ≤ sampleTimeUs later t0Frame := by
  induction rest generalizing frame with
  | nil => exact fun _ hlater => absurd hlater List.not_mem_nil
  | cons next rest ih =>
    obtain ⟨⟨hle, -⟩, hrest⟩ := List.isChain_cons_cons.mp h
    exact List.forall_mem_cons.mpr ⟨hle, fun later hlater => hle.trans (ih hrest later hlater)⟩

/-- The sample that is taken for a point of time: less than half a bit before it, provided that samples do not end before
that. -/
theorem advance_spec {pointUs reachedUs : ℚ} {cur : SampleFrame} {rest : List SampleFrame}
    (hspaced : cfg.Spaced t0Frame (cur :: rest)) (hcur : sampleTimeUs cur t0Frame ≤ pointUs)
    (hreaches : Reaches t0Frame reachedUs (cur :: rest)) (hpoint : pointUs - cfg.bitUs / 2 < reachedUs) :
    (advance t0Frame pointUs cur rest).1 :: (advance t0Frame pointUs cur rest).2 <:+ cur :: rest ∧
      sampleTimeUs (advance t0Frame pointUs cur rest).1 t0Frame ≤ pointUs ∧
      pointUs - cfg.bitUs / 2 < sampleTimeUs (advance t0Frame pointUs cur rest).1 t0Frame ∧
      ∀ later ∈ (advance t0Frame pointUs cur rest).2, pointUs < sampleTimeUs later t0Frame := by
  induction rest generalizing cur with
  | nil =>
    obtain ⟨last, hlast, hle⟩ := hreaches
    obtain rfl : cur = last := Option.some.inj hlast
    exact ⟨List.suffix_refl _, hcur, hpoint.trans_le hle, fun _ hlater => absurd hlater List.not_mem_nil⟩
  | cons next rest ih =>
    obtain ⟨⟨-, hnear⟩, hrest⟩ := List.isChain_cons_cons.mp hspaced
    unfold advance
    by_cases hnext : sampleTimeUs next t0Frame ≤ pointUs
    · obtain ⟨last, hlast, hle⟩ := hreaches
      rw [List.getLast?_cons_cons] at hlast
      obtain ⟨hsuffix, hspec⟩ := ih hrest hnext ⟨last, hlast, hle⟩
      rw [if_pos hnext]
      exact ⟨hsuffix.trans (List.suffix_cons _ _), hspec⟩
    · rw [if_neg hnext]
      have hlt := not_le.mp hnext
      refine ⟨List.suffix_refl _, hcur, by linarith, List.forall_mem_cons.mpr ⟨hlt, fun later hlater => ?_⟩⟩
      exact hlt.trans_le (time_le_of_spaced hrest later hlater)

/-- Samples of the line that go on long enough. -/
structure Tracks (cfg : UartConfig) (t0Frame : SampleFrame) (chars : List (ℚ × BitVec cfg.dataBits)) (originUs reachedUs : ℚ)
    (samples : List SampleFrame) : Prop where
  spaced : cfg.Spaced t0Frame samples
  line : ∀ frame ∈ samples, samplePinValue frame cfg.rxPin = cfg.lineAt chars originUs (sampleTimeUs frame t0Frame)
  reaches : Reaches t0Frame reachedUs samples

theorem Tracks.suffix {chars : List (ℚ × BitVec cfg.dataBits)} {originUs reachedUs : ℚ} {samples rest : List SampleFrame}
    {frame : SampleFrame} (h : Tracks cfg t0Frame chars originUs reachedUs samples) (hsuffix : frame :: rest <:+ samples) :
    Tracks cfg t0Frame chars originUs reachedUs (frame :: rest) := by
  refine ⟨h.spaced.suffix hsuffix, fun later hlater => h.line later (hsuffix.subset hlater), ?_⟩
  obtain ⟨last, hlast, hle⟩ := h.reaches
  obtain ⟨earlier, rfl⟩ := hsuffix
  rw [List.getLast?_append, List.getLast?_cons, Option.some_or] at hlast
  exact ⟨last, (List.getLast?_cons).trans hlast, hle⟩

/-- A start bit has been seen in its first half. -/
structure Begins (cfg : UartConfig) (beginUs startTimeUs reachedUs : ℚ) : Prop where
  bit : 0 < cfg.bitUs
  stop : 1 ≤ cfg.stopBits
  le : beginUs ≤ startTimeUs
  lt : startTimeUs < beginUs + cfg.bitUs / 2
  reached : beginUs + cfg.bitUs * (3 / 2 + cfg.totalDataParityBits) ≤ reachedUs

/-- The sample that is taken for the middle of a bit shows it. -/
theorem advance_bit {gap originUs startTimeUs reachedUs : ℚ} {c : BitVec cfg.dataBits}
    {rest : List (ℚ × BitVec cfg.dataBits)} (hb : Begins cfg (originUs + gap) startTimeUs reachedUs)
    {at₀ : SampleFrame × List SampleFrame}
    (h : Tracks cfg t0Frame ((gap, c) :: rest) originUs reachedUs (at₀.1 :: at₀.2)) {k : ℕ}
    (hk : k ≤ cfg.totalDataParityBits) (hcur : sampleTimeUs at₀.1 t0Frame ≤ startTimeUs + cfg.bitUs * (3 / 2 + k)) :
    let at₁ := advance t0Frame (startTimeUs + cfg.bitUs * (3 / 2 + k)) at₀.1 at₀.2
    Tracks cfg t0Frame ((gap, c) :: rest) originUs reachedUs (at₁.1 :: at₁.2) ∧
      sampleTimeUs at₁.1 t0Frame ≤ startTimeUs + cfg.bitUs * (3 / 2 + k) ∧
      startTimeUs + cfg.bitUs * (1 + k) < sampleTimeUs at₁.1 t0Frame ∧
      (∀ later ∈ at₁.2, startTimeUs + cfg.bitUs * (3 / 2 + k) < sampleTimeUs later t0Frame) ∧
      samplePinValue at₁.1 cfg.rxPin = (cfg.frameBits c).getD (k + 1) true := by
  intro at₁
  obtain ⟨hbit, hstop, hle, hlt, hreached⟩ := hb
  have hcast : cfg.bitUs * (k : ℚ) ≤ cfg.bitUs * cfg.totalDataParityBits :=
    mul_le_mul_of_nonneg_left (Nat.cast_le.mpr hk) hbit.le
  obtain ⟨hsuffix, hbefore, hafter, hlater⟩ := @advance_spec cfg t0Frame (startTimeUs + cfg.bitUs * (3 / 2 + k)) _ _ _
    h.spaced hcur h.reaches (by linarith)
  have htracks := h.suffix hsuffix
  have hafter' : startTimeUs + cfg.bitUs * (1 + k) < sampleTimeUs at₁.1 t0Frame := by
    refine lt_of_eq_of_lt ?_ hafter
    ring
  refine ⟨htracks, hbefore, hafter', hlater, ?_⟩
  rw [htracks.line at₁.1 List.mem_cons_self]
  have hlength : k + 1 < cfg.frameLength := by
    unfold UartConfig.frameLength
    omega
  refine UartConfig.lineAt_bit hbit hlength ?_ ?_
  · push_cast
    linarith
  · push_cast
    have hbefore' : sampleTimeUs at₁.1 t0Frame ≤ startTimeUs + cfg.bitUs * (3 / 2 + k) := hbefore
    linarith

/-- The loop over the data bits, up to the first `k`. -/
def readBits (cfg : UartConfig) (t0Frame : SampleFrame) (startTimeUs : ℚ) (k : ℕ) (at₀ : SampleFrame × List SampleFrame) :
    BitVec 32 × SampleFrame × List SampleFrame :=
  (List.range k).foldl (fun (dataVal, at₁) (bit : ℕ) =>
    let at₂ := advance t0Frame (startTimeUs + cfg.bitUs * (3 / 2 + bit)) at₁.1 at₁.2
    (if samplePinValue at₂.1 cfg.rxPin then dataVal ||| 1#32 <<< bit else dataVal, at₂)) (0, at₀)

/-- The data bits are those of the character. -/
theorem readBits_spec {gap originUs startTimeUs reachedUs : ℚ} {c : BitVec cfg.dataBits}
    {rest : List (ℚ × BitVec cfg.dataBits)} (hb : Begins cfg (originUs + gap) startTimeUs reachedUs)
    (hwide : cfg.dataBits ≤ 8) {at₀ : SampleFrame × List SampleFrame}
    (h : Tracks cfg t0Frame ((gap, c) :: rest) originUs reachedUs (at₀.1 :: at₀.2))
    (hcur : sampleTimeUs at₀.1 t0Frame ≤ startTimeUs + cfg.bitUs * (1 / 2)) {k : ℕ} (hk : k ≤ cfg.dataBits) :
    (readBits cfg t0Frame startTimeUs k at₀).1 = BitVec.ofNat 32 (binaryValue ((List.range k).map c.getLsbD)) ∧
      Tracks cfg t0Frame ((gap, c) :: rest) originUs reachedUs
        ((readBits cfg t0Frame startTimeUs k at₀).2.1 :: (readBits cfg t0Frame startTimeUs k at₀).2.2) ∧
      sampleTimeUs (readBits cfg t0Frame startTimeUs k at₀).2.1 t0Frame ≤ startTimeUs + cfg.bitUs * (1 / 2 + k) := by
  induction k with
  | zero =>
    refine ⟨rfl, h, hcur.trans_eq ?_⟩
    rw [Nat.cast_zero, add_zero]
  | succ k ih =>
    obtain ⟨hdata, htracks, hbefore⟩ := ih (Nat.le_of_succ_le hk)
    have hstep : readBits cfg t0Frame startTimeUs (k + 1) at₀ =
        (fun (dataVal, at₁) (bit : ℕ) =>
          let at₂ := advance t0Frame (startTimeUs + cfg.bitUs * (3 / 2 + bit)) at₁.1 at₁.2
          (if samplePinValue at₂.1 cfg.rxPin then dataVal ||| 1#32 <<< bit else dataVal, at₂))
          (readBits cfg t0Frame startTimeUs k at₀) k := by
      rw [readBits, List.range_succ, List.foldl_append]
      rfl
    generalize readBits cfg t0Frame startTimeUs k at₀ = read at hdata htracks hbefore hstep
    obtain ⟨dataVal, at₁⟩ := read
    have hpoint : sampleTimeUs at₁.1 t0Frame ≤ startTimeUs + cfg.bitUs * (3 / 2 + k) := by
      have hbit := hb.bit
      refine hbefore.trans ?_
      linarith
    have htotal : k ≤ cfg.totalDataParityBits := (Nat.le_of_succ_le hk).trans (Nat.le_add_right _ _)
    obtain ⟨htracks', hbefore', -, -, hvalue⟩ := advance_bit hb htracks htotal hpoint
    rw [UartConfig.frameBits_data c hk] at hvalue
    rw [hstep]
    refine ⟨?_, htracks', hbefore'.trans_eq ?_⟩
    · have hlength : ((List.range k).map c.getLsbD).length = k := by rw [List.length_map, List.length_range]
      dsimp only
      dsimp only at hdata
      rw [hvalue, hdata, List.range_succ, List.map_append, List.map_singleton]
      cases c.getLsbD k with
      | true =>
        have hor := ofNat_or_shiftLeft (w := 32) ((List.range k).map c.getLsbD) (by rw [hlength]; omega)
        rw [hlength] at hor
        exact hor
      | false =>
        rw [binaryValue_concat]
        rfl
    · push_cast
      ring

theorem sum_toNat (bits : List Bool) : (bits.map Bool.toNat).sum = bits.count true := by
  induction bits with
  | nil => rfl
  | cons b bits ih =>
    rw [List.map_cons, List.sum_cons, ih, List.count_cons, Nat.add_comm]
    cases b <;> rfl

/-- As many bits of the data are high as of the character. -/
theorem ones_eq (hwide : cfg.dataBits ≤ 8) (c : BitVec cfg.dataBits) :
    ((List.range cfg.dataBits).map fun b => (BitVec.ofNat 32 c.toNat >>> b &&& 1).toNat).sum =
      (cfg.charBits c).count true := by
  have hbit : ∀ b ∈ List.range cfg.dataBits, (BitVec.ofNat 32 c.toNat >>> b &&& 1).toNat = (c.getLsbD b).toNat := by
    intro b hb
    have hb' : b < 32 := (List.mem_range.mp hb).trans_le (hwide.trans (by decide))
    have hlsb : (BitVec.ofNat 32 c.toNat).getLsbD b = c.getLsbD b := by
      rw [BitVec.getLsbD_ofNat, decide_eq_true hb', Bool.true_and]
      rfl
    rw [← hlsb, BitVec.toNat_and, BitVec.toNat_ushiftRight, BitVec.getLsbD, Nat.toNat_testBit, Nat.shiftRight_eq_div_pow]
    exact Nat.and_one_is_mod _
  rw [List.map_congr_left hbit, ← sum_toNat, UartConfig.charBits, List.map_map]
  rfl

/-- The parity bit is the one that is expected. -/
theorem readParity_spec {gap originUs startTimeUs reachedUs : ℚ} {c : BitVec cfg.dataBits}
    {rest : List (ℚ × BitVec cfg.dataBits)} (hb : Begins cfg (originUs + gap) startTimeUs reachedUs)
    (hwide : cfg.dataBits ≤ 8) {at₀ : SampleFrame × List SampleFrame}
    (h : Tracks cfg t0Frame ((gap, c) :: rest) originUs reachedUs (at₀.1 :: at₀.2))
    (hcur : sampleTimeUs at₀.1 t0Frame ≤ startTimeUs + cfg.bitUs * (1 / 2 + cfg.dataBits)) :
    let read := readParity cfg t0Frame startTimeUs (BitVec.ofNat 32 c.toNat) at₀
    read.1 = false ∧ Tracks cfg t0Frame ((gap, c) :: rest) originUs reachedUs (read.2.1 :: read.2.2) ∧
      sampleTimeUs read.2.1 t0Frame ≤ startTimeUs + cfg.bitUs * (3 / 2 + cfg.totalDataParityBits) := by
  intro read
  have hbit := hb.bit
  by_cases hparity : cfg.parityEnable = true
  · have htotal : cfg.totalDataParityBits = cfg.dataBits + 1 := by
      rw [UartConfig.totalDataParityBits, if_pos hparity]
    have hread : read = (samplePinValue (advance t0Frame (startTimeUs + cfg.bitUs * (3 / 2 + cfg.dataBits)) at₀.1 at₀.2).1
        cfg.rxPin != cfg.expectedParity ((cfg.charBits c).count true),
        advance t0Frame (startTimeUs + cfg.bitUs * (3 / 2 + cfg.dataBits)) at₀.1 at₀.2) := by
      rw [← ones_eq hwide c]
      exact if_pos hparity
    have hk : cfg.dataBits ≤ cfg.totalDataParityBits := by omega
    have hpoint : sampleTimeUs at₀.1 t0Frame ≤ startTimeUs + cfg.bitUs * (3 / 2 + cfg.dataBits) := by linarith
    obtain ⟨htracks, hbefore, -, -, hvalue⟩ := advance_bit hb h hk hpoint
    rw [UartConfig.frameBits_parity c hparity] at hvalue
    rw [hread]
    refine ⟨?_, htracks, hbefore.trans ?_⟩
    · dsimp only
      rw [hvalue, bne_self_eq_false]
    · rw [htotal]
      push_cast
      linarith
  · have htotal : cfg.totalDataParityBits = cfg.dataBits := by
      rw [UartConfig.totalDataParityBits, if_neg hparity]
      rfl
    have hread : read = (false, at₀) := if_neg hparity
    rw [hread, htotal]
    exact ⟨rfl, h, hcur.trans (by linarith)⟩

/-- What is received of a character: the label, the data, and whether it is an error. -/
def received (c : ℕ) : Text × Text × Bool := (charLabel c, hexText 2 c, false)

/-- A frame is the character, and the search goes on behind the middle of the first stop bit. -/
theorem decodeFrame_spec {gap originUs startTimeUs reachedUs : ℚ} {c : BitVec cfg.dataBits}
    {rest : List (ℚ × BitVec cfg.dataBits)} (hb : Begins cfg (originUs + gap) startTimeUs reachedUs)
    (hwide : cfg.dataBits ≤ 8) {at₀ : SampleFrame × List SampleFrame}
    (h : Tracks cfg t0Frame ((gap, c) :: rest) originUs reachedUs (at₀.1 :: at₀.2))
    (hcur : sampleTimeUs at₀.1 t0Frame ≤ startTimeUs + cfg.bitUs * (1 / 2)) :
    (decodeFrame cfg t0Frame startTimeUs at₀).1.map (fun f => (f.label, f.data, f.errorFlag)) = some (received c.toNat) ∧
      ∃ cur, Tracks cfg t0Frame ((gap, c) :: rest) originUs reachedUs
          (cur :: (decodeFrame cfg t0Frame startTimeUs at₀).2) ∧
        sampleTimeUs cur t0Frame ≤ startTimeUs + cfg.bitUs * (3 / 2 + cfg.totalDataParityBits) ∧
        startTimeUs + cfg.bitUs * (1 + cfg.totalDataParityBits) < sampleTimeUs cur t0Frame ∧
        ∀ later ∈ (decodeFrame cfg t0Frame startTimeUs at₀).2,
          startTimeUs + cfg.bitUs * (3 / 2 + cfg.totalDataParityBits) < sampleTimeUs later t0Frame := by
  obtain ⟨hdata, htracks₁, hbefore₁⟩ := readBits_spec hb hwide h hcur (le_refl cfg.dataBits)
  rw [binaryValue_getLsbD] at hdata
  obtain ⟨hparity, htracks₂, hbefore₂⟩ := readParity_spec hb hwide htracks₁ hbefore₁
  obtain ⟨htracks₃, hbefore₃, hafter₃, hlater₃, hvalue⟩ := advance_bit hb htracks₂ (le_refl _) hbefore₂
  rw [UartConfig.frameBits_stop c (by omega)] at hvalue
  have hch : (BitVec.ofNat 32 c.toNat &&& 0xFF).toNat = c.toNat := by
    have hlt : c.toNat < 2 ^ 8 := c.isLt.trans_le (Nat.pow_le_pow_right (by decide) hwide)
    have hmod : c.toNat % 2 ^ 32 = c.toNat := Nat.mod_eq_of_lt (hlt.trans (by decide))
    rw [BitVec.toNat_and, BitVec.toNat_ofNat, hmod]
    exact (Nat.and_two_pow_sub_one_eq_mod c.toNat 8).trans (Nat.mod_eq_of_lt hlt)
  have hread : (readBits cfg t0Frame startTimeUs cfg.dataBits at₀).1 = (readData cfg t0Frame startTimeUs at₀).1 ∧
      (readBits cfg t0Frame startTimeUs cfg.dataBits at₀).2 = (readData cfg t0Frame startTimeUs at₀).2 := ⟨rfl, rfl⟩
  rw [hread.1] at hdata
  rw [hread.2, ← hdata] at hparity htracks₃ hbefore₃ hafter₃ hlater₃ hvalue
  have hcut : ¬sampleTimeUs (advance t0Frame (startTimeUs + cfg.bitUs * (3 / 2 + cfg.totalDataParityBits))
      (readParity cfg t0Frame startTimeUs (readData cfg t0Frame startTimeUs at₀).1
        (readData cfg t0Frame startTimeUs at₀).2).2.1
      (readParity cfg t0Frame startTimeUs (readData cfg t0Frame startTimeUs at₀).1
        (readData cfg t0Frame startTimeUs at₀).2).2.2).1 t0Frame <
      startTimeUs + cfg.bitUs * (3 / 2 + cfg.totalDataParityBits) - cfg.bitUs / 2 := by
    have hmiddle : startTimeUs + cfg.bitUs * (3 / 2 + cfg.totalDataParityBits) - cfg.bitUs / 2 =
        startTimeUs + cfg.bitUs * (1 + cfg.totalDataParityBits) := by ring
    rw [hmiddle, not_lt]
    exact hafter₃.le
  unfold decodeFrame
  dsimp only
  rw [if_neg hcut]
  refine ⟨?_, _, htracks₃, hbefore₃, hafter₃, hlater₃⟩
  rw [Option.map_some, hparity, hvalue, hdata, hch]
  rfl

/-! ### The search -/

/-- While the line is high nothing is found. -/
theorem decodeLoop_high {samples : List SampleFrame} (h : ∀ frame ∈ samples, samplePinValue frame cfg.rxPin = true) :
    decodeLoop cfg t0Frame samples = [] := by
  induction samples with
  | nil => rw [decodeLoop]
  | cons frame rest ih =>
    obtain ⟨hframe, hrest⟩ := List.forall_mem_cons.mp h
    rw [decodeLoop, if_pos hframe, ih hrest]

/-- The search comes to a sample in the first half of the start bit. -/
theorem decodeLoop_scan {gap originUs reachedUs : ℚ} {c : BitVec cfg.dataBits} {rest : List (ℚ × BitVec cfg.dataBits)}
    {cur : SampleFrame} {samples : List SampleFrame}
    (h : Tracks cfg t0Frame ((gap, c) :: rest) originUs reachedUs (cur :: samples))
    (hcur : sampleTimeUs cur t0Frame < originUs + gap) (hreached : originUs + gap ≤ reachedUs) :
    ∃ frame samples', frame :: samples' <:+ cur :: samples ∧ originUs + gap ≤ sampleTimeUs frame t0Frame ∧
      sampleTimeUs frame t0Frame < originUs + gap + cfg.bitUs / 2 ∧
      decodeLoop cfg t0Frame samples = decodeLoop cfg t0Frame (frame :: samples') := by
  induction samples generalizing cur with
  | nil =>
    obtain ⟨last, hlast, hle⟩ := h.reaches
    obtain rfl : cur = last := Option.some.inj hlast
    exact absurd (hcur.trans_le (hreached.trans hle)) (lt_irrefl _)
  | cons next samples ih =>
    by_cases hnext : sampleTimeUs next t0Frame < originUs + gap
    · have hhigh : samplePinValue next cfg.rxPin = true := by
        rw [h.line next (List.mem_cons_of_mem _ List.mem_cons_self), UartConfig.lineAt_idle hnext]
      obtain ⟨frame, samples', hsuffix, hspec⟩ := ih (h.suffix (List.suffix_cons _ _)) hnext
      rw [decodeLoop, if_pos hhigh]
      exact ⟨frame, samples', hsuffix.trans (List.suffix_cons _ _), hspec⟩
    · obtain ⟨⟨-, hnear⟩, -⟩ := List.isChain_cons_cons.mp h.spaced
      exact ⟨next, samples, List.suffix_cons _ _, not_lt.mp hnext, hnear.trans (by linarith), rfl⟩

/-- A start bit is confirmed, and the frame is decoded. -/
theorem decodeLoop_frame {gap originUs reachedUs : ℚ} {c : BitVec cfg.dataBits} {rest : List (ℚ × BitVec cfg.dataBits)}
    {frame : SampleFrame} {samples : List SampleFrame}
    (hb : Begins cfg (originUs + gap) (sampleTimeUs frame t0Frame) reachedUs)
    (h : Tracks cfg t0Frame ((gap, c) :: rest) originUs reachedUs (frame :: samples)) :
    ∃ at₀ : SampleFrame × List SampleFrame,
      Tracks cfg t0Frame ((gap, c) :: rest) originUs reachedUs (at₀.1 :: at₀.2) ∧
      sampleTimeUs at₀.1 t0Frame ≤ sampleTimeUs frame t0Frame + cfg.bitUs * (1 / 2) ∧
      decodeLoop cfg t0Frame (frame :: samples) =
        (decodeFrame cfg t0Frame (sampleTimeUs frame t0Frame) at₀).1.toList ++
          decodeLoop cfg t0Frame (decodeFrame cfg t0Frame (sampleTimeUs frame t0Frame) at₀).2 := by
  have hbit := hb.bit
  have hle := hb.le
  have hlt := hb.lt
  have hlength : 0 < cfg.frameLength := by
    unfold UartConfig.frameLength
    omega
  have hpos : 0 ≤ cfg.bitUs * (cfg.totalDataParityBits : ℚ) := mul_nonneg hbit.le (Nat.cast_nonneg _)
  -- the start bit is low wherever it is sampled
  have hlow : ∀ later ∈ frame :: samples, originUs + gap ≤ sampleTimeUs later t0Frame →
      sampleTimeUs later t0Frame < originUs + gap + cfg.bitUs → ¬samplePinValue later cfg.rxPin = true := by
    intro later hlater hfrom hto
    have hzero : cfg.bitUs * ((0 : ℕ) : ℚ) = 0 := by rw [Nat.cast_zero, mul_zero]
    rw [h.line later hlater, @UartConfig.lineAt_bit cfg hbit _ _ _ _ _ 0 hlength (by rw [hzero]; linarith)
      (by rw [hzero]; linarith)]
    exact Bool.false_ne_true
  obtain ⟨hsuffix, hbefore, hafter, -⟩ := @advance_spec cfg t0Frame (sampleTimeUs frame t0Frame + cfg.bitUs / 2) _ _ _
    h.spaced (by linarith) h.reaches (by have := hb.reached; linarith)
  refine ⟨_, h.suffix hsuffix, hbefore.trans (by linarith), ?_⟩
  have hconfirmed := hlow _ (hsuffix.subset List.mem_cons_self) (by linarith) (by linarith)
  rw [decodeLoop, if_neg (hlow frame List.mem_cons_self hle (by linarith)), if_neg hconfirmed]

/-- Characters are decoded as what they are. -/
theorem decodeLoop_characters (hbit : 0 < cfg.bitUs) (hstop : 1 ≤ cfg.stopBits) (hwide : cfg.dataBits ≤ 8)
    {chars : List (ℚ × BitVec cfg.dataBits)} (hgaps : ∀ sent ∈ chars, 0 ≤ sent.1) {originUs : ℚ} {cur : SampleFrame}
    {samples : List SampleFrame}
    (h : Tracks cfg t0Frame chars originUs (cfg.endUs chars originUs - cfg.bitUs / 2) (cur :: samples))
    (hcur : ∀ sent ∈ chars.head?, sampleTimeUs cur t0Frame < originUs + sent.1) :
    (decodeLoop cfg t0Frame samples).map (fun f => (f.label, f.data, f.errorFlag)) =
      chars.map fun sent => received sent.2.toNat := by
  induction chars generalizing originUs cur samples with
  | nil =>
    rw [decodeLoop_high fun frame hframe => h.line frame (List.mem_cons_of_mem _ hframe)]
    rfl
  | cons sent rest ih =>
    obtain ⟨gap, c⟩ := sent
    obtain ⟨hgap, hrest⟩ := List.forall_mem_cons.mp hgaps
    have hcur : sampleTimeUs cur t0Frame < originUs + gap := hcur (gap, c) rfl
    have hframeLength : cfg.bitUs * (2 + cfg.totalDataParityBits) ≤ cfg.bitUs * cfg.frameLength := by
      refine mul_le_mul_of_nonneg_left ?_ hbit.le
      unfold UartConfig.frameLength
      have hle : ((2 + cfg.totalDataParityBits : ℕ) : ℚ) ≤ (1 + cfg.totalDataParityBits + cfg.stopBits : ℕ) := by
        exact_mod_cast (by omega : 2 + cfg.totalDataParityBits ≤ 1 + cfg.totalDataParityBits + cfg.stopBits)
      exact_mod_cast hle
    have hend : originUs + gap + cfg.bitUs * cfg.frameLength ≤ cfg.endUs ((gap, c) :: rest) originUs :=
      UartConfig.le_endUs hbit hrest _
    have hpos : 0 ≤ cfg.bitUs * (cfg.totalDataParityBits : ℚ) := mul_nonneg hbit.le (Nat.cast_nonneg _)
    obtain ⟨frame, samples', hsuffix, hfrom, hto, hloop⟩ := decodeLoop_scan h hcur (by linarith)
    have hb : Begins cfg (originUs + gap) (sampleTimeUs frame t0Frame)
        (cfg.endUs ((gap, c) :: rest) originUs - cfg.bitUs / 2) := ⟨hbit, hstop, hfrom, hto, by linarith⟩
    obtain ⟨at₀, htracks, hat₀, hloop'⟩ := decodeLoop_frame hb (h.suffix hsuffix)
    obtain ⟨hreceived, cur', htracks', hbefore, hafter, hlater⟩ := decodeFrame_spec hb hwide htracks hat₀
    rw [hloop, hloop', List.map_append]
    have hnext := @ih hrest (originUs + gap + cfg.bitUs * cfg.frameLength) cur'
      (decodeFrame cfg t0Frame (sampleTimeUs frame t0Frame) at₀).2 ?_ ?_
    · rw [hnext]
      generalize (decodeFrame cfg t0Frame (sampleTimeUs frame t0Frame) at₀).1 = decoded at hreceived
      obtain ⟨f, rfl, hf⟩ := Option.map_eq_some_iff.mp hreceived
      rw [Option.toList_some, List.map_singleton, hf]
      rfl
    · -- the rest of the stop bits is as idle as the gap that follows
      refine ⟨htracks'.spaced, fun later hmem => ?_, htracks'.reaches⟩
      rw [htracks'.line later hmem]
      refine UartConfig.lineAt_after hbit hrest ?_
      obtain rfl | hmem := List.mem_cons.mp hmem
      · linarith
      · have := hlater later hmem
        linarith
    · intro sent hsent
      have hgap' := hrest sent (List.mem_of_mem_head? hsent)
      linarith

end UartDecoder

/-- What is decoded of characters, from samples less than half a bit apart, is what they are. -/
theorem decodeUart_characters {cfg : UartConfig} (hpin : cfg.rxPin ≠ []) (hbaud : cfg.baudRate ≠ 0)
    (hdata : 5 ≤ cfg.dataBits ∧ cfg.dataBits ≤ 8) (hstop : cfg.stopBits = 1 ∨ cfg.stopBits = 2)
    {chars : List (ℚ × BitVec cfg.dataBits)} {t0Frame : SampleFrame} {rest : List SampleFrame}
    (h : cfg.Captures chars t0Frame (t0Frame :: rest)) :
    (decodeUart (t0Frame :: rest) cfg).map (fun f => (f.label, f.data, f.errorFlag)) =
      chars.map fun sent => (charLabel sent.2.toNat, hexText 2 sent.2.toNat, false) := by
  have hbit := UartConfig.bitUs_pos hbaud
  have hzero : sampleTimeUs t0Frame t0Frame = 0 := by
    rw [sampleTimeUs, sub_self, Int.cast_zero, zero_div]
  rw [decodeUart, if_neg (not_or.mpr ⟨hpin, hbaud⟩)]
  cases chars with
  | nil =>
    rw [UartDecoder.decodeLoop_high h.line]
    rfl
  | cons sent chars =>
    have hidle := h.idle sent rfl
    have hhigh : samplePinValue t0Frame cfg.rxPin = true := by
      rw [h.line t0Frame List.mem_cons_self, hzero]
      exact UartConfig.lineAt_idle (by linarith)
    rw [UartDecoder.decodeLoop, if_pos hhigh]
    refine UartDecoder.decodeLoop_characters hbit (by omega) hdata.2 h.gaps
      ⟨h.spaced, h.line, h.reaches (List.cons_ne_nil _ _)⟩ fun sent' hsent => ?_
    obtain rfl : sent = sent' := Option.some.inj hsent
    rw [hzero]
    linarith

/-! ### A line -/

/-- A line of 1 Mbit/s, with even parity. -/
def serialLine : UartConfig := { rxPin := "RX".toList, baudRate := 1000000, parityEnable := true }

theorem serialLine_bitUs : serialLine.bitUs = 1 := by norm_num [UartConfig.bitUs, serialLine]

/-- A sample of the line, 0.4 µs after the one before. -/
def lineSample (chars : List (ℚ × BitVec serialLine.dataBits)) (i : ℕ) : SampleFrame where
  timestamp := 400 * i
  data := { pinStates := (∅ : PinStates).insert "RX".toList (pinStateOf (serialLine.lineAt chars 0 (2 / 5 * i))) }

theorem lineSample_time (chars : List (ℚ × BitVec serialLine.dataBits)) (i : ℕ) :
    sampleTimeUs (lineSample chars i) (lineSample chars 0) = 2 / 5 * i := by
  rw [sampleTimeUs, lineSample, lineSample]
  push_cast
  ring

theorem lineSample_value (chars : List (ℚ × BitVec serialLine.dataBits)) (i : ℕ) :
    samplePinValue (lineSample chars i) serialLine.rxPin = serialLine.lineAt chars 0 (2 / 5 * i) := by
  have hlevel : ∀ level : Bool, samplePinValue
      { data := ⟨[], (∅ : PinStates).insert "RX".toList (pinStateOf level)⟩ } serialLine.rxPin = level := by decide
  exact hlevel _

/-- Whatever is sent, there are samples of it. -/
theorem captures_lineSample {chars : List (ℚ × BitVec serialLine.dataBits)} (hgaps : ∀ sent ∈ chars, 0 ≤ sent.1)
    (hidle : ∀ sent ∈ chars.head?, 0 < sent.1) {n : ℕ} (hn : serialLine.endUs chars 0 - 1 / 2 ≤ 2 / 5 * n) :
    serialLine.Captures chars (lineSample chars 0) ((List.range (n + 1)).map (lineSample chars)) := by
  refine ⟨?_, fun frame hframe => ?_, hgaps, hidle, fun _ => ⟨lineSample chars n, ?_, ?_⟩⟩
  · rw [UartConfig.Spaced, List.isChain_map]
    refine (List.isChain_range _ _).mpr fun i _ => ?_
    rw [lineSample_time, lineSample_time, serialLine_bitUs]
    push_cast
    constructor
    · linarith
    · linarith
  · obtain ⟨i, -, rfl⟩ := List.mem_map.mp hframe
    rw [lineSample_value, lineSample_time]
  · rw [List.range_succ, List.map_append, List.map_singleton, List.getLast?_concat]
  · rw [lineSample_time, serialLine_bitUs]
    exact hn

/-- Two characters, with no gap between them. -/
theorem decodeUart_two : (decodeUart ((List.range 60).map (lineSample [(1, 0x41), (0, 0xFE)])) serialLine).map
    (fun f => (f.label, f.data, f.errorFlag)) =
      [("0x41 'A'".toList, "41".toList, false), ("0xFE".toList, "FE".toList, false)] := by
  have hcaptures : serialLine.Captures [(1, 0x41), (0, 0xFE)] (lineSample [(1, 0x41), (0, 0xFE)] 0)
      ((List.range (59 + 1)).map (lineSample [(1, 0x41), (0, 0xFE)])) := by
    refine captures_lineSample ?_ ?_ ?_
    · simp
    · simp
    · norm_num [UartConfig.endUs, UartConfig.frameLength, UartConfig.totalDataParityBits, serialLine_bitUs]
      norm_num [serialLine]
  rw [List.range_succ_eq_map, List.map_cons] at hcaptures
  refine Eq.trans ?_ ((decodeUart_characters (List.cons_ne_nil _ _) (by decide) (by decide) (.inl rfl) hcaptures).trans ?_)
  · rw [List.range_succ_eq_map, List.map_cons]
  · decide

end OwlTap.Protocol
