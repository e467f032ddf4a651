import OwlTap.Config.ConfigStatus
import OwlTap.Flash.FlashProgrammer
import OwlTap.Flash.NorLink

/-!
# The image is in the flash

On a SPI NOR flash whose transactions may fail, and whose erasures and programs take any time, a
programming that succeeds leaves the image in the flash, and `0xFF` behind it (`program_writes`).
Every byte has been sent in one page program. Nothing succeeds unless what is read back is the
image, whatever the transport.
-/

namespace OwlTap.Flash

open OwlTap Jtag Config

/-! ### Slices -/

/-- Slice `k` of an image, with its offset. -/
def slice (size : ℕ) (image : List Byte) (k : ℕ) : ℕ × List Byte := (size * k, (image.drop (size * k)).take size)

/-- How many slices there are. -/
def sliceCount (size : ℕ) (image : List Byte) : ℕ := (image.length + (size - 1)) / size

/-- All slices. -/
def slices (size : ℕ) (image : List Byte) : List (ℕ × List Byte) :=
  (List.range (sliceCount size image)).map (slice size image)

/-- A byte lies in a slice. -/
def Covers (i : ℕ) (s : ℕ × List Byte) : Prop := s.1 ≤ i ∧ i < s.1 + s.2.length

instance (i : ℕ) (s : ℕ × List Byte) : Decidable (Covers i s) := inferInstanceAs (Decidable (_ ∧ _))

variable {size : ℕ} {image : List Byte}

theorem length_slice (k : ℕ) : (slice size image k).2.length = min size (image.length - size * k) := by
  rw [slice, List.length_take, List.length_drop]

/-- There are slices up to the end. -/
theorem lt_sliceCount (hsize : 0 < size) {k : ℕ} : k < sliceCount size image ↔ size * k < image.length := by
  rw [sliceCount, Nat.lt_iff_add_one_le, Nat.le_div_iff_mul_le hsize, Nat.add_one_mul, Nat.mul_comm k size]
  omega

/-- And none behind it. -/
theorem sliceCount_le (hsize : 0 < size) {k : ℕ} (h : image.length ≤ size * k) : sliceCount size image ≤ k :=
  Nat.le_of_not_lt fun hlt => absurd ((lt_sliceCount hsize).mp hlt) (Nat.not_lt.mpr h)

/-- A slice holds the bytes of the image from its offset on. -/
theorem getD_slice {k i : ℕ} (h : Covers i (slice size image k)) :
    (slice size image k).2.getD (i - size * k) 0 = image.getD i 0 := by
  obtain ⟨hle, hlt⟩ := h
  rw [length_slice] at hlt
  have hle : size * k ≤ i := hle
  have hlt : i < size * k + min size (image.length - size * k) := hlt
  rw [slice, List.getD_eq_getElem?_getD, List.getD_eq_getElem?_getD, List.getElem?_take, if_pos (by omega),
    List.getElem?_drop, Nat.add_sub_cancel' hle]

/-- Byte `i` is in slice `i / size`, and in no other. -/
theorem covers_slice_iff (hsize : 0 < size) {k i : ℕ} (hi : i < image.length) :
    Covers i (slice size image k) ↔ k = i / size := by
  have hdiv := Nat.div_add_mod i size
  have hmod := Nat.mod_lt i hsize
  rw [Covers, length_slice]
  show size * k ≤ i ∧ i < size * k + min size (image.length - size * k) ↔ _
  constructor
  · rintro ⟨hle, hlt⟩
    refine (Nat.div_eq_of_lt_le ?_ ?_).symm
    · rwa [Nat.mul_comm]
    · rw [Nat.add_one_mul, Nat.mul_comm]
      omega
  · rintro rfl
    omega

/-- Every byte is in one slice. -/
theorem countP_covers (hsize : 0 < size) {i : ℕ} (hi : i < image.length) :
    (slices size image).countP (Covers i ·) = 1 := by
  have hk : i / size < sliceCount size image := (lt_sliceCount hsize).mpr (lt_of_le_of_lt (Nat.mul_div_le i size) hi)
  rw [slices, List.countP_map, List.countP_congr (q := (· == i / size)) fun k _ => by
    simp [covers_slice_iff hsize hi], ← List.count_eq_countP, List.count_range, if_pos hk]

/-! ### The program loop -/

/-- The flash holds the first bytes of an image, and `0xFF` elsewhere. -/
def Holds (bytes : List Byte) (memory : ℕ → Byte) : Prop := ∀ x, memory x = bytes.getD x 0xFF

/-- Programming the next page of an erased rest. -/
theorem holds_programPage {k : ℕ} {memory : ℕ → Byte} (h : Holds (image.take (kPageSize * k)) memory) :
    Holds (image.take (kPageSize * (k + 1)))
      (SpiNor.programPage (kPageSize * k) 0 ((image.drop (kPageSize * k)).take kPageSize) memory) := by
  intro x
  have hlen : ((image.drop (kPageSize * k)).take kPageSize).length = min kPageSize (image.length - kPageSize * k) := by
    rw [List.length_take, List.length_drop]
  have hpage : kPageSize = 256 := rfl
  have hsucc : kPageSize * (k + 1) = kPageSize * k + kPageSize := Nat.mul_succ _ _
  rw [SpiNor.programPage_eq (by omega) fun y hle hlt => by
    rw [h, List.getD_eq_default _ _ (by rw [List.length_take]; omega)]]
  rw [Nat.add_zero, hlen, h]
  by_cases hin : kPageSize * k ≤ x ∧ x < kPageSize * k + min kPageSize (image.length - kPageSize * k)
  · rw [if_pos hin, List.getD_eq_getElem _ _ (by omega), List.getD_eq_getElem _ _ (by rw [List.length_take]; omega)]
    simp only [List.getElem_take, List.getElem_drop]
    congr 1
    omega
  · rw [if_neg hin]
    obtain hlt | hle := Nat.lt_or_ge x (kPageSize * k)
    · rw [List.getD_eq_getElem?_getD, List.getD_eq_getElem?_getD, List.getElem?_take, List.getElem?_take, if_pos hlt,
        if_pos (by omega)]
    · rw [List.getD_eq_default _ _ (by rw [List.length_take]; omega), List.getD_eq_default _ _ (by rw [List.length_take]; omega)]

namespace Programming

open Mt25qFlash

variable {p p' : Programming NorLink}

/-- What the program loop has done from page `k` on, if it succeeds or not: it has programmed the next pages, in order;
all of them if it succeeds, and then the image is there. -/
def Programmed (image : List Byte) (k : ℕ) (p p' : Programming NorLink) (ok : Bool) : Prop :=
  ∃ issues m, Issued p.flash p'.flash issues ∧ Polite issues ∧ k + m ≤ sliceCount kPageSize image ∧
    programs issues = (List.range' k m).map (slice kPageSize image) ∧
    (ok = true → k + m = sliceCount kPageSize image ∧ Idle p'.flash ∧ Holds image p'.flash.bridge.chip.memory)

/-- Behind the end there is nothing to do. -/
theorem programmed_end {k : ℕ} (hend : image.length ≤ kPageSize * k) (hk : k ≤ sliceCount kPageSize image)
    (hidle : Idle p.flash) (hmem : Holds (image.take (kPageSize * k)) p.flash.bridge.chip.memory) :
    Programmed image k p p true := by
  have hcount : sliceCount kPageSize image ≤ k := sliceCount_le (by decide) hend
  rw [List.take_of_length_le hend] at hmem
  exact ⟨[], 0, (List.append_nil _).symm, fun e he => absurd he List.not_mem_nil, hk, rfl,
    fun _ => ⟨by omega, hidle, hmem⟩⟩

theorem programLoop_spec (hcap : image.length ≤ 2 ^ 24) {rounds k : ℕ}
    (hrounds : image.length ≤ kPageSize * k + kPageSize * rounds) (hk : k ≤ sliceCount kPageSize image)
    (hidle : Idle p.flash) (hmem : Holds (image.take (kPageSize * k)) p.flash.bridge.chip.memory) {ok : Bool}
    (h : programLoop NorLink.bridge image rounds (kPageSize * k) p = some (ok, p')) : Programmed image k p p' ok := by
  induction rounds generalizing k p with
  | zero =>
    obtain ⟨rfl, rfl⟩ := Prod.mk.inj (Option.some.inj h)
    exact programmed_end (by omega) hk hidle hmem
  | succ rounds ih =>
    rw [programLoop] at h
    split at h
    case isFalse hend =>
      obtain ⟨rfl, rfl⟩ := Prod.mk.inj (Option.some.inj h)
      exact programmed_end (by omega) hk hidle hmem
    case isTrue hmore =>
      have hklt : k < sliceCount kPageSize image := (lt_sliceCount (by decide)).mpr hmore
      have hsucc : kPageSize * (k + 1) = kPageSize * k + kPageSize := Nat.mul_succ _ _
      have hmod : kPageSize * k % 256 = 0 := Nat.mul_mod_right 256 k
      have hdata : (image.drop (kPageSize * k)).take (min kPageSize (image.length - kPageSize * k)) =
          (image.drop (kPageSize * k)).take kPageSize := by
        rw [← List.length_drop, List.take_eq_take_iff]
        omega
      obtain ⟨done, q, hq, h⟩ := Method.bind_eq_some.mp h
      obtain ⟨f, hf, rfl⟩ := Method.on_eq_some.mp hq
      rw [hdata] at hf
      obtain ⟨issues, hissued, hpolite, hprograms, hok⟩ := pageProgram_spec hidle (by omega) hf
      cases done with
      | false =>
        obtain ⟨rfl, rfl⟩ := Prod.mk.inj (Option.some.inj h)
        obtain hnone | hone := hprograms
        · exact ⟨issues, 0, hissued, hpolite, hk, hnone, nofun⟩
        · exact ⟨issues, 1, hissued, hpolite, hklt, hone, nofun⟩
      | true =>
        obtain ⟨hone, hidle', hmem'⟩ := hok rfl
        rw [hmod, Nat.sub_zero] at hmem'
        have hholds := holds_programPage hmem
        rw [← hmem'] at hholds
        have hrest : kPageSize * (rounds + 1) = kPageSize * rounds + kPageSize := Nat.mul_succ _ _
        rw [if_pos rfl, ← hsucc] at h
        obtain ⟨issues', m, hissued', hpolite', hle, hprograms', hok'⟩ :=
          ih (k := k + 1) (by omega) hklt hidle' hholds h
        refine ⟨issues ++ issues', m + 1, hissued.trans hissued', hpolite.append hpolite', by omega, ?_, fun htrue => ?_⟩
        · rw [programs_append, hone, hprograms', List.range'_succ]
          rfl
        · obtain ⟨hall, hrest⟩ := hok' htrue
          exact ⟨by omega, hrest⟩

/-! ### The verify loop -/

/-- Bytes without a mismatch are the image's. -/
theorem eq_slice_of_mismatch {k : ℕ} {readback : List Byte}
    (hlen : readback.length = min kVerifyChunk (image.length - kVerifyChunk * k))
    (h : mismatch image (kVerifyChunk * k) (min kVerifyChunk (image.length - kVerifyChunk * k)) readback = none) :
    (kVerifyChunk * k, readback) = slice kVerifyChunk image k := by
  have hlen' : (slice kVerifyChunk image k).2.length = min kVerifyChunk (image.length - kVerifyChunk * k) := length_slice k
  refine Prod.ext rfl (List.ext_getElem (hlen.trans hlen'.symm) fun i h₁ h₂ => ?_)
  have hsame := List.find?_eq_none.mp h i (List.mem_range.mpr (hlen ▸ h₁))
  simp only [bne_iff_ne, ne_eq, not_not] at hsame
  rw [List.getD_eq_getElem _ _ h₁] at hsame
  have hcovers : Covers (kVerifyChunk * k + i) (slice kVerifyChunk image k) :=
    ⟨Nat.le_add_right _ _, Nat.add_lt_add_left h₂ _⟩
  have hslice := getD_slice hcovers
  rw [Nat.add_sub_cancel_left, List.getD_eq_getElem _ _ h₂] at hslice
  rw [hsame, hslice]

section AnyTransport

variable {β : Type} {B : IFlashBridge β} {q q' : Programming β}

/-- As many bytes are read as are asked for. -/
theorem length_read {addr : BitVec 32} {n : ℕ} {f f' : Mt25qFlash β} {data : List Byte}
    (h : Mt25qFlash.read B addr n f = some (some data, f')) : data.length = n := by
  rw [Mt25qFlash.read] at h
  split at h
  case isTrue hn =>
    obtain ⟨hdata, -⟩ := Prod.mk.inj (Option.some.inj h)
    rw [← Option.some.inj hdata, hn]
    rfl
  split at h
  · cases (Prod.mk.inj (Option.some.inj h)).1
  obtain ⟨⟨ok, rx⟩, g, -, h⟩ := Method.bind_eq_some.mp h
  cases ok with
  | false => cases (Prod.mk.inj (Option.some.inj h)).1
  | true =>
    simp only [if_true] at h
    split at h
    · cases h
    case isFalse hlen =>
      obtain ⟨hdata, -⟩ := Prod.mk.inj (Option.some.inj h)
      rw [← Option.some.inj hdata, List.length_take, List.length_drop]
      omega

/-- Programming reads nothing back. -/
theorem readback_programLoop {rounds off : ℕ} {ok : Bool} (h : programLoop B image rounds off q = some (ok, q')) :
    q'.readback = q.readback := by
  induction rounds generalizing off q with
  | zero =>
    obtain ⟨-, rfl⟩ := Prod.mk.inj (Option.some.inj h)
    rfl
  | succ rounds ih =>
    rw [programLoop] at h
    split at h
    · obtain ⟨done, q₁, hq₁, h⟩ := Method.bind_eq_some.mp h
      obtain ⟨f, -, rfl⟩ := Method.on_eq_some.mp hq₁
      cases done with
      | false =>
        obtain ⟨-, rfl⟩ := Prod.mk.inj (Option.some.inj h)
        rfl
      | true =>
        have hrest := ih h
        exact hrest
    · obtain ⟨-, rfl⟩ := Prod.mk.inj (Option.some.inj h)
      rfl

/-- A verification that succeeds has read the image back. -/
theorem verifyLoop_readback {rounds k : ℕ} (hrounds : image.length ≤ kVerifyChunk * k + kVerifyChunk * rounds)
    (hk : k ≤ sliceCount kVerifyChunk image) (h : verifyLoop B image rounds (kVerifyChunk * k) q = some (true, q')) :
    q'.readback = q.readback ++ (List.range' k (sliceCount kVerifyChunk image - k)).map (slice kVerifyChunk image) := by
  have hend (h : image.length ≤ kVerifyChunk * k) : sliceCount kVerifyChunk image - k = 0 :=
    Nat.sub_eq_zero_of_le (sliceCount_le (by decide) h)
  induction rounds generalizing k q with
  | zero =>
    obtain ⟨-, rfl⟩ := Prod.mk.inj (Option.some.inj h)
    rw [hend (by omega)]
    exact (List.append_nil _).symm
  | succ rounds ih =>
    rw [verifyLoop] at h
    split at h
    case isFalse hdone =>
      obtain ⟨-, rfl⟩ := Prod.mk.inj (Option.some.inj h)
      rw [hend (by omega)]
      exact (List.append_nil _).symm
    case isTrue hmore =>
      have hklt : k < sliceCount kVerifyChunk image := (lt_sliceCount (by decide)).mpr hmore
      have hsucc : kVerifyChunk * (k + 1) = kVerifyChunk * k + kVerifyChunk := Nat.mul_succ _ _
      have hrest : kVerifyChunk * (rounds + 1) = kVerifyChunk * rounds + kVerifyChunk := Nat.mul_succ _ _
      obtain ⟨r, q₁, hq₁, h⟩ := Method.bind_eq_some.mp h
      obtain ⟨f, hf, rfl⟩ := Method.on_eq_some.mp hq₁
      cases r with
      | none => cases (Prod.mk.inj (Option.some.inj h)).1
      | some readback =>
        simp only [Method.modify_bind] at h
        cases hmis : mismatch image (kVerifyChunk * k) (min kVerifyChunk (image.length - kVerifyChunk * k)) readback with
        | some i =>
          simp only [hmis] at h
          cases (Prod.mk.inj (Option.some.inj h)).1
        | none =>
          simp only [hmis] at h
          rw [← hsucc] at h
          have htail := ih (k := k + 1) (by omega) hklt h fun h => Nat.sub_eq_zero_of_le (sliceCount_le (by decide) h)
          rw [htail, eq_slice_of_mismatch (length_read hf) hmis,
            show sliceCount kVerifyChunk image - k = sliceCount kVerifyChunk image - (k + 1) + 1 by omega, List.range'_succ,
            List.map_cons, List.append_assoc]
          rfl

end AnyTransport

/-- The verification only reads. -/
theorem verifyLoop_spec {rounds off : ℕ} (hidle : Idle p.flash) {ok : Bool}
    (h : verifyLoop NorLink.bridge image rounds off p = some (ok, p')) :
    (∃ issues, Issued p.flash p'.flash issues ∧ Polite issues ∧ programs issues = []) ∧
      (ok = true → p'.flash.bridge.chip = p.flash.bridge.chip) := by
  have hnone (p : Programming NorLink) :
      ∃ issues, Issued p.flash p.flash issues ∧ Polite issues ∧ programs issues = [] :=
    ⟨[], (List.append_nil _).symm, fun e he => absurd he List.not_mem_nil, rfl⟩
  induction rounds generalizing off p with
  | zero =>
    obtain ⟨rfl, rfl⟩ := Prod.mk.inj (Option.some.inj h)
    exact ⟨hnone p, fun _ => rfl⟩
  | succ rounds ih =>
    rw [verifyLoop] at h
    split at h
    case isFalse =>
      obtain ⟨rfl, rfl⟩ := Prod.mk.inj (Option.some.inj h)
      exact ⟨hnone p, fun _ => rfl⟩
    case isTrue =>
      obtain ⟨r, q, hq, h⟩ := Method.bind_eq_some.mp h
      obtain ⟨f, hf, rfl⟩ := Method.on_eq_some.mp hq
      obtain ⟨⟨issues, hissued, hpolite, hprograms⟩, hchip⟩ := read_spec hidle hf
      cases r with
      | none =>
        obtain ⟨rfl, rfl⟩ := Prod.mk.inj (Option.some.inj h)
        exact ⟨⟨issues, hissued, hpolite, hprograms⟩, nofun⟩
      | some readback =>
        have hchip' := hchip readback rfl
        simp only [Method.modify_bind] at h
        cases hmis : mismatch image off (min kVerifyChunk (image.length - off)) readback with
        | some i =>
          simp only [hmis] at h
          obtain ⟨rfl, rfl⟩ := Prod.mk.inj (Option.some.inj h)
          exact ⟨⟨issues, hissued, hpolite, hprograms⟩, nofun⟩
        | none =>
          simp only [hmis] at h
          have hidle' : Idle f := by
            rw [Idle, hchip']
            exact hidle
          obtain ⟨⟨issues', hissued', hpolite', hprograms'⟩, hrest⟩ := ih (by exact hidle') h
          refine ⟨⟨issues ++ issues', hissued.trans hissued', hpolite.append hpolite', ?_⟩, fun htrue => ?_⟩
          · rw [programs_append, hprograms, hprograms', List.append_nil]
          · exact (hrest htrue).trans hchip'

/-! ### The whole sequence -/

/-- A page program does not cross the end of a page. -/
def InPage (s : ℕ × List Byte) : Prop := s.1 % kPageSize + s.2.length ≤ kPageSize

theorem inPage_slice (k : ℕ) : InPage (slice kPageSize image k) := by
  rw [InPage, length_slice]
  show kPageSize * k % kPageSize + _ ≤ _
  rw [Nat.mul_mod_right, Nat.zero_add]
  exact Nat.min_le_left _ _

/-- Page programs stay in their pages; on a chip that is not busy everything is polite; and success means that the
image is in the flash, with every page programmed once. -/
theorem writeImage_spec {loaded : Except String (List Byte)} {ok : Bool}
    (h : writeImage NorLink.bridge loaded p = some (ok, p')) :
    ∃ issues, Issued p.flash p'.flash issues ∧ (∀ s ∈ programs issues, InPage s) ∧ (Idle p.flash → Polite issues) ∧
      (ok = true → ∃ image, loaded = .ok image ∧ image.length ≤ kCapacityBytes ∧
        programs issues = slices kPageSize image ∧ Holds image p'.flash.bridge.chip.memory) := by
  obtain ⟨r, q, hq, h⟩ := Method.bind_eq_some.mp h
  obtain ⟨f, hf, rfl⟩ := Method.on_eq_some.mp hq
  obtain ⟨hissued, hjedec⟩ := readId_spec hf
  have hpolite : Idle p.flash → Polite [⟨[kCmdReadId, 0, 0, 0], decide (p.flash.bridge.chip.busy ≠ 0)⟩] :=
    polite_of_idle _
  have hfalse {P : Prop} : false = true → P := fun h => absurd h Bool.false_ne_true
  -- before the erasure nothing is issued but the request for the identity
  have hearly {msg : Programming NorLink → String}
      (h : fail msg { p with flash := f } = some (ok, p')) :
      ∃ issues, Issued p.flash p'.flash issues ∧ (∀ s ∈ programs issues, InPage s) ∧ (Idle p.flash → Polite issues) ∧
        (ok = true → ∃ image, loaded = .ok image ∧ image.length ≤ kCapacityBytes ∧
          programs issues = slices kPageSize image ∧ Holds image p'.flash.bridge.chip.memory) := by
    obtain ⟨rfl, rfl⟩ := Prod.mk.inj (Option.some.inj h)
    exact ⟨_, hissued, fun s hs => absurd hs List.not_mem_nil, hpolite, hfalse⟩
  cases r with
  | none => exact hearly h
  | some jedec =>
    simp only at h
    split at h
    case isTrue => exact hearly h
    case isFalse hsupported =>
      obtain ⟨hchip, hidle⟩ := hjedec jedec rfl
      have hidle : Idle p.flash := hidle.resolve_right fun hff =>
        absurd ((not_not.mp hsupported).symm.trans hff) (by decide)
      have hidle₁ : Idle f := by
        rw [Idle, hchip]
        exact hidle
      cases loaded with
      | error err => exact hearly h
      | ok image =>
        simp only at h
        split at h
        case isTrue => exact hearly h
        case isFalse hcap =>
          obtain ⟨erased, q₁, hq₁, h⟩ := Method.bind_eq_some.mp h
          obtain ⟨f₁, hf₁, rfl⟩ := Method.on_eq_some.mp hq₁
          obtain ⟨⟨issues₁, hissued₁, hpolite₁, hprograms₁⟩, herased⟩ := bulkErase_spec hidle₁ hf₁
          cases erased with
          | false =>
            obtain ⟨rfl, rfl⟩ := Prod.mk.inj (Option.some.inj h)
            refine ⟨_, hissued.trans hissued₁, ?_, fun hidle => (hpolite hidle).append hpolite₁, hfalse⟩
            rw [programs_append, hprograms₁]
            exact fun s hs => absurd hs List.not_mem_nil
          | true =>
            obtain ⟨hidle₂, hmem₂⟩ := herased rfl
            obtain ⟨done, q₂, hq₂, h⟩ := Method.bind_eq_some.mp h
            have hcap' : image.length ≤ 2 ^ 24 := Nat.not_lt.mp hcap
            have hblank : Holds (image.take (kPageSize * 0)) f₁.bridge.chip.memory := by
              intro x
              rw [hmem₂]
              rfl
            obtain ⟨issues₂, m, hissued₂, hpolite₂, hle, hprograms₂, hdone⟩ :=
              programLoop_spec (k := 0) hcap' (by simp [kPageSize]; omega) (Nat.zero_le _) hidle₂ hblank hq₂
            have hprograms : programs ([⟨[kCmdReadId, 0, 0, 0], decide (p.flash.bridge.chip.busy ≠ 0)⟩] ++ issues₁ ++
                issues₂) = (List.range m).map (slice kPageSize image) := by
              rw [programs_append, programs_append, hprograms₁, hprograms₂, ← List.range_eq_range']
              rfl
            have hpages : ∀ s ∈ (List.range m).map (slice kPageSize image), InPage s := by
              intro s hs
              obtain ⟨k, -, rfl⟩ := List.mem_map.mp hs
              exact inPage_slice k
            cases done with
            | false =>
              obtain ⟨rfl, rfl⟩ := Prod.mk.inj (Option.some.inj h)
              refine ⟨_, (hissued.trans hissued₁).trans hissued₂, ?_,
                fun hidle => ((hpolite hidle).append hpolite₁).append hpolite₂, hfalse⟩
              rw [hprograms]
              exact hpages
            | true =>
              obtain ⟨hall, hidle₃, hmem₃⟩ := hdone rfl
              obtain ⟨⟨issues₃, hissued₃, hpolite₃, hprograms₃⟩, hchip₃⟩ := verifyLoop_spec hidle₃ h
              refine ⟨_, ((hissued.trans hissued₁).trans hissued₂).trans hissued₃, ?_,
                fun hidle => (((hpolite hidle).append hpolite₁).append hpolite₂).append hpolite₃, fun htrue => ?_⟩
              · rw [programs_append, hprograms, hprograms₃, List.append_nil]
                exact hpages
              · refine ⟨image, rfl, hcap', ?_, ?_⟩
                · rw [programs_append, hprograms, hprograms₃, List.append_nil, slices, ← hall, Nat.zero_add]
                · rw [hchip₃ htrue]
                  exact hmem₃

/-- Success means that the image has been read back, whatever the transport. -/
theorem writeImage_readback {β : Type} {B : IFlashBridge β} {q q' : Programming β} {loaded : Except String (List Byte)}
    (h : writeImage B loaded q = some (true, q')) :
    ∃ image, loaded = .ok image ∧ q'.readback = q.readback ++ slices kVerifyChunk image := by
  obtain ⟨r, q₁, hq₁, h⟩ := Method.bind_eq_some.mp h
  obtain ⟨f, -, rfl⟩ := Method.on_eq_some.mp hq₁
  cases r with
  | none => cases (Prod.mk.inj (Option.some.inj h)).1
  | some jedec =>
    simp only at h
    split at h
    · cases (Prod.mk.inj (Option.some.inj h)).1
    cases loaded with
    | error err => cases (Prod.mk.inj (Option.some.inj h)).1
    | ok image =>
      simp only at h
      split at h
      · cases (Prod.mk.inj (Option.some.inj h)).1
      obtain ⟨erased, q₂, hq₂, h⟩ := Method.bind_eq_some.mp h
      obtain ⟨f₂, -, rfl⟩ := Method.on_eq_some.mp hq₂
      cases erased with
      | false => cases (Prod.mk.inj (Option.some.inj h)).1
      | true =>
        obtain ⟨done, q₃, hq₃, h⟩ := Method.bind_eq_some.mp h
        cases done with
        | false => cases (Prod.mk.inj (Option.some.inj h)).1
        | true =>
          have hread := verifyLoop_readback (k := 0) (by simp [kVerifyChunk]; omega) (Nat.zero_le _) h
          refine ⟨image, rfl, ?_⟩
          rw [hread, readback_programLoop hq₃, Nat.sub_zero, ← List.range_eq_range']
          rfl

end Programming

namespace FlashProgrammer

open Mt25qFlash Programming

/-- Either it has not come to the flash, and says so, or its result is that of the flash. -/
theorem program_cases {σ β : Type} {T : Target σ} {B : IFlashBridge β} {attach : JtagChain σ → ℤ → β}
    {detach : JtagChain σ → β → JtagChain σ} {bridgeBit : Option (List Byte)} {loaded : Except String (List Byte)}
    {patience : List ℕ} {fp fp' : FlashProgrammer σ β} {ok : Bool}
    (h : program T B attach detach bridgeBit loaded patience fp = some (ok, fp')) :
    ok = false ∧ fp'.programming = none ∨
      ∃ chain lastError p, fp'.programming = some p ∧
        writeImage B loaded { flash := ⟨attach chain fp.plDeviceIndex, "", patience⟩, lastError } = some (ok, p) := by
  rw [program, Method.modify_bind] at h
  obtain ⟨⟨done, plError⟩, fp₁, hload, h⟩ := Method.bind_eq_some.mp h
  obtain ⟨_, _, hfp₁⟩ := Option.map_eq_some_iff.mp hload
  obtain ⟨-, rfl⟩ := Prod.mk.inj hfp₁
  cases done with
  | false =>
    obtain ⟨rfl, rfl⟩ := Prod.mk.inj (Option.some.inj h)
    exact .inl ⟨rfl, rfl⟩
  | true =>
    obtain ⟨settled, fp₂, hsettle, h⟩ := Method.bind_eq_some.mp h
    obtain ⟨chain, -, rfl⟩ := Method.on_eq_some.mp hsettle
    cases settled with
    | false =>
      obtain ⟨rfl, rfl⟩ := Prod.mk.inj (Option.some.inj h)
      exact .inl ⟨rfl, rfl⟩
    | true =>
      obtain ⟨⟨ok', p⟩, hwrite, hfp'⟩ := Option.map_eq_some_iff.mp h
      obtain ⟨rfl, rfl⟩ := Prod.mk.inj hfp'
      exact .inr ⟨_, _, p, rfl, hwrite⟩

/-- **The image is in the flash.** Over a SPI NOR flash, whatever its transactions and its erasures and programs do:
no page program leaves its page, on a chip that is not busy at first nothing but status reads is issued while it is,
and success means that every byte of the image is in the flash, sent in one page program, and every other byte is
`0xFF`. Over any transport, success means that what was read back is the image. -/
theorem program_writes {σ : Type} (T : Target σ) (bridgeBit : Option (List Byte)) (loaded : Except String (List Byte))
    (patience : List ℕ) :
    (∀ (nor : NorLink) (fp fp' : FlashProgrammer σ NorLink) (ok : Bool),
      program T NorLink.bridge (fun _ _ => nor) (fun chain _ => chain) bridgeBit loaded patience fp = some (ok, fp') →
      (ok = true → fp'.programming.isSome) ∧
      ∀ p, fp'.programming = some p → ∃ issues, p.flash.bridge.log = nor.log ++ issues ∧
        (∀ s ∈ programs issues, InPage s) ∧ (nor.chip.busy = 0 → Polite issues) ∧
        (ok = true → ∃ image, loaded = .ok image ∧ image.length ≤ kCapacityBytes ∧
          (∀ (i : ℕ) (hi : i < image.length), p.flash.bridge.chip.memory i = image[i] ∧
            (programs issues).countP (Covers i ·) = 1 ∧
            ∀ s ∈ programs issues, Covers i s → s.2.getD (i - s.1) 0 = image[i]) ∧
          ∀ i, image.length ≤ i → p.flash.bridge.chip.memory i = 0xFF)) ∧
    (∀ (β : Type) (B : IFlashBridge β) (attach : JtagChain σ → ℤ → β) (detach : JtagChain σ → β → JtagChain σ)
      (fp fp' : FlashProgrammer σ β) (ok : Bool),
      program T B attach detach bridgeBit loaded patience fp = some (ok, fp') →
      ∀ p, fp'.programming = some p →
        (ok = true → ∃ image, loaded = .ok image ∧ p.readback = slices kVerifyChunk image) ∧
        ∀ image, loaded = .ok image →
          (∃ r ∈ p.readback, ∃ i, ∃ hi : i < r.2.length, r.2[i] ≠ image.getD (r.1 + i) 0) → ok = false) := by
  refine ⟨fun nor fp fp' ok h => ?_, fun β B attach detach fp fp' ok h p hp => ?_⟩
  · obtain ⟨rfl, hnone⟩ | ⟨chain, lastError, p, hp, hwrite⟩ := program_cases h
    · exact ⟨nofun, fun p hp => absurd (hnone.symm.trans hp) nofun⟩
    · refine ⟨fun _ => by rw [hp]; rfl, fun p' hp' => ?_⟩
      obtain rfl : p = p' := Option.some.inj (hp.symm.trans hp')
      obtain ⟨issues, hissued, hpage, hpolite, hok⟩ := writeImage_spec hwrite
      refine ⟨issues, hissued, hpage, hpolite, fun htrue => ?_⟩
      obtain ⟨image, hloaded, hcap, hprograms, hholds⟩ := hok htrue
      refine ⟨image, hloaded, hcap, fun i hi => ⟨?_, ?_, fun s hs hcovers => ?_⟩, fun i hi => ?_⟩
      · rw [hholds, List.getD_eq_getElem _ _ hi]
      · rw [hprograms, countP_covers (by decide) hi]
      · rw [hprograms] at hs
        obtain ⟨k, -, rfl⟩ := List.mem_map.mp hs
        exact (getD_slice hcovers).trans (List.getD_eq_getElem _ _ hi)
      · rw [hholds, List.getD_eq_default _ _ hi]
  · obtain ⟨rfl, hnone⟩ | ⟨chain, lastError, p₁, hp₁, hwrite⟩ := program_cases h
    · exact absurd (hnone.symm.trans hp) nofun
    · obtain rfl : p₁ = p := Option.some.inj (hp₁.symm.trans hp)
      have hreadback (htrue : ok = true) : ∃ image, loaded = .ok image ∧ p₁.readback = slices kVerifyChunk image := by
        rw [htrue] at hwrite
        exact writeImage_readback hwrite
      refine ⟨hreadback, fun image hloaded ⟨r, hr, i, hi, hne⟩ => ?_⟩
      by_contra htrue
      obtain ⟨image', hloaded', hslices⟩ := hreadback (Bool.not_eq_false _ ▸ htrue)
      obtain rfl : image = image' := Except.ok.inj (hloaded.symm.trans hloaded')
      rw [hslices] at hr
      obtain ⟨k, -, rfl⟩ := List.mem_map.mp hr
      have hcovers : Covers (kVerifyChunk * k + i) (slice kVerifyChunk image k) :=
        ⟨Nat.le_add_right _ _, Nat.add_lt_add_left hi _⟩
      have hsame := getD_slice hcovers
      rw [Nat.add_sub_cancel_left, List.getD_eq_getElem _ _ hi] at hsame
      exact hne hsame

/-- A flash with old contents, whose erasure and first program take a while. -/
def oldFlash : NorLink where
  chip := { memory := fun _ => 0, identity := [0x20, 0xBA, 0x18], durations := [2, 1] }

/-- A programmer whose bridge loads. -/
def bench : FlashProgrammer Unit NorLink where
  chain := (PlConfig.onWire (PlConfig.untilCfgIn ++ List.replicate 6 .whole ++ PlConfig.lost ::
    List.replicate 6 .whole ++ List.replicate 20 PlConfig.lost)).chain
  plDeviceIndex := 0
  bridgeBitPath := ""

theorem bench_written :
    ∃ fp' p, program Target.wire NorLink.bridge (fun _ _ => oldFlash) (fun chain _ => chain) (some sync)
        (.ok [0x12, 0x34, 0x56]) [5, 5] bench = some (true, fp') ∧ fp'.programming = some p ∧
      p.flash.bridge.chip.memory 1 = 0x34 ∧ p.flash.bridge.chip.memory 3 = 0xFF := by
  have hrun : ((program Target.wire NorLink.bridge (fun _ _ => oldFlash) (fun chain _ => chain) (some sync)
      (.ok [0x12, 0x34, 0x56]) [5, 5] bench).map Prod.fst) = some true := by decide +kernel
  obtain ⟨⟨ok, fp'⟩, h, rfl⟩ := Option.map_eq_some_iff.mp hrun
  obtain ⟨hsome, hall⟩ :=
    (program_writes Target.wire (some sync) (.ok [0x12, 0x34, 0x56]) [5, 5]).1 oldFlash bench fp' _ h
  obtain ⟨p, hp⟩ := Option.isSome_iff_exists.mp (hsome rfl)
  obtain ⟨issues, -, -, -, hok⟩ := hall p hp
  obtain ⟨image, himage, -, hbytes, hrest⟩ := hok rfl
  obtain rfl := Except.ok.inj himage
  exact ⟨fp', p, h, hp, (hbytes 1 (by decide)).1, hrest 3 (by decide)⟩

end FlashProgrammer

end OwlTap.Flash
