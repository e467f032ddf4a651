import Mathlib.Algebra.Order.Ring.Int
import Mathlib.Data.List.Basic
import Mathlib.Data.List.GetD

/-!
# Bits in byte buffers

A byte buffer read as a string of bits, least significant bit of the first byte
first: bit `i` is `(buf[i / 8] >> (i % 8)) & 1`. The two operations on it are
reading a bit (`bitAt`) and or-ing a bit in (`orBit`); a loop of the latter copies
a string of bits to an offset (`orBits`), and `packBits` is the buffer that holds
a given string of bits and nothing else.
-/

namespace OwlTap

/-- A byte. -/
abbrev Byte := BitVec 8

/-- Bit `i` of a buffer; past the end every bit is `0`. -/
def bitAt (buf : List Byte) (i : ℕ) : Bool := (buf.getD (i / 8) 0).getLsbD (i % 8)

/-- The first `n` bits of a buffer. -/
def bits (buf : List Byte) (n : ℕ) : List Bool := (List.range n).map (bitAt buf)

@[simp] theorem length_bits (buf : List Byte) (n : ℕ) : (bits buf n).length = n := by simp [bits]

@[simp] theorem getElem_bits (buf : List Byte) {n i : ℕ} (h : i < (bits buf n).length) :
    (bits buf n)[i] = bitAt buf i := by simp [bits]

theorem bits_zero (buf : List Byte) : bits buf 0 = [] := rfl

theorem bits_succ (buf : List Byte) (n : ℕ) : bits buf (n + 1) = bits buf n ++ [bitAt buf n] := by
  simp [bits, List.range_succ]

theorem bits_add (buf : List Byte) (m n : ℕ) :
    bits buf (m + n) = bits buf m ++ (List.range n).map fun i => bitAt buf (m + i) := by
  simp [bits, List.range_add, Function.comp_def]

theorem bitAt_of_le (buf : List Byte) {i : ℕ} (h : 8 * buf.length ≤ i) : bitAt buf i = false := by
  have : buf[i / 8]? = none := List.getElem?_eq_none (by omega)
  simp [bitAt, List.getD, this]

theorem bitAt_cons_of_lt (b : Byte) (buf : List Byte) {i : ℕ} (h : i < 8) :
    bitAt (b :: buf) i = b.getLsbD i := by
  have h0 : i / 8 = 0 := by omega
  have h1 : i % 8 = i := by omega
  simp [bitAt, h0, h1]

theorem bitAt_cons_add (b : Byte) (buf : List Byte) (i : ℕ) : bitAt (b :: buf) (8 + i) = bitAt buf i := by
  have h0 : (8 + i) / 8 = i / 8 + 1 := by omega
  have h1 : (8 + i) % 8 = i % 8 := by omega
  simp [bitAt, h0, h1]

theorem bitAt_append_left (a b : List Byte) {i : ℕ} (h : i < 8 * a.length) :
    bitAt (a ++ b) i = bitAt a i := by
  have : i / 8 < a.length := by omega
  simp [bitAt, List.getD, List.getElem?_append_left this]

theorem bitAt_append_right (a b : List Byte) (i : ℕ) : bitAt (a ++ b) (8 * a.length + i) = bitAt b i := by
  have h0 : (8 * a.length + i) / 8 = a.length + i / 8 := by omega
  have h1 : (8 * a.length + i) % 8 = i % 8 := by omega
  simp [bitAt, h0, h1, List.getD, List.getElem?_append_right]

theorem bitAt_take (buf : List Byte) {k i : ℕ} (h : i < 8 * k) : bitAt (buf.take k) i = bitAt buf i := by
  have : i / 8 < k := by omega
  simp [bitAt, List.getD, this]

theorem bitAt_drop (buf : List Byte) (k i : ℕ) : bitAt (buf.drop k) i = bitAt buf (8 * k + i) := by
  have h0 : (8 * k + i) / 8 = k + i / 8 := by omega
  have h1 : (8 * k + i) % 8 = i % 8 := by omega
  simp [bitAt, h0, h1, List.getD]

/-- All bits of a replicated zero byte are `0`. -/
@[simp] theorem bitAt_replicate_zero (k i : ℕ) : bitAt (List.replicate k 0#8) i = false := by
  simp only [bitAt, List.getD, List.getElem?_replicate]
  split <;> simp

theorem bits_replicate_zero (k n : ℕ) : bits (List.replicate k (0 : Byte)) n = List.replicate n false := by
  refine List.eq_replicate_iff.mpr ⟨length_bits _ n, fun b hb => ?_⟩
  obtain ⟨i, -, rfl⟩ := List.mem_map.mp hb
  exact bitAt_replicate_zero k i

/-- Buffers of the same length with the same bits are the same. -/
theorem buffer_ext {a b : List Byte} (hl : a.length = b.length)
    (h : ∀ i, i < 8 * a.length → bitAt a i = bitAt b i) : a = b := by
  induction a generalizing b with
  | nil => exact (List.length_eq_zero_iff.mp hl.symm).symm
  | cons x a ih =>
    cases b with
    | nil => simp at hl
    | cons y b =>
      have hxy : x = y := by
        apply BitVec.eq_of_getLsbD_eq
        intro i hi
        have := h i (by simp; omega)
        rwa [bitAt_cons_of_lt _ _ hi, bitAt_cons_of_lt _ _ hi] at this
      have hab : a = b := ih (by simpa using hl) fun i hi => by
        have := h (8 + i) (by simp; omega)
        rwa [bitAt_cons_add, bitAt_cons_add] at this
      rw [hxy, hab]

/-! ### Or-ing bits in -/

/-- `buf[i / 8] |= 1 << (i % 8)`. -/
def orBit (buf : List Byte) (i : ℕ) : List Byte := buf.modify (i / 8) (· ||| 1#8 <<< (i % 8))

@[simp] theorem length_orBit (buf : List Byte) (i : ℕ) : (orBit buf i).length = buf.length := by
  simp [orBit]

theorem getLsbD_one_shiftLeft {w i j : ℕ} (hj : j < w) : (1#w <<< i).getLsbD j = decide (j = i) := by
  rw [BitVec.getLsbD_shiftLeft]
  by_cases h : j = i
  · subst h; simp [hj, Nat.zero_lt_of_lt hj]
  · by_cases hlt : j < i
    · simp [hlt, h]
    · have : (1#w).getLsbD (j - i) = false := by
        rw [BitVec.getLsbD_one]; simp; omega
      simp [this, h]

theorem bitAt_orBit (buf : List Byte) {i : ℕ} (hi : i < 8 * buf.length) (j : ℕ) :
    bitAt (orBit buf i) j = (bitAt buf j || decide (j = i)) := by
  by_cases hb : i / 8 = j / 8
  · have hj : j / 8 < buf.length := by omega
    have hd : decide (j % 8 = i % 8) = decide (j = i) := decide_eq_decide.mpr (by omega)
    simp only [bitAt, orBit, List.getD, hb, List.getElem?_modify_eq, List.getElem?_eq_getElem hj]
    simp [BitVec.getLsbD_or, getLsbD_one_shiftLeft (Nat.mod_lt j (by decide : 0 < 8)), hd]
  · have hne : ¬ j = i := fun e => hb (by rw [e])
    simp [bitAt, orBit, List.getD, List.getElem?_modify_ne _ _ hb, hne]

/-- The copying loop `for (b = 0; b < n; b++) if (f(b)) buf[(off + b) / 8] |= 1 << ((off + b) % 8)`. -/
def orBits (f : ℕ → Bool) (off n : ℕ) (buf : List Byte) : List Byte :=
  (List.range n).foldl (fun buf b => if f b then orBit buf (off + b) else buf) buf

@[simp] theorem orBits_zero (f : ℕ → Bool) (off : ℕ) (buf : List Byte) : orBits f off 0 buf = buf := rfl

theorem orBits_succ (f : ℕ → Bool) (off n : ℕ) (buf : List Byte) :
    orBits f off (n + 1) buf =
      if f n then orBit (orBits f off n buf) (off + n) else orBits f off n buf := by
  simp [orBits, List.range_succ]

@[simp] theorem length_orBits (f : ℕ → Bool) (off n : ℕ) (buf : List Byte) :
    (orBits f off n buf).length = buf.length := by
  induction n with
  | zero => rfl
  | succ n ih => rw [orBits_succ]; split <;> simp [ih]

theorem orBits_congr {f g : ℕ → Bool} (off : ℕ) {n : ℕ} (buf : List Byte) (h : ∀ i < n, f i = g i) :
    orBits f off n buf = orBits g off n buf := by
  induction n with
  | zero => rfl
  | succ n ih => rw [orBits_succ, orBits_succ, ih fun i hi => h i (by omega), h n (by omega)]

/-- What the copying loop does to each bit. -/
theorem bitAt_orBits (f : ℕ → Bool) (off : ℕ) {n : ℕ} {buf : List Byte}
    (h : off + n ≤ 8 * buf.length) (j : ℕ) :
    bitAt (orBits f off n buf) j =
      (bitAt buf j || (decide (off ≤ j) && decide (j < off + n) && f (j - off))) := by
  induction n with
  | zero =>
    have hnone : ¬(off ≤ j ∧ j < off + 0) := by omega
    rw [orBits_zero, ← Bool.decide_and, decide_eq_false hnone, Bool.false_and, Bool.or_false]
  | succ n ih =>
    have ih := ih (by omega)
    rw [orBits_succ]
    by_cases hj : j = off + n
    · subst hj
      cases hf : f n <;> simp [hf, ih, bitAt_orBit _ (show off + n < 8 * (orBits f off n buf).length by simp; omega)]
    · have hlt : decide (j < off + (n + 1)) = decide (j < off + n) := decide_eq_decide.mpr (by omega)
      rw [hlt]
      cases hf : f n
      · simp [ih]
      · simp [ih, bitAt_orBit _ (show off + n < 8 * (orBits f off n buf).length by simp; omega), hj]

/-- A copy into zeros. -/
theorem bitAt_orBits_zeros (f : ℕ → Bool) {off n k : ℕ} (h : off + n ≤ 8 * k) (j : ℕ) :
    bitAt (orBits f off n (List.replicate k (0 : Byte))) j = (decide (off ≤ j) && decide (j < off + n) && f (j - off)) := by
  have hzero : bitAt (List.replicate k (0 : Byte)) j = false := bitAt_replicate_zero k j
  rw [bitAt_orBits f off (by rwa [List.length_replicate]), hzero, Bool.false_or]

/-! ### Packing -/

/-- How many bytes `n` bits need: `(n + 7) / 8`. -/
def bytesFor (n : ℕ) : ℕ := (n + 7) / 8

theorem le_bytesFor (n : ℕ) : n ≤ 8 * bytesFor n := by unfold bytesFor; omega

/-- The buffer that holds the bits `r`, unused bits `0`. -/
def packBits (r : List Bool) : List Byte :=
  orBits (fun i => r.getD i false) 0 r.length (List.replicate (bytesFor r.length) 0#8)

@[simp] theorem length_packBits (r : List Bool) : (packBits r).length = bytesFor r.length := by
  simp [packBits]

theorem bitAt_packBits (r : List Bool) (i : ℕ) : bitAt (packBits r) i = r.getD i false := by
  rw [packBits, bitAt_orBits _ _ (by have := le_bytesFor r.length; simp; omega)]
  by_cases h : i < r.length <;> simp [h]

theorem bits_packBits (r : List Bool) : bits (packBits r) r.length = r := by
  apply List.ext_getElem (by simp)
  intro i h₁ h₂
  rw [getElem_bits, bitAt_packBits, List.getD_eq_getElem _ _ h₂]

/-- A buffer of the right length that holds the bits `r` and zeros is `packBits r`. -/
theorem eq_packBits {buf : List Byte} {r : List Bool} (hl : buf.length = bytesFor r.length)
    (h : ∀ i, bitAt buf i = r.getD i false) : buf = packBits r :=
  buffer_ext (by rw [hl, length_packBits]) fun i _ => by rw [h, bitAt_packBits]

/-- A part of buffers of one length that lie one after the other. -/
theorem slice_flatten {α : Type} {xs : List (List α)} {w : ℕ} (h : ∀ x ∈ xs, x.length = w) {i : ℕ}
    (hi : i < xs.length) : ((xs.flatten).drop (i * w)).take w = xs[i] := by
  induction xs generalizing i with
  | nil => simp at hi
  | cons x xs ih =>
    have hx : x.length = w := h x List.mem_cons_self
    rw [List.flatten_cons]
    cases i with
    | zero =>
      rw [Nat.zero_mul, List.drop_zero, List.take_left' hx]
      rfl
    | succ i =>
      have hdrop : (i + 1) * w = x.length + i * w := by rw [hx, Nat.succ_mul, Nat.add_comm]
      rw [hdrop, List.drop_length_add_append, ih (fun y hy => h y (List.mem_cons_of_mem _ hy)) (by simpa using hi)]
      rfl

theorem length_flatten_of_length {α : Type} {xs : List (List α)} {w : ℕ} (h : ∀ x ∈ xs, x.length = w) :
    xs.flatten.length = xs.length * w := by
  rw [List.length_flatten, List.map_congr_left h, List.map_const', List.sum_replicate_nat]

end OwlTap
