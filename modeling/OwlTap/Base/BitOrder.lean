import OwlTap.Base.Bits

/-!
# The order of the bits of a byte

A buffer is shifted with the least significant bit of each byte first. Serial protocols often have
the most significant one first, and then the bits of every byte are reversed on the way.
-/

namespace OwlTap

/-- The bits of a byte, least significant one first. -/
def lsbFirst (b : Byte) : List Bool := (List.range 8).map b.getLsbD

/-- The bits of a byte, most significant one first. -/
def msbFirst (b : Byte) : List Bool := (lsbFirst b).reverse

@[simp] theorem length_lsbFirst (b : Byte) : (lsbFirst b).length = 8 := rfl

@[simp] theorem length_msbFirst (b : Byte) : (msbFirst b).length = 8 := rfl

/-- A buffer followed by another. -/
theorem bits_append (a b : List Byte) (n : ℕ) : bits (a ++ b) (8 * a.length + n) = bits a (8 * a.length) ++ bits b n := by
  rw [bits_add]
  congr 1
  · exact List.map_congr_left fun i hi => bitAt_append_left a b (List.mem_range.mp hi)
  · exact List.map_congr_left fun i _ => bitAt_append_right a b i

/-- A whole buffer, byte by byte. -/
theorem bits_whole (buf : List Byte) : bits buf (8 * buf.length) = buf.flatMap lsbFirst := by
  induction buf with
  | nil => rfl
  | cons b buf ih =>
    have hbyte : bits [b] (8 * [b].length) = lsbFirst b :=
      List.map_congr_left fun i hi => bitAt_cons_of_lt b [] (List.mem_range.mp hi)
    have hlen : 8 * (b :: buf).length = 8 * [b].length + 8 * buf.length := by
      rw [List.length_cons, List.length_singleton, Nat.mul_add, Nat.add_comm]
    rw [hlen, ← List.singleton_append, bits_append, hbyte, ih, List.singleton_append, List.flatMap_cons]

theorem length_flatMap_msbFirst (bytes : List Byte) : (bytes.flatMap msbFirst).length = 8 * bytes.length := by
  induction bytes with
  | nil => rfl
  | cons b bytes ih =>
    rw [List.flatMap_cons, List.length_append, ih, length_msbFirst, List.length_cons]
    omega

end OwlTap
