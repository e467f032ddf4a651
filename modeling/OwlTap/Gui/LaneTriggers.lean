import OwlTap.Gui.IlaPanel

/-!
# What the trigger lanes compile to

The registers compare each lane with Eq to its value, and each lane with Neq to the bitwise complement
of its value. So for lanes of one bit the comparator fires as the conditions say, and for wider ones
unless a lane with Neq is between its value and the complement (`IlaPanel.fires_iff`).
-/

namespace OwlTap.Gui

open OwlTap Ila

/-! ### One lane -/

namespace IlaSignalDef

/-- The lane lies in the word. -/
def Inside (s : IlaSignalDef) : Prop := 0 ≤ s.lo ∧ s.lo ≤ s.hi ∧ s.hi ≤ 31

theorem ones_getLsbD {n : ℕ} (h : n < 32) (i : ℕ) : ((1#32 <<< n) - 1).getLsbD i = decide (i < n) := by
  have hle : (2 : ℕ) ^ n < 2 ^ 32 := Nat.pow_lt_pow_right (by decide) h
  have hpos : 0 < 2 ^ n := Nat.two_pow_pos n
  have hone : (1#32 <<< n).toNat = 2 ^ n := by
    rw [BitVec.toNat_shiftLeft, Nat.shiftLeft_eq, show (1#32).toNat = 1 from rfl, Nat.one_mul, Nat.mod_eq_of_lt hle]
  have hsub : ((1#32 <<< n) - 1).toNat = 2 ^ n - 1 := by
    rw [BitVec.toNat_sub_of_le (by rw [BitVec.le_def, hone]; exact hpos), hone]
    rfl
  rw [BitVec.getLsbD, hsub, Nat.testBit_two_pow_sub_one]

/-- The bits of the mask are those of the lane. -/
theorem laneBits_getLsbD {s : IlaSignalDef} (h : s.Inside) (i : ℕ) :
    s.laneBits.getLsbD i = decide (s.lo ≤ i ∧ i ≤ s.hi) := by
  obtain ⟨h₀, h₁, h₂⟩ := h
  rw [laneBits, width]
  split
  case isTrue hw =>
    rw [show (0xFFFFFFFF : BitVec 32) = BitVec.allOnes 32 by decide, BitVec.getLsbD_allOnes]
    exact decide_eq_decide.mpr (by omega)
  case isFalse hw =>
    rw [BitVec.getLsbD_shiftLeft, ones_getLsbD (by omega)]
    by_cases hi : i < 32
    · by_cases hlo : i < s.lo.toNat
      · simp only [hi, hlo, decide_true, Bool.not_true, Bool.and_false, Bool.false_and]
        exact (decide_eq_false (by omega)).symm
      · simp only [hi, hlo, decide_true, decide_false, Bool.not_false, Bool.and_true, Bool.true_and]
        exact decide_eq_decide.mpr (by omega)
    · simp only [hi, decide_false, Bool.false_and]
      exact (decide_eq_false (by omega)).symm

/-- The extracted value bit by bit. -/
theorem extract_testBit {s : IlaSignalDef} (h : s.Inside) (x : BitVec 32) (i : ℕ) :
    (s.extract x).toNat.testBit i = (decide (i < s.width.toNat) && x.getLsbD (s.lo.toNat + i)) := by
  obtain ⟨h₀, h₁, h₂⟩ := h
  have hw : s.width = s.hi - s.lo + 1 := rfl
  rw [extract, if_neg (by omega), ← BitVec.getLsbD, BitVec.getLsbD_and, BitVec.getLsbD_ushiftRight]
  split
  case isTrue hw' =>
    rw [show (0xFFFFFFFF : BitVec 32) = BitVec.allOnes 32 by decide, BitVec.getLsbD_allOnes,
      show s.width.toNat = 32 by omega, Bool.and_comm]
  case isFalse hw' => rw [ones_getLsbD (by omega), Bool.and_comm]

theorem laneBits_ne_zero {s : IlaSignalDef} (h : s.Inside) : s.laneBits ≠ 0 := fun h₀ => by
  have hbit := laneBits_getLsbD h s.lo.toNat
  rw [h₀, decide_eq_true (by obtain ⟨h₁, h₂, -⟩ := h; omega)] at hbit
  revert hbit
  simp

end IlaSignalDef

namespace LaneCond

/-- The lane has a value if its bits are those of the value. -/
theorem reads_iff {c : LaneCond} (h : c.sig.Inside) (value cur : BitVec 32) :
    c.Reads value cur ↔ ∀ i < c.sig.width.toNat, cur.getLsbD (c.sig.lo.toNat + i) = value.getLsbD i := by
  constructor
  · intro hr i hi
    have := congrArg (fun n => n.testBit i) hr
    simp only [IlaSignalDef.extract_testBit h, Nat.testBit_mod_two_pow, hi, decide_true, Bool.true_and] at this
    exact this
  · intro hall
    refine Nat.eq_of_testBit_eq fun i => ?_
    rw [IlaSignalDef.extract_testBit h, Nat.testBit_mod_two_pow]
    by_cases hi : i < c.sig.width.toNat
    · rw [hall i hi]
      rfl
    · simp only [hi, decide_false, Bool.false_and]

/-- A value and its complement differ in each bit of the lane. -/
theorem not_reads_of_complement {c : LaneCond} (h : c.sig.Inside) {value cur : BitVec 32} (hr : c.Reads (~~~value) cur) :
    ¬c.Reads value cur := by
  intro hr'
  have hw : c.sig.width = c.sig.hi - c.sig.lo + 1 := rfl
  obtain ⟨h₀, h₁, h₂⟩ := h
  have hpos : 0 < c.sig.width.toNat := by omega
  have h₃ := (reads_iff ⟨h₀, h₁, h₂⟩ _ _).mp hr 0 hpos
  have h₄ := (reads_iff ⟨h₀, h₁, h₂⟩ _ _).mp hr' 0 hpos
  rw [h₄, BitVec.getLsbD_not] at h₃
  revert h₃
  simp

/-- The lane compared with a value. -/
def comparison (c : LaneCond) (value : BitVec 32) : Comparison 32 where
  mask := c.sig.laneBits
  value := (value <<< c.sig.lo.toNat) &&& c.sig.laneBits
  value_and_mask := by rw [BitVec.and_assoc, BitVec.and_self]

theorem comparison_holds_iff {c : LaneCond} (h : c.sig.Inside) (value cur : BitVec 32) :
    (c.comparison value).Holds cur ↔ c.Reads value cur := by
  have hw : c.sig.width = c.sig.hi - c.sig.lo + 1 := rfl
  have hbits := IlaSignalDef.laneBits_getLsbD h
  obtain ⟨h₀, h₁, h₂⟩ := h
  rw [reads_iff ⟨h₀, h₁, h₂⟩]
  constructor
  · intro heq i hi
    have hbit := congrArg (fun x : BitVec 32 => x.getLsbD (c.sig.lo.toNat + i)) heq
    have hin : decide (c.sig.lo ≤ ((c.sig.lo.toNat + i : ℕ) : ℤ) ∧ ((c.sig.lo.toNat + i : ℕ) : ℤ) ≤ c.sig.hi) = true :=
      decide_eq_true (by omega)
    simp only [comparison, BitVec.getLsbD_and, hbits, hin, Bool.and_true, BitVec.getLsbD_shiftLeft,
      Nat.add_sub_cancel_left] at hbit
    rw [hbit, decide_eq_true (show c.sig.lo.toNat + i < 32 by omega),
      decide_eq_false (show ¬c.sig.lo.toNat + i < c.sig.lo.toNat by omega)]
    rfl
  · intro hall
    refine BitVec.eq_of_getLsbD_eq fun i hi => ?_
    simp only [comparison, BitVec.getLsbD_and, hbits, BitVec.getLsbD_shiftLeft]
    by_cases hin : c.sig.lo ≤ (i : ℤ) ∧ (i : ℤ) ≤ c.sig.hi
    · have hcur := hall (i - c.sig.lo.toNat) (by omega)
      rw [Nat.add_sub_cancel' (by omega)] at hcur
      rw [hcur, decide_eq_true hi, decide_eq_false (show ¬i < c.sig.lo.toNat by omega)]
      rfl
    · rw [decide_eq_false hin, Bool.and_false, Bool.and_false]

/-- What the condition is compiled to. -/
def compiled (c : LaneCond) : Comparison 32 :=
  match c.cond with
  | .eq => c.comparison c.value
  | .neq => c.comparison (~~~c.value)
  | _ => .trivial

/-- The bits that may rise. -/
def riseBits (c : LaneCond) : BitVec 32 := if c.cond = .rise ∨ c.cond = .either then c.sig.laneBits else 0

/-- The bits that may fall. -/
def fallBits (c : LaneCond) : BitVec 32 := if c.cond = .fall ∨ c.cond = .either then c.sig.laneBits else 0

/-- The comparison is right, except that Neq compares with the complement. -/
theorem compiled_holds_iff {c : LaneCond} (h : c.sig.Inside) (cur : BitVec 32) :
    c.compiled.Holds cur ↔ c.Level cur ∧ ¬c.Between cur := by
  have htrivial : Comparison.Holds .trivial cur := BitVec.and_zero
  rw [compiled, Level, Between]
  cases hc : c.cond with
  | eq => simp [comparison_holds_iff h]
  | neq =>
    simp only [comparison_holds_iff h]
    constructor
    · intro hr
      exact ⟨⟨nofun, fun _ => not_reads_of_complement h hr⟩, fun hb => hb.2.2 hr⟩
    · rintro ⟨⟨-, hne⟩, hb⟩
      by_contra hr
      exact hb ⟨trivial, hne trivial, hr⟩
  | none => simp [htrivial]
  | rise => simp [htrivial]
  | fall => simp [htrivial]
  | either => simp [htrivial]

end LaneCond

/-! ### One group -/

/-- The lanes of a group lie in the word and do not overlap. -/
structure Fits (g : List LaneCond) : Prop where
  /-- Inside the word. -/
  inside : ∀ c ∈ g, c.sig.Inside
  /-- Pairwise disjoint. -/
  disjoint : g.Pairwise fun a b => a.sig.hi < b.sig.lo ∨ b.sig.hi < a.sig.lo

/-- All comparisons of a group at once. -/
def compiledAll (g : List LaneCond) : Comparison 32 := .all (g.map LaneCond.compiled)

/-- The bits of a group that may rise. -/
def riseAll (g : List LaneCond) : BitVec 32 := orAll (g.map LaneCond.riseBits)

/-- The bits of a group that may fall. -/
def fallAll (g : List LaneCond) : BitVec 32 := orAll (g.map LaneCond.fallBits)

theorem LaneCond.compiled_mask {c : LaneCond} :
    c.compiled.mask = if c.cond = .eq ∨ c.cond = .neq then c.sig.laneBits else 0 := by
  rw [compiled]
  cases c.cond with
  | eq => rfl
  | neq => rfl
  | none => rfl
  | rise => rfl
  | fall => rfl
  | either => rfl

/-- Lanes that do not overlap are compared independently. -/
theorem compiled_disjoint {a b : LaneCond} (ha : a.sig.Inside) (hb : b.sig.Inside)
    (h : a.sig.hi < b.sig.lo ∨ b.sig.hi < a.sig.lo) : Comparison.Disjoint a.compiled b.compiled := by
  have hbits : a.sig.laneBits &&& b.sig.laneBits = 0 := by
    refine BitVec.eq_of_getLsbD_eq fun i _ => ?_
    rw [BitVec.getLsbD_and, IlaSignalDef.laneBits_getLsbD ha, IlaSignalDef.laneBits_getLsbD hb,
      show (0 : BitVec 32).getLsbD i = false from BitVec.getLsbD_zero]
    by_cases hi : a.sig.lo ≤ (i : ℤ) ∧ (i : ℤ) ≤ a.sig.hi
    · rw [decide_eq_false (show ¬(b.sig.lo ≤ (i : ℤ) ∧ (i : ℤ) ≤ b.sig.hi) by omega), Bool.and_false]
    · rw [decide_eq_false hi, Bool.false_and]
  rw [Comparison.Disjoint, LaneCond.compiled_mask, LaneCond.compiled_mask]
  split
  · split
    · exact hbits
    · exact BitVec.and_zero
  · exact BitVec.zero_and

namespace Fits

variable {g : List LaneCond} (h : Fits g)

include h

/-- The level of a group is right, except that Neq compares with the complement. -/
theorem compiledAll_holds_iff (cur : BitVec 32) :
    (compiledAll g).Holds cur ↔ (∀ c ∈ g, c.Level cur) ∧ Clear g cur := by
  have hpair : (g.map LaneCond.compiled).Pairwise Comparison.Disjoint := by
    rw [List.pairwise_map]
    exact h.disjoint.imp_of_mem fun ha hb => compiled_disjoint (h.inside _ ha) (h.inside _ hb)
  rw [compiledAll, Comparison.all_holds_iff hpair, List.forall_mem_map, Clear, ← forall₂_and]
  exact forall₂_congr fun c hc => LaneCond.compiled_holds_iff (h.inside c hc) cur

/-- Some lane of the group has bits that a word has too. -/
theorem and_orAll_ne_zero_iff (r : BitVec 32) (sel : LaneCond → Prop) [DecidablePred sel] :
    r &&& orAll (g.map fun c => if sel c then c.sig.laneBits else 0) ≠ 0 ↔
      ∃ c ∈ g, sel c ∧ ∃ i : ℕ, (c.sig.lo ≤ i ∧ i ≤ c.sig.hi) ∧ r.getLsbD i = true := by
  rw [ne_eq, and_orAll_eq_zero_iff, List.forall_mem_map]
  push Not
  refine exists_congr fun c => and_congr_right fun hc => ?_
  by_cases hs : sel c
  · rw [if_pos hs, and_iff_right hs]
    have hbit := IlaSignalDef.laneBits_getLsbD (h.inside c hc)
    constructor
    · intro hne
      by_contra hno
      push Not at hno
      refine hne (BitVec.eq_of_getLsbD_eq fun i _ => ?_)
      rw [BitVec.getLsbD_and, hbit, show (0 : BitVec 32).getLsbD i = false from BitVec.getLsbD_zero]
      by_cases hin : c.sig.lo ≤ (i : ℤ) ∧ (i : ℤ) ≤ c.sig.hi
      · rw [Bool.eq_false_iff.mpr (hno i hin), Bool.false_and]
      · rw [decide_eq_false hin, Bool.and_false]
    · rintro ⟨i, hin, hi⟩ hzero
      have := congrArg (fun x : BitVec 32 => x.getLsbD i) hzero
      simp only [BitVec.getLsbD_and, hbit, hi, decide_eq_true hin] at this
      revert this
      simp
  · rw [if_neg hs]
    exact iff_of_false (fun hne => hne BitVec.and_zero) fun hno => hs hno.1

/-- The masks of the edges are empty if no lane has a condition on edges. -/
theorem no_edges_iff : riseAll g = 0 ∧ fallAll g = 0 ↔ ¬∃ c ∈ g, c.IsEdge := by
  have hne : ∀ c ∈ g, ¬c.sig.laneBits = 0#32 := fun c hc => IlaSignalDef.laneBits_ne_zero (h.inside c hc)
  rw [riseAll, fallAll, orAll_eq_zero_iff, orAll_eq_zero_iff, List.forall_mem_map, List.forall_mem_map, ← forall₂_and]
  push Not
  refine forall₂_congr fun c hc => ?_
  rw [LaneCond.riseBits, LaneCond.fallBits, LaneCond.IsEdge]
  cases c.cond <;> simp [hne c hc]

/-- The group is in use. -/
theorem used_iff : (compiledAll g).mask ≠ 0 ∨ riseAll g ≠ 0 ∨ fallAll g ≠ 0 ↔ Used g := by
  have hne : ∀ c ∈ g, ¬c.sig.laneBits = 0#32 := fun c hc => IlaSignalDef.laneBits_ne_zero (h.inside c hc)
  rw [← not_iff_not]
  push Not
  rw [compiledAll, Comparison.all_mask, riseAll, fallAll, orAll_eq_zero_iff, orAll_eq_zero_iff, orAll_eq_zero_iff,
    List.map_map, List.forall_mem_map, List.forall_mem_map, List.forall_mem_map, ← forall₂_and, ← forall₂_and, Used]
  push Not
  refine forall₂_congr fun c hc => ?_
  rw [Function.comp, LaneCond.compiled_mask, LaneCond.riseBits, LaneCond.fallBits]
  cases c.cond <;> simp [hne c hc]

/-- A selected edge is seen. -/
theorem edge_iff (prev cur : BitVec 32) :
    ~~~prev &&& cur &&& riseAll g ≠ 0 ∨ prev &&& ~~~cur &&& fallAll g ≠ 0 ↔ ∃ c ∈ g, c.Edge prev cur := by
  have hrise : ∀ i : ℕ, (~~~prev &&& cur).getLsbD i = true ↔ prev.getLsbD i = false ∧ cur.getLsbD i = true := fun i => by
    by_cases hi : i < 32
    · rw [BitVec.getLsbD_and, BitVec.getLsbD_not, decide_eq_true hi]
      cases prev.getLsbD i <;> simp
    · rw [BitVec.getLsbD_of_ge _ i (not_lt.mp hi), BitVec.getLsbD_of_ge cur i (not_lt.mp hi)]
      simp
  have hfall : ∀ i : ℕ, (prev &&& ~~~cur).getLsbD i = true ↔ prev.getLsbD i = true ∧ cur.getLsbD i = false := fun i => by
    by_cases hi : i < 32
    · rw [BitVec.getLsbD_and, BitVec.getLsbD_not, decide_eq_true hi]
      cases prev.getLsbD i <;> simp
    · rw [BitVec.getLsbD_of_ge _ i (not_lt.mp hi), BitVec.getLsbD_of_ge prev i (not_lt.mp hi)]
      simp
  have h₁ := h.and_orAll_ne_zero_iff (~~~prev &&& cur) fun c => c.cond = .rise ∨ c.cond = .either
  have h₂ := h.and_orAll_ne_zero_iff (prev &&& ~~~cur) fun c => c.cond = .fall ∨ c.cond = .either
  have hlt : ∀ c ∈ g, ∀ i : ℕ, (i : ℤ) ≤ c.sig.hi → i < 32 := fun c hc i hi => by
    have hhi : c.sig.hi ≤ 31 := (h.inside c hc).2.2
    omega
  simp only [hrise] at h₁
  simp only [hfall] at h₂
  rw [show riseAll g = orAll (g.map fun c => if c.cond = .rise ∨ c.cond = .either then c.sig.laneBits else 0) from rfl,
    show fallAll g = orAll (g.map fun c => if c.cond = .fall ∨ c.cond = .either then c.sig.laneBits else 0) from rfl, h₁, h₂]
  constructor
  · rintro (⟨c, hc, hsel, i, hin, hi⟩ | ⟨c, hc, hsel, i, hin, hi⟩)
    · exact ⟨c, hc, i, hlt c hc i hin.2, hin, .inl ⟨hsel, hi⟩⟩
    · exact ⟨c, hc, i, hlt c hc i hin.2, hin, .inr ⟨hsel, hi⟩⟩
  · rintro ⟨c, hc, i, -, hin, ⟨hsel, hi⟩ | ⟨hsel, hi⟩⟩
    · exact .inl ⟨c, hc, hsel, i, hin, hi⟩
    · exact .inr ⟨c, hc, hsel, i, hin, hi⟩

/-- A group matches when it is in use, its conditions hold and no lane is between. -/
theorem matches_iff (prev cur : BitVec 32) :
    ((compiledAll g).mask ≠ 0 ∨ riseAll g ≠ 0 ∨ fallAll g ≠ 0) ∧
      ((compiledAll g).mask = 0 ∨ cur &&& (compiledAll g).mask = (compiledAll g).value &&& (compiledAll g).mask) ∧
      (riseAll g = 0 ∧ fallAll g = 0 ∨ ~~~prev &&& cur &&& riseAll g ≠ 0 ∨ prev &&& ~~~cur &&& fallAll g ≠ 0) ↔
        Used g ∧ Holds g prev cur ∧ Clear g cur := by
  have hlevel : ((compiledAll g).mask = 0 ∨
      cur &&& (compiledAll g).mask = (compiledAll g).value &&& (compiledAll g).mask) ↔
        (∀ c ∈ g, c.Level cur) ∧ Clear g cur := by
    rw [← h.compiledAll_holds_iff, Comparison.Holds, (compiledAll g).value_and_mask]
    refine or_iff_right_of_imp fun hmask => ?_
    have hvalue := (compiledAll g).value_and_mask
    rw [hmask] at hvalue ⊢
    rw [← hvalue]
    exact BitVec.and_zero.trans BitVec.and_zero.symm
  rw [h.used_iff, hlevel, h.no_edges_iff, h.edge_iff, Holds, imp_iff_not_or]
  exact and_congr_right fun _ => and_right_comm

end Fits

/-- A group without conditions has no lane between. -/
theorem clear_of_not_used {g : List LaneCond} (hg : ¬Used g) (cur : BitVec 32) : Clear g cur := fun c hc hb =>
  hg ⟨c, hc, by rw [hb.1]; decide⟩

/-! ### The registers -/

/-- The complement of a shifted value is, in the lane, the shifted complement. -/
theorem not_shift_and_laneBits {s : IlaSignalDef} (h : s.Inside) (v : BitVec 32) :
    ~~~(v <<< s.lo.toNat) &&& s.laneBits = (~~~v <<< s.lo.toNat) &&& s.laneBits := by
  refine BitVec.eq_of_getLsbD_eq fun i hi => ?_
  rw [BitVec.getLsbD_and, BitVec.getLsbD_and, IlaSignalDef.laneBits_getLsbD h]
  obtain ⟨h₀, h₁, h₂⟩ := h
  by_cases hin : s.lo ≤ (i : ℤ) ∧ (i : ℤ) ≤ s.hi
  · rw [BitVec.getLsbD_not, BitVec.getLsbD_shiftLeft, BitVec.getLsbD_shiftLeft, BitVec.getLsbD_not, decide_eq_true hi,
      decide_eq_false (show ¬i < s.lo.toNat by omega), decide_eq_true (show i - s.lo.toNat < 32 by omega)]
    rfl
  · rw [decide_eq_false hin, Bool.and_false, Bool.and_false]

namespace IlaPanel

/-- One lane adds the bits of its two conditions. -/
theorem addLane_eq {sig : IlaSignalDef} (h : sig.Inside) {lt : LaneTrigger}
    (hB : lt.condB = .none ∨ lt.condB = .eq ∨ lt.condB = .neq) (r : TriggerRegisters) :
    let a : LaneCond := ⟨sig, lt.cond, lt.value⟩
    let b : LaneCond := ⟨sig, lt.condB, lt.valueB⟩
    addLane r (sig, lt) =
      ⟨r.mask ||| a.compiled.mask, r.value ||| a.compiled.value, r.riseMask ||| a.riseBits, r.fallMask ||| a.fallBits,
        r.mask2 ||| b.compiled.mask, r.val2 ||| b.compiled.value⟩ := by
  have hgood : ¬(sig.width ≤ 0 ∨ sig.lo < 0) := by
    obtain ⟨h₀, h₁, -⟩ := h
    rw [IlaSignalDef.width]
    omega
  obtain ⟨cond, value, condB, valueB⟩ := lt
  simp only [addLane, if_neg hgood, not_shift_and_laneBits h]
  rcases hB with rfl | rfl | rfl <;> cases cond <;>
    simp [LaneCond.compiled, LaneCond.riseBits, LaneCond.fallBits, LaneCond.comparison, Comparison.trivial]

/-- All lanes add the bits of their conditions. -/
theorem foldl_addLane {lanes : List (IlaSignalDef × LaneTrigger)}
    (h : ∀ lane ∈ lanes, lane.1.Inside ∧ (lane.2.condB = .none ∨ lane.2.condB = .eq ∨ lane.2.condB = .neq))
    (r : TriggerRegisters) :
    let g : List LaneCond := lanes.map fun lane => ⟨lane.1, lane.2.cond, lane.2.value⟩
    let g' : List LaneCond := lanes.map fun lane => ⟨lane.1, lane.2.condB, lane.2.valueB⟩
    lanes.foldl addLane r =
      ⟨r.mask ||| (compiledAll g).mask, r.value ||| (compiledAll g).value, r.riseMask ||| riseAll g,
        r.fallMask ||| fallAll g, r.mask2 ||| (compiledAll g').mask, r.val2 ||| (compiledAll g').value⟩ := by
  induction lanes generalizing r with
  | nil => simp [compiledAll, riseAll, fallAll]
  | cons lane lanes ih =>
    obtain ⟨hin, hB⟩ := h lane List.mem_cons_self
    have hrest := ih fun l hl => h l (List.mem_cons_of_mem _ hl)
    simp only at hrest
    simp only [List.foldl_cons, addLane_eq hin hB, hrest, List.map_cons, compiledAll, riseAll, fallAll,
      Comparison.all_mask, Comparison.all_value, orAll_cons, BitVec.or_assoc]

section

variable {p : IlaPanel} (h : p.WellFormed)

include h

theorem WellFormed.lane {sig : IlaSignalDef} {lt : LaneTrigger} (hl : (sig, lt) ∈ p.lanes) :
    sig.Inside ∧ (lt.condB = .none ∨ lt.condB = .eq ∨ lt.condB = .neq) := by
  obtain ⟨⟨s, i⟩, hs, heq⟩ := List.mem_map.mp hl
  obtain ⟨rfl, rfl⟩ := Prod.mk.inj heq
  refine ⟨h.inside s (List.fst_mem_of_mem_zipIdx hs), ?_⟩
  rw [List.getD_eq_getElem?_getD]
  cases hi : p.laneTriggers[i]? with
  | none => exact .inl rfl
  | some lt => exact h.levels lt (List.mem_of_getElem? hi)

/-- The lanes of a group, however their conditions are chosen. -/
theorem WellFormed.fits (cond : LaneTrigger → TriggerCond) (value : LaneTrigger → BitVec 32) :
    Fits (p.lanes.map fun (sig, lt) => ⟨sig, cond lt, value lt⟩) where
  inside := by
    rw [List.forall_mem_map]
    exact fun lane hl => (h.lane hl).1
  disjoint := by
    rw [List.pairwise_map, lanes, List.pairwise_map]
    have := h.disjoint
    rw [← List.zipIdx_map_fst 0 p.signals, List.pairwise_map] at this
    exact this

/-- The registers are the comparisons of the two groups. -/
theorem WellFormed.registers :
    p.computeTriggerRegisters =
      ⟨(compiledAll p.groupA).mask, (compiledAll p.groupA).value, riseAll p.groupA, fallAll p.groupA,
        (compiledAll p.groupB).mask, (compiledAll p.groupB).value⟩ := by
  have hall := foldl_addLane (fun lane hl => h.lane hl) {}
  have hzero : ∀ x : BitVec 32, 0 ||| x = x := fun _ => BitVec.zero_or
  simp only [hzero] at hall
  exact hall

/-- The second group has no edges. -/
theorem WellFormed.no_edges_groupB : riseAll p.groupB = 0 ∧ fallAll p.groupB = 0 := by
  have hfits : Fits p.groupB := h.fits (fun lt => lt.condB) fun lt => lt.valueB
  rw [hfits.no_edges_iff]
  rintro ⟨c, hc, hedge⟩
  obtain ⟨lane, hl, rfl⟩ := List.mem_map.mp hc
  have hB : lane.2.condB = .none ∨ lane.2.condB = .eq ∨ lane.2.condB = .neq := (h.lane hl).2
  have hedge' : lane.2.condB = .rise ∨ lane.2.condB = .fall ∨ lane.2.condB = .either := hedge
  rcases hB with hB | hB | hB <;> rw [hB] at hedge' <;> revert hedge' <;> decide

/-- The equation of the first group. -/
theorem WellFormed.equationA_iff (prev cur : BitVec 32) :
    (p.triggerConfig.trigActiveA = true ↔ Used p.groupA) ∧
      (p.triggerConfig.EquationA prev cur ↔ Used p.groupA ∧ Holds p.groupA prev cur ∧ Clear p.groupA cur) := by
  have hfits : Fits p.groupA := h.fits (fun lt => lt.cond) fun lt => lt.value
  refine ⟨?_, ?_⟩
  · rw [← hfits.used_iff, TriggerConfig.trigActiveA, triggerConfig, h.registers]
    simp only [Bool.or_eq_true_iff, bne_iff_ne, or_assoc]
  · rw [← hfits.matches_iff, TriggerConfig.EquationA, triggerConfig, h.registers]

/-- The equation of the second group. -/
theorem WellFormed.equationB_iff (prev cur : BitVec 32) :
    (p.triggerConfig.trigActiveB = true ↔ Used p.groupB) ∧
      (p.triggerConfig.EquationB cur ↔ Used p.groupB ∧ Holds p.groupB prev cur ∧ Clear p.groupB cur) := by
  have hfits : Fits p.groupB := h.fits (fun lt => lt.condB) fun lt => lt.valueB
  obtain ⟨hrise, hfall⟩ := h.no_edges_groupB
  refine ⟨?_, ?_⟩
  · rw [← hfits.used_iff, TriggerConfig.trigActiveB, triggerConfig, h.registers, hrise, hfall]
    simp
  · rw [← hfits.matches_iff, TriggerConfig.EquationB, triggerConfig, h.registers, hrise, hfall]
    constructor
    · intro hmatch
      exact ⟨.inl hmatch.1, .inr hmatch.2, .inl ⟨rfl, rfl⟩⟩
    · rintro ⟨hm, heq, -⟩
      have hm' : (compiledAll p.groupB).mask ≠ 0 := by simpa using hm
      exact ⟨hm', heq.resolve_left hm'⟩

/-- The comparator fires when the groups match. -/
theorem WellFormed.fire_iff (prev cur : BitVec 32) :
    p.triggerConfig.fire prev cur = true ↔
      if p.orMode then
        (Used p.groupA ∧ Holds p.groupA prev cur ∧ Clear p.groupA cur) ∨
          (Used p.groupB ∧ Holds p.groupB prev cur ∧ Clear p.groupB cur)
      else (Used p.groupA → Holds p.groupA prev cur ∧ Clear p.groupA cur) ∧
        (Used p.groupB → Holds p.groupB prev cur ∧ Clear p.groupB cur) ∧ (Used p.groupA ∨ Used p.groupB) := by
  obtain ⟨hactA, hA⟩ := h.equationA_iff prev cur
  obtain ⟨hactB, hB⟩ := h.equationB_iff prev cur
  rw [TriggerConfig.fire_eq_true_iff, TriggerConfig.Equation, hactA, hactB, hA, hB]
  have hsame : ∀ a b : Prop, (a → a ∧ b) ↔ (a → b) := fun a b => by tauto
  rw [hsame, hsame]
  rfl

end

/-- The comparator looks at the last two valid samples. -/
theorem matched_eq_fire (cfg : TriggerConfig 32) (t : IlaTrigger 32) (prev cur : BitVec 32) (gap : List (BitVec 32)) :
    ((gap.foldl (fun t d => t.clock cfg d false) (t.clock cfg prev true)).clock cfg cur true).matched = cfg.fire prev cur := by
  have hgap : ∀ t : IlaTrigger 32, (gap.foldl (fun t d => t.clock cfg d false) t).prevData = t.prevData := by
    induction gap with
    | nil => exact fun _ => rfl
    | cons d gap ih => exact fun t => ih (t.clock cfg d false)
  rw [IlaTrigger.clock, hgap]
  rfl

/-- **What the lanes compile to.** With the registers loaded, the comparator fires on a valid sample exactly when the
conditions of the lanes say so of it and the valid sample before, whatever cycles without one lie between them, if and
only if no lane with Neq that counts is between its value and the complement. -/
theorem fires_iff {p : IlaPanel} (h : p.WellFormed) (t : IlaTrigger 32) (prev cur : BitVec 32) (gap : List (BitVec 32)) :
    ((((gap.foldl (fun t d => t.clock p.triggerConfig d false) (t.clock p.triggerConfig prev true)).clock
      p.triggerConfig cur true).matched = true ↔ p.Documented prev cur) ↔ p.Decided prev cur) := by
  have hfire := h.fire_iff prev cur
  have hA : ¬Used p.groupA → Clear p.groupA cur := fun hu => clear_of_not_used hu cur
  have hB : ¬Used p.groupB → Clear p.groupB cur := fun hu => clear_of_not_used hu cur
  rw [matched_eq_fire, hfire, Documented, Decided, Documented]
  cases p.orMode with
  | true =>
    simp only [if_true]
    have hle : (Used p.groupA ∧ Holds p.groupA prev cur ∧ Clear p.groupA cur) ∨
        (Used p.groupB ∧ Holds p.groupB prev cur ∧ Clear p.groupB cur) →
        (Used p.groupA ∧ Holds p.groupA prev cur) ∨ (Used p.groupB ∧ Holds p.groupB prev cur) :=
      Or.imp (fun hg => ⟨hg.1, hg.2.1⟩) fun hg => ⟨hg.1, hg.2.1⟩
    exact ⟨fun hiff => hiff.mpr, fun himp => ⟨hle, himp⟩⟩
  | false =>
    simp only [Bool.false_eq_true, if_false]
    constructor
    · intro hiff hdoc
      obtain ⟨hfa, hfb, -⟩ := hiff.mpr hdoc
      refine ⟨?_, ?_⟩
      · by_cases hu : Used p.groupA
        · exact (hfa hu).2
        · exact hA hu
      · by_cases hu : Used p.groupB
        · exact (hfb hu).2
        · exact hB hu
    · intro himp
      constructor
      · exact fun ⟨hfa, hfb, hu⟩ => ⟨fun hg => (hfa hg).1, fun hg => (hfb hg).1, hu⟩
      · intro hdoc
        obtain ⟨hca, hcb⟩ := himp hdoc
        exact ⟨fun hg => ⟨hdoc.1 hg, hca⟩, fun hg => ⟨hdoc.2.1 hg, hcb⟩, hdoc.2.2⟩

/-- Lanes of one bit are never between. -/
theorem decided_of_one_bit {p : IlaPanel} (h : p.WellFormed)
    (hA : ∀ c ∈ p.groupA, c.cond = .neq → c.sig.lo = c.sig.hi) (hB : ∀ c ∈ p.groupB, c.cond = .neq → c.sig.lo = c.sig.hi)
    (prev cur : BitVec 32) : p.Decided prev cur := by
  have hclear : ∀ g : List LaneCond, Fits g → (∀ c ∈ g, c.cond = .neq → c.sig.lo = c.sig.hi) → Clear g cur := by
    intro g hg hone c hc hb
    have hw : c.sig.width.toNat = 1 := by rw [IlaSignalDef.width, hone c hc hb.1]; omega
    have h₁ := mt (LaneCond.reads_iff (hg.inside c hc) c.value cur).mpr hb.2.1
    have h₂ := mt (LaneCond.reads_iff (hg.inside c hc) (~~~c.value) cur).mpr hb.2.2
    simp only [hw, Nat.lt_one_iff, forall_eq, Nat.add_zero, BitVec.getLsbD_not] at h₁ h₂
    revert h₁ h₂
    cases cur.getLsbD c.sig.lo.toNat <;> cases c.value.getLsbD 0 <;> decide
  have hcA := hclear p.groupA (h.fits (fun lt => lt.cond) fun lt => lt.value) hA
  have hcB := hclear p.groupB (h.fits (fun lt => lt.condB) fun lt => lt.valueB) hB
  intro hdoc
  rw [Documented] at hdoc
  split
  case isTrue hor =>
    rw [if_pos hor] at hdoc
    exact hdoc.imp (fun hg => ⟨hg.1, hg.2, hcA⟩) fun hg => ⟨hg.1, hg.2, hcB⟩
  case isFalse => exact ⟨hcA, hcB⟩

/-- A lane with Eq in both groups, one bit with Neq and an edge. -/
def samplePanel : IlaPanel where
  signals := [⟨7, 0⟩, ⟨8, 8⟩, ⟨15, 12⟩]
  laneTriggers := [⟨.eq, 0x1A5, .eq, 0xA5⟩, ⟨.neq, 1, .none, 0⟩, ⟨.either, 0, .none, 0⟩]

theorem samplePanel_fires :
    ((([0xFFFF].foldl (fun t d => t.clock samplePanel.triggerConfig d false)
      ((⟨0, false⟩ : IlaTrigger 32).clock samplePanel.triggerConfig 0x1000 true)).clock
        samplePanel.triggerConfig 0x40A5 true).matched = true ↔ samplePanel.Documented 0x1000 0x40A5) ∧
      samplePanel.Documented 0x1000 0x40A5 := by
  have hwell : samplePanel.WellFormed := ⟨by decide, by decide, by decide⟩
  have hdecided := decided_of_one_bit hwell (by decide) (by decide) 0x1000 0x40A5
  exact ⟨(fires_iff hwell ⟨0, false⟩ 0x1000 0x40A5 [0xFFFF]).mpr hdecided, by decide⟩

/-- A lane of two bits that should differ from 0. -/
def neqPanel : IlaPanel where
  signals := [⟨1, 0⟩]
  laneTriggers := [⟨.neq, 0, .none, 0⟩]

/-- It is 1, and the comparator does not fire. -/
theorem neqPanel_misses :
    neqPanel.WellFormed ∧ neqPanel.Documented 0 1 ∧
      (((⟨0, false⟩ : IlaTrigger 32).clock neqPanel.triggerConfig 0 true).clock neqPanel.triggerConfig 1 true).matched =
        false :=
  ⟨⟨by decide, by decide, by decide⟩, by decide, by decide⟩

end IlaPanel

end OwlTap.Gui
