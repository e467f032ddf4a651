import OwlTap.Jtag.TapController

/-!
# What a scan puts on the pins

The commands of a scan clock its bits in order, TMS low until the last one, and the
bytes they answer with hold the samples: whole bytes first, then a byte whose top bits
are the remaining samples, then a byte whose top bit is the last one. Putting them
back together gives the samples, packed.
-/

namespace OwlTap.Jtag

open OwlTap Ftdi

/-- The pins of a scan of the first `n` bits of a buffer. -/
def scanPins (buf : List Byte) (n : ℕ) : List Pins :=
  (bits buf (n - 1)).map (⟨false, ·⟩) ++ [⟨true, bitAt buf (n - 1)⟩]

theorem length_scanPins (buf : List Byte) {n : ℕ} (h : 1 ≤ n) : (scanPins buf n).length = n := by
  simp [scanPins]; omega

/-- How many bytes a scan of `n` bits answers with. -/
def replyLength (n : ℕ) : ℕ := bytesFor (n - 1) + 1

/-- The bytes that a scan which sampled `r` answers with. -/
def IsReply (r : List Bool) (raw : List Byte) : Prop :=
  ∃ q x s₁ s₂, r = q ++ [x] ∧ raw = packBits (q.take (8 * (q.length / 8))) ++
    (if 0 < q.length % 8 then [readByte s₁ (q.drop (8 * (q.length / 8)))] else []) ++ [readByte s₂ [x]]

theorem IsReply.length {r : List Bool} {raw : List Byte} (h : IsReply r raw) :
    raw.length = replyLength r.length := by
  obtain ⟨q, x, s₁, s₂, rfl, rfl⟩ := h
  split <;> simp [replyLength, bytesFor] <;> omega

/-! ### The commands -/

open MpsseCommandBuffer in
/-- A shift is a shift of its whole bytes and a shift of the bits that remain. -/
theorem shift_split {buf : List Byte} {n : ℕ} (hb : n < 8 * buf.length) (opBytes opBits : Byte) (read : Bool)
    (c : MpsseCommandBuffer) :
    shift opBytes opBits (Ptr.slice (some buf)) read n c =
      (if 0 < n / 8 then shift opBytes opBits (Ptr.slice (some buf)) read (n / 8 * 8) c else some c).bind
        fun c => if 0 < n % 8 then
          shift opBytes opBits (Ptr.slice (some [buf.getD (n / 8) 0])) read (n % 8) c else some c := by
  have hsl := Ptr.slice_some (show n / 8 + 1 ≤ buf.length by omega)
  have hone : (buf.drop (n / 8)).take 1 = [buf.getD (n / 8) 0] := by
    rw [List.drop_eq_getElem_cons (by omega), List.getD_eq_getElem _ _ (by omega)]; rfl
  have hrest : ∀ c, 0 < n % 8 →
      shift opBytes opBits (Ptr.slice (some [buf.getD (n / 8) 0])) read (n % 8) c =
        some (c.append (opBits :: BitVec.ofNat 8 (n % 8 - 1) :: [buf.getD (n / 8) 0])
          (if read then 1 else 0)) := by
    intro c hm
    have h0 : n % 8 / 8 = 0 := by omega
    rw [shift, if_neg (by omega), h0, byteChunks, Option.bind_some, Nat.mod_mod, if_pos hm]
    rfl
  have hbulk : (if 0 < n / 8 then shift opBytes opBits (Ptr.slice (some buf)) read (n / 8 * 8) c else some c) =
      byteChunks opBytes (Ptr.slice (some buf)) read (n / 8) 0 (n / 8) c := by
    by_cases h0 : 0 < n / 8
    · rw [if_pos h0, shift, if_neg (by omega), Nat.mul_div_cancel _ (by decide), Nat.mul_mod_left]
      exact Option.bind_fun_some _
    · rw [if_neg h0, show n / 8 = 0 by omega, byteChunks]
  rw [hbulk]
  by_cases hn : n = 0
  · subst hn; rfl
  · rw [shift, if_neg hn]
    congr 1
    funext c
    by_cases hm : 0 < n % 8
    · rw [if_pos hm, if_pos hm, hrest c hm, hsl, hone]; rfl
    · rw [if_neg hm, if_neg hm]

/-- A scan's commands are those of a shift of all bits but the last, and the last. -/
theorem scanCommands_some {buf : List Byte} {n : ℕ} (hn : 1 ≤ n) (hb : bytesFor n ≤ buf.length)
    (read : Bool) (c : MpsseCommandBuffer) :
    scanCommands (some buf) n read c =
      (MpsseCommandBuffer.shift (dataOps read).1 (dataOps read).2 (Ptr.slice (some buf)) read (n - 1) c).map
        fun c => c.clockTms 0x01 1 (bitAt buf (n - 1)) read := by
  unfold bytesFor at hb
  have hlast : byteOrZero (some buf) ((n - 1) / 8) = some (buf.getD ((n - 1) / 8) 0) := by
    simp [byteOrZero, List.getD, List.getElem?_eq_getElem (show (n - 1) / 8 < buf.length by omega)]
  have hshift : ∀ data k c, (if read then MpsseCommandBuffer.shiftInOut data k
      else MpsseCommandBuffer.shiftOut data k) c =
      MpsseCommandBuffer.shift (dataOps read).1 (dataOps read).2 (Ptr.slice data) read k c := by
    intro data k c; cases read <;> rfl
  rw [shift_split (by omega)]
  simp only [scanCommands, hlast, hshift, Option.bind_some, gt_iff_lt, bitAt]
  by_cases h₁ : 0 < (n - 1) / 8 <;> by_cases h₂ : 0 < (n - 1) % 8 <;>
    simp only [h₁, h₂, if_true, if_false, Option.bind_eq_bind, Option.map_eq_bind, Option.bind_assoc,
      Option.bind_some, Function.comp_def]

/-- A scan's commands are whole commands: entered with TMS low they clock the bits of the
buffer, and what they answer is a reply to the samples. -/
theorem runs_scanCommands {buf : List Byte} {n : ℕ} (hn : 1 ≤ n) (hb : bytesFor n ≤ buf.length) (read : Bool)
    (c : MpsseCommandBuffer) :
    ∃ bs ms, scanCommands (some buf) n read c = some (c.append bs (if read then replyLength n else 0)) ∧
      Runs false bs true ms ∧ pinsOf ms = scanPins buf n ∧
      ∀ sr r, r.length = n → if read then IsReply r (answers sr ms r).2 else (answers sr ms r).2 = [] := by
  have hle : n ≤ 8 * buf.length := by unfold bytesFor at hb; omega
  obtain ⟨bs, e, hr⟩ := MpsseCommandBuffer.runs_shift false read
    (show bytesFor (n - 1) ≤ buf.length by unfold bytesFor at hb ⊢; omega) c
  obtain ⟨bs', e', -, hr'⟩ := MpsseCommandBuffer.runs_clockTms 0x01 (by decide : 1 ≤ 1 ∧ 1 ≤ 7)
    (bitAt buf (n - 1)) read (c.append bs (if read then bytesFor (n - 1) else 0))
  have hpins : pinsOf ((List.range 1).map (fun i => Micro.clk ⟨(0x01 : Byte).getLsbD i, bitAt buf (n - 1)⟩ read) ++
      if read then [.push] else []) = [⟨true, bitAt buf (n - 1)⟩] := by
    cases read <;> rfl
  refine ⟨_, _, ?_, hr.append (hr' _), ?_, ?_⟩
  · rw [scanCommands_some hn hb, e, Option.map_some, e']
    cases read <;> simp [MpsseCommandBuffer.append, replyLength, Nat.add_assoc]
  · rw [pinsOf_append, pinsOf_shiftMicros _ (by omega), hpins, scanPins]
  · intro sr r hl
    obtain ⟨q, x, rfl⟩ : ∃ q x, r = q ++ [x] :=
      ⟨r.dropLast, r.getLast (by rintro rfl; simp at hl; omega), (List.dropLast_append_getLast _).symm⟩
    have hq : q.length = n - 1 := by simp at hl; omega
    rw [answers_append _ _ _ _ _ (by rw [pinsOf_shiftMicros _ (by omega)]; simpa using hq)]
    cases read
    · simp [answers_shiftMicros_silent, answers]
    · obtain ⟨s, es⟩ := answers_shiftMicros sr false (show q.length ≤ 8 * buf.length by omega)
      rw [hq] at es
      rw [if_pos rfl, es, ← hq]
      exact ⟨q, x, s, _, rfl, rfl⟩

/-- A null pointer shifts zeros as long as there are no whole bytes to shift. -/
theorem scanCommands_none {n : ℕ} (hn : 1 ≤ n ∧ n ≤ 8) (read : Bool) (c : MpsseCommandBuffer) :
    scanCommands none n read c = scanCommands (some [0]) n read c := by
  have h : (n - 1) / 8 = 0 := by omega
  simp only [scanCommands, gt_iff_lt, h, lt_self_iff_false, if_false, byteOrZero, List.getElem?_cons_zero]

/-- With whole bytes to shift, a null pointer is followed. -/
theorem scanCommands_none_eq_none {n : ℕ} (hn : 9 ≤ n) (read : Bool) (c : MpsseCommandBuffer) :
    scanCommands none n read c = none := by
  have h₁ : 0 < (n - 1) / 8 := by omega
  have hshift : ∀ a b, MpsseCommandBuffer.shift a b (Ptr.slice none) read ((n - 1) / 8 * 8) c = none := by
    intro a b
    obtain ⟨f, hf⟩ : ∃ f, (n - 1) / 8 = f + 1 := ⟨(n - 1) / 8 - 1, by omega⟩
    rw [MpsseCommandBuffer.shift, if_neg (by omega), Nat.mul_div_cancel _ (by decide), hf,
      MpsseCommandBuffer.byteChunks, if_neg (by omega)]
    rfl
  simp only [scanCommands, gt_iff_lt, h₁, if_true]
  cases read <;> simp [MpsseCommandBuffer.shiftInOut, MpsseCommandBuffer.shiftOut, hshift]

/-- A scan reads the byte of its last bit. -/
theorem le_of_scanCommands {buf : List Byte} {n : ℕ} {read : Bool} {c c' : MpsseCommandBuffer} (hn : 1 ≤ n)
    (h : scanCommands (some buf) n read c = some c') : bytesFor n ≤ buf.length := by
  by_contra hlt
  have hlast : byteOrZero (some buf) ((n - 1) / 8) = none := by
    unfold bytesFor at hlt
    exact List.getElem?_eq_none (by omega)
  simp only [scanCommands, hlast, Option.bind_none, Option.bind_eq_bind] at h
  split at h <;> split at h <;> simp at h

/-! ### Reassembling -/

/-- Bytes of zeros at the end add no bits. -/
theorem bitAt_append_zeros (a : List Byte) (k i : ℕ) : bitAt (a ++ List.replicate k 0#8) i = bitAt a i := by
  by_cases h : i < 8 * a.length
  · exact bitAt_append_left _ _ h
  · obtain ⟨j, rfl⟩ : ∃ j, i = 8 * a.length + j := ⟨i - 8 * a.length, by omega⟩
    rw [bitAt_append_right, bitAt_replicate_zero, bitAt_of_le _ (by omega)]

/-- Copying into byte `k` is the copying loop at its first bit. -/
theorem orByte_eq_orBits (out : List Byte) (k : ℕ) {n : ℕ} (hn : n ≤ 8) (b : Byte) :
    orByte out k n b = orBits b.getLsbD (8 * k) n out := by
  induction n with
  | zero => rfl
  | succ n ih =>
    have h₁ : (8 * k + n) / 8 = k := by omega
    have h₂ : (8 * k + n) % 8 = n := by omega
    rw [orBits_succ, ← ih (by omega), orBit, h₁, h₂]
    simp [orByte, List.range_succ]

/-- The byte of the remaining samples, right-aligned. -/
theorem getLsbD_readByte_shift (s : Byte) {r : List Bool} (hr : r.length ≤ 8) {i : ℕ} (hi : i < r.length) :
    (readByte s r >>> (8 - r.length)).getLsbD i = r.getD i false := by
  rw [BitVec.getLsbD_ushiftRight, getLsbD_readByte _ _ hr (by omega), if_neg (by omega)]
  congr 1; omega

/-- A list read in three pieces. -/
theorem getD_pieces (q : List Bool) (x : Bool) {c : ℕ} (hc : c ≤ q.length) (i : ℕ) :
    ((q.take c).getD i false || (decide (c ≤ i) && decide (i < q.length) && (q.drop c).getD (i - c) false) ||
      (decide (q.length ≤ i) && decide (i < q.length + 1) && x)) = (q ++ [x]).getD i false := by
  rcases lt_trichotomy i q.length with hi | rfl | hi
  · rw [List.getD_append _ _ _ _ hi]
    by_cases h : c ≤ i
    · simp [List.getD, h, hi, Nat.add_sub_cancel' h]
    · simp [List.getD, List.getElem?_take_of_lt (not_le.mp h), h, hi]
  · simp [List.getD, hc]
  · have h₁ : (q ++ [x]).length ≤ i := by simp; omega
    have h₂ : (q.take c).length ≤ i := by simp; omega
    simp only [List.getD, List.getElem?_eq_none h₁, List.getElem?_eq_none h₂]
    simp; omega

/-- Whole bytes, then the remaining bits, then the last one: the samples, packed. -/
theorem assemble_eq (q : List Bool) (x : Bool) (s : Byte) {k m : ℕ} (hk : k = q.length / 8) (hm : m = q.length % 8)
    {out : List Byte} (hout : out = if 0 < m then
      orByte (packBits (q.take (8 * k)) ++ [0]) k m (readByte s (q.drop (8 * k)) >>> (8 - m))
      else packBits (q.take (8 * k)) ++ [0]) :
    (if x then out.modify k (· ||| 1#8 <<< m) else out) = packBits (q ++ [x]) := by
  have hq : q.length = 8 * k + m := by omega
  have hA : (packBits (q.take (8 * k))).length = k := by simp [bytesFor]; omega
  have hd : (q.drop (8 * k)).length = m := by simp; omega
  have hrest : out = orBits (fun i => (q.drop (8 * k)).getD i false) (8 * k) m (packBits (q.take (8 * k)) ++ [0]) := by
    rw [hout]
    by_cases h0 : 0 < m
    · rw [if_pos h0, orByte_eq_orBits _ _ (by omega)]
      refine orBits_congr _ _ fun i hi => ?_
      rw [← hd, getLsbD_readByte_shift _ (by omega) (by omega)]
    · rw [if_neg h0, show m = 0 by omega, orBits_zero]
  have hlast : (if x then out.modify k (· ||| 1#8 <<< m) else out) = orBits (fun _ => x) (8 * k + m) 1 out := by
    rw [orBits_succ, orBits_zero, orBit, Nat.add_zero, show (8 * k + m) / 8 = k by omega,
      show (8 * k + m) % 8 = m by omega]
  have hz : ∀ i, bitAt (packBits (q.take (8 * k)) ++ [0]) i = (q.take (8 * k)).getD i false := fun i => by
    rw [show ([0] : List Byte) = List.replicate 1 0#8 from rfl, bitAt_append_zeros, bitAt_packBits]
  rw [hlast]
  refine eq_packBits (by simp [hrest, hA, bytesFor, hq]; omega) fun i => ?_
  rw [bitAt_orBits _ _ (by simp [hrest, hA]; omega), hrest, bitAt_orBits _ _ (by simp [hA]; omega), hz, ← hq]
  exact getD_pieces q x (by omega) i

/-- The last sample is the top bit of its byte. -/
theorem getLsbD_readByte_singleton (s : Byte) (x : Bool) : (readByte s [x]).getLsbD 7 = x := by
  rw [getLsbD_readByte _ _ (by simp) (by decide)]; rfl

/-- Reassembling a reply gives the samples, packed. -/
theorem reassemble_reply {r : List Bool} {raw : List Byte} (h : IsReply r raw) :
    reassemble [] r.length raw = packBits r := by
  obtain ⟨q, x, s₁, s₂, rfl, rfl⟩ := h
  obtain ⟨k, hk⟩ : ∃ k, k = q.length / 8 := ⟨_, rfl⟩
  obtain ⟨m, hm⟩ : ∃ m, m = q.length % 8 := ⟨_, rfl⟩
  have hA : (packBits (q.take (8 * k))).length = k := by simp [bytesFor]; omega
  have hassemble := assemble_eq q x s₁ hk hm rfl
  rw [← hk, ← hm]
  generalize packBits (q.take (8 * k)) = A at hA hassemble ⊢
  -- whole bytes are copied
  have bulk : (if 0 < k ∧ k ≤ (A ++ (if 0 < m then [readByte s₁ (q.drop (8 * k))] else []) ++
        [readByte s₂ [x]]).length then
      ((A ++ (if 0 < m then [readByte s₁ (q.drop (8 * k))] else []) ++ [readByte s₂ [x]]).take k ++
        (List.replicate (k + 1) 0#8).drop k, k)
      else (List.replicate (k + 1) 0#8, 0)) = (A ++ [0], k) := by
    by_cases h0 : 0 < k
    · rw [if_pos ⟨h0, by simp [hA]⟩, List.append_assoc, List.take_append_of_le_length hA.ge,
        ← hA, List.take_length]
      simp
    · obtain rfl : k = 0 := by omega
      obtain rfl : A = [] := List.length_eq_zero_iff.mp hA
      rfl
  -- the byte of the remaining bits, when there is one, is at index `k`
  have rest : (if 0 < m ∧ k < (A ++ (if 0 < m then [readByte s₁ (q.drop (8 * k))] else []) ++
        [readByte s₂ [x]]).length then
      (orByte (A ++ [0]) k m ((A ++ (if 0 < m then [readByte s₁ (q.drop (8 * k))] else []) ++
        [readByte s₂ [x]]).getD k 0 >>> (8 - m)), k + 1)
      else (A ++ [0], k)) =
      (if 0 < m then orByte (A ++ [0]) k m (readByte s₁ (q.drop (8 * k)) >>> (8 - m)) else A ++ [0],
        k + if 0 < m then 1 else 0) := by
    by_cases h0 : 0 < m
    · have hget : (A ++ [readByte s₁ (q.drop (8 * k))] ++ [readByte s₂ [x]]).getD k 0 =
          readByte s₁ (q.drop (8 * k)) := by
        rw [← hA]; simp
      simp only [h0, if_true, true_and]
      rw [if_pos (by simp [hA]), hget]
    · simp only [h0, if_false, false_and, Nat.add_zero]
  have hlast : (A ++ (if 0 < m then [readByte s₁ (q.drop (8 * k))] else []) ++ [readByte s₂ [x]]).getD
      (k + if 0 < m then 1 else 0) 0 = readByte s₂ [x] := by
    rw [← hA]; split <;> simp
  have hidx : k + (if 0 < m then 1 else 0) <
      (A ++ (if 0 < m then [readByte s₁ (q.drop (8 * k))] else []) ++ [readByte s₂ [x]]).length := by
    split <;> simp [hA]
  have hout : List.take (k + 1) ([] : List Byte) ++ List.replicate (k + 1 - ([] : List Byte).length) 0 =
      List.replicate (k + 1) 0#8 := by simp
  have hlen : (q ++ [x]).length - 1 = q.length := by simp
  have hlen' : ((q ++ [x]).length + 7) / 8 = k + 1 := by simp; omega
  rw [reassemble]
  simp only [hlen, hlen', ← hk, ← hm, hout, bulk, rest, hlast, getLsbD_readByte_singleton, hidx, true_and]
  exact hassemble

end OwlTap.Jtag
