import Mathlib.Tactic.Ring
import OwlTap.Flash.McsRecord

/-!
# Corrupted record lines

The checksum makes the bytes of a line sum to 0, so a change of any byte but the first is found.
The first says how many bytes there are to sum: a line with a larger one is too short, and with a
smaller one it is summed up to an earlier byte, which is taken for the checksum; what follows is
not looked at. Such a line is accepted if that sum is 0 (`corrupted_iff`).
-/

namespace OwlTap.Flash

open OwlTap Bsdl

/-! ### Lines that are accepted -/

theorem McsRecord.sum_bytes (r : McsRecord) : r.bytes.sum = 0 := by
  rw [bytes, List.sum_append, List.sum_singleton, add_neg_cancel]

/-- As many bytes as the first of them says, which sum to 0, are those of a record. -/
theorem exists_bytes {bytes : List Byte} (hlen : bytes.length = 5 + (bytes.headD 0).toNat) (hsum : bytes.sum = 0) :
    ∃ r : McsRecord, r.bytes = bytes := by
  obtain ⟨init, ck, rfl⟩ : ∃ init ck, bytes = init ++ [ck] := by
    refine ⟨bytes.dropLast, bytes.getLast fun h => ?_, (List.dropLast_append_getLast _).symm⟩
    rw [h, List.length_nil] at hlen
    omega
  rw [List.length_append, List.length_singleton] at hlen
  -- the four bytes of the header before the data
  rcases init with _ | ⟨n, _ | ⟨high, _ | ⟨low, _ | ⟨type, data⟩⟩⟩⟩
  iterate 4
    simp only [List.length_cons, List.length_nil] at hlen
    omega
  have hn : data.length = n.toNat := by
    simp only [List.length_cons, List.cons_append, List.headD_cons] at hlen
    omega
  have hheader : (⟨high ++ low, type, data, hn ▸ n.isLt⟩ : McsRecord).header = n :: high :: low :: type :: data := by
    simp only [McsRecord.header, hn, BitVec.ofNat_toNat, BitVec.setWidth_eq, BitVec.extractLsb'_append_eq_left,
      BitVec.extractLsb'_append_eq_right, List.cons_append, List.nil_append]
  rw [List.sum_append, List.sum_singleton] at hsum
  exact ⟨⟨high ++ low, type, data, hn ▸ n.isLt⟩, by rw [McsRecord.bytes, hheader, eq_neg_of_add_eq_zero_right hsum]⟩

/-- A line is accepted if and only if it begins with as many bytes as the first of them says, which
sum to 0. -/
theorem accepted_iff {line : Text} {lineNum : ℕ} : (∃ r, parseMcsRecord line lineNum = .ok r) ↔
    ∃ bytes, Begins line bytes ∧ bytes.length = 5 + (bytes.headD 0).toNat ∧ bytes.sum = 0 := by
  constructor
  · rintro ⟨r, h⟩
    refine ⟨r.bytes, parseMcsRecord_eq_ok_iff.mp h, ?_, r.sum_bytes⟩
    have hn : (BitVec.ofNat 8 r.data.length).toNat = r.data.length :=
      (BitVec.toNat_ofNat _ _).trans (Nat.mod_eq_of_lt r.length_lt)
    rw [r.length_bytes]
    exact congrArg (5 + ·) hn.symm
  · rintro ⟨bytes, h, hlen, hsum⟩
    obtain ⟨r, rfl⟩ := exists_bytes hlen hsum
    exact ⟨r, parseMcsRecord_eq_ok_iff.mpr h⟩

/-- What a line of `bytes` spells are the first of them. -/
theorem spells_take {line : Text} {bytes bytes' : List Byte} (h : Spells line 1 bytes)
    (hline : line.length = 1 + bytes.length * 2) (h' : Spells line 1 bytes') : bytes' = bytes.take bytes'.length := by
  have hle : bytes'.length ≤ bytes.length := by
    by_contra hgt
    have hk : bytes.length < bytes'.length := Nat.lt_of_not_le hgt
    have := length_of_hexByte ((h' _ hk).trans (List.getElem?_eq_getElem hk))
    omega
  refine List.ext_getElem? fun k => ?_
  rcases Nat.lt_or_ge k bytes'.length with hk | hk
  · rw [List.getElem?_take_of_lt hk, ← h k (by omega), h' k hk]
  · rw [List.getElem?_eq_none hk, List.getElem?_eq_none (by rw [List.length_take]; omega)]

/-- The line is accepted if and only if it has as many bytes as the first of them says, and they
sum to 0. -/
theorem accepted_whole_iff {line : Text} {lineNum : ℕ} {bytes : List Byte} (h : Begins line bytes)
    (hline : line.length = 1 + bytes.length * 2) : (∃ r, parseMcsRecord line lineNum = .ok r) ↔
      5 + (bytes.headD 0).toNat ≤ bytes.length ∧ (bytes.take (5 + (bytes.headD 0).toNat)).sum = 0 := by
  have hhead : ∀ n, (bytes.take (5 + n)).headD 0 = bytes.headD 0 := fun n => by
    cases bytes with
    | nil => rw [List.take_nil]
    | cons b bytes => rw [Nat.add_comm, List.take_succ_cons]; rfl
  rw [accepted_iff]
  constructor
  · rintro ⟨bytes', h', hlen, hsum⟩
    have htake := spells_take h.2 hline h'.2
    have hn : (bytes'.headD 0).toNat = (bytes.headD 0).toNat := by rw [htake, hlen, hhead]
    rw [hn] at hlen
    rw [hlen] at htake
    refine ⟨?_, htake ▸ hsum⟩
    have := congrArg List.length htake
    rw [hlen, List.length_take] at this
    omega
  · rintro ⟨hle, hsum⟩
    refine ⟨_, ⟨h.1, fun k hk => ?_⟩, ?_, hsum⟩
    · rw [List.length_take] at hk
      rw [List.getElem?_take_of_lt (by omega)]
      exact h.2 k (by omega)
    · rw [hhead, List.length_take]
      omega

/-! ### One byte changed -/

/-- The line with other digits for byte `k`. -/
def corrupt (line : Text) (k : ℕ) (hi lo : Char) : Text := (line.set (1 + k * 2) hi).set (2 + k * 2) lo

theorem length_corrupt (line : Text) (k : ℕ) (hi lo : Char) : (corrupt line k hi lo).length = line.length := by
  rw [corrupt, List.length_set, List.length_set]

/-- The changed line begins with the changed bytes. -/
theorem begins_corrupt {line : Text} {bytes : List Byte} (h : Begins line bytes)
    (hline : line.length = 1 + bytes.length * 2) {k : ℕ} (hk : k < bytes.length) {hi lo : Char} {b : Byte}
    (hb : digitPair hi lo = some b) : Begins (corrupt line k hi lo) (bytes.set k b) := by
  have hother : ∀ i, i ≠ 2 + k * 2 → i ≠ 1 + k * 2 → (corrupt line k hi lo).getD i ' ' = line.getD i ' ' :=
    fun i h2 h1 => by
      rw [List.getD_eq_getElem?_getD, corrupt, List.getElem?_set_ne (Ne.symm h2), List.getElem?_set_ne (Ne.symm h1),
        List.getD_eq_getElem?_getD]
  refine ⟨?_, fun j hj => ?_⟩
  · rw [corrupt, List.head?_eq_getElem?, List.getElem?_set_ne (by omega), List.getElem?_set_ne (by omega),
      ← List.head?_eq_getElem?]
    exact h.1
  · rw [List.length_set] at hj
    by_cases hjk : j = k
    · have hhi : (corrupt line k hi lo).getD (1 + k * 2) ' ' = hi := by
        rw [List.getD_eq_getElem?_getD, corrupt, List.getElem?_set_ne (by omega), List.getElem?_set_self (by omega)]
        rfl
      have hlo : (corrupt line k hi lo).getD (1 + k * 2 + 1) ' ' = lo := by
        rw [List.getD_eq_getElem?_getD, corrupt, show 1 + k * 2 + 1 = 2 + k * 2 by omega,
          List.getElem?_set_self (by rw [List.length_set]; omega)]
        rfl
      rw [hexByte, length_corrupt, if_neg (by omega), hjk, hhi, hlo, hb, List.getElem?_set_self hk]
    · rw [hexByte, length_corrupt, hother _ (by omega) (by omega), hother _ (by omega) (by omega),
        List.getElem?_set_ne (Ne.symm hjk)]
      exact h.2 j hj

/-- The sum after a change of one byte. -/
theorem sum_set {bytes : List Byte} {k : ℕ} (hk : k < bytes.length) (b : Byte) :
    (bytes.set k b).sum + bytes[k] = bytes.sum + b := by
  have hsplit : bytes = bytes.take k ++ bytes[k] :: bytes.drop (k + 1) := by
    rw [List.getElem_cons_drop, List.take_append_drop]
  rw [List.set_eq_take_append_cons_drop, if_pos hk]
  nth_rewrite 4 [hsplit]
  rw [List.sum_append, List.sum_append, List.sum_cons, List.sum_cons]
  ring

/-- The sum of the bytes after a change of any but the first is not 0. -/
theorem not_accepted_of_pos {r : McsRecord} {k : ℕ} (hpos : 0 < k) (hk : k < r.bytes.length) {b : Byte}
    (hne : r.bytes[k] ≠ b) : ((r.bytes.set k b).take (5 + ((r.bytes.set k b).headD 0).toNat)).sum ≠ 0 := by
  have hhead : (r.bytes.set k b).headD 0 = BitVec.ofNat 8 r.data.length := by
    obtain ⟨k, rfl⟩ := Nat.exists_eq_succ_of_ne_zero (Nat.ne_of_gt hpos)
    rfl
  have hn : (BitVec.ofNat 8 r.data.length).toNat = r.data.length :=
    (BitVec.toNat_ofNat _ _).trans (Nat.mod_eq_of_lt r.length_lt)
  rw [hhead, hn, List.take_of_length_le (by rw [List.length_set, r.length_bytes])]
  intro hsum
  have := sum_set hk b
  rw [hsum, r.sum_bytes, zero_add, zero_add] at this
  exact hne this

/-- With another length it is the bytes up to that length that are summed. -/
theorem take_set_zero {r : McsRecord} {b : Byte} (hlt : b.toNat < r.data.length) :
    ((r.bytes.set 0 b).take (5 + b.toNat)).sum =
      b + r.recAddr.extractLsb' 8 8 + r.recAddr.extractLsb' 0 8 + r.recType + (r.data.take (b.toNat + 1)).sum := by
  rw [McsRecord.bytes, McsRecord.header, show 5 + b.toNat = b.toNat + 1 + 4 by omega]
  simp only [List.cons_append, List.nil_append, List.set_cons_zero, List.take_succ_cons, List.sum_cons, ← add_assoc]
  rw [List.take_append_of_le_length (by omega)]

/-- A change of one byte of an accepted line without trailing characters is found, unless the byte
is the length, becomes smaller, and the byte that is then taken for the checksum is right for what
is then summed. -/
theorem corrupted_iff {line : Text} {lineNum : ℕ} {r : McsRecord} (h : parseMcsRecord line lineNum = .ok r)
    (hline : line.length = 1 + (4 + r.data.length + 1) * 2) {k : ℕ} (hk : k < 4 + r.data.length + 1) {hi lo : Char}
    {b : Byte} (hb : digitPair hi lo = some b) (hne : hexByte line (1 + k * 2) ≠ some b) (lineNum' : ℕ) :
    (∃ err, parseMcsRecord (corrupt line k hi lo) lineNum' = .error err) ↔
      ¬(k = 0 ∧ b.toNat < r.data.length ∧
        b + r.recAddr.extractLsb' 8 8 + r.recAddr.extractLsb' 0 8 + r.recType + (r.data.take (b.toNat + 1)).sum = 0) := by
  have hbytes := parseMcsRecord_eq_ok_iff.mp h
  have hlen := r.length_bytes
  have hk' : k < r.bytes.length := by omega
  have hold : r.bytes[k] ≠ b := fun e => hne <| by
    rw [hbytes.2 k hk', List.getElem?_eq_getElem hk', e]
  have herror : ∀ x : Except String McsRecord, (∃ err, x = .error err) ↔ ¬∃ r, x = .ok r := fun x => by
    cases x with
    | error err => exact ⟨fun _ => nofun, fun _ => ⟨err, rfl⟩⟩
    | ok r => exact ⟨nofun, fun hno => absurd ⟨r, rfl⟩ hno⟩
  rw [herror, not_iff_not, accepted_whole_iff (begins_corrupt hbytes (by omega) hk' hb)
    (by rw [length_corrupt, List.length_set]; omega), List.length_set]
  rcases Nat.eq_zero_or_pos k with rfl | hpos
  · have hhead : (r.bytes.set 0 b).headD 0 = b := rfl
    have hfirst : (BitVec.ofNat 8 r.data.length).toNat = r.data.length :=
      (BitVec.toNat_ofNat _ _).trans (Nat.mod_eq_of_lt r.length_lt)
    have hneL : b.toNat ≠ r.data.length := fun e => hold (BitVec.eq_of_toNat_eq (hfirst.trans e.symm))
    rw [hhead, hlen]
    constructor
    · rintro ⟨hle, hsum⟩
      have hlt : b.toNat < r.data.length := by omega
      exact ⟨rfl, hlt, (take_set_zero hlt).symm.trans hsum⟩
    · rintro ⟨-, hlt, hsum⟩
      exact ⟨by omega, (take_set_zero hlt).trans hsum⟩
  · exact ⟨fun hacc => absurd hacc.2 (not_accepted_of_pos hpos hk' hold), fun hzero => absurd hzero.1 (by omega)⟩

/-- A record of two data bytes, and the same line with the length lowered to 1. -/
theorem shortened_accepted :
    (∃ r, parseMcsRecord ":02000000FF00FF".toList 1 = .ok r ∧
      ":02000000FF00FF".toList.length = 1 + (4 + r.data.length + 1) * 2) ∧
    corrupt ":02000000FF00FF".toList 0 '0' '1' = ":01000000FF00FF".toList ∧
    hexByte ":02000000FF00FF".toList 1 ≠ digitPair '0' '1' ∧
    ∃ r, parseMcsRecord ":01000000FF00FF".toList 1 = .ok r := by
  refine ⟨⟨⟨0, 0, [0xFF, 0x00], by decide⟩, ?_⟩, ?_, ?_, ⟨⟨0, 0, [0xFF], by decide⟩, ?_⟩⟩ <;> decide +kernel

/-- Its first data byte changed is found. -/
theorem changed_data_rejected :
    ∃ err, parseMcsRecord (corrupt ":02000000FF00FF".toList 4 '0' '1') 1 = .error err :=
  (corrupted_iff (r := ⟨0, 0, [0xFF, 0x00], by decide⟩)
    (show parseMcsRecord ":02000000FF00FF".toList 1 = .ok _ by decide +kernel) (by decide +kernel)
    (by decide) (b := 1) (by decide +kernel) (by decide +kernel) 1).mpr (by decide)

end OwlTap.Flash
