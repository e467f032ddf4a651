import Mathlib.Data.BitVec
import OwlTap.Base.Bits
import OwlTap.Bsdl.Model

/-!
# Record lines of an MCS file

A record line is a colon and two hex digits for each byte: the number of data bytes, the offset,
the type, the data, and a checksum that makes the sum of all of them 0. A line is read as a record
if and only if it begins with that record's bytes (`parseMcsRecord_eq_ok_iff`), so that every
record's line is read back.
-/

namespace OwlTap.Flash

open OwlTap Bsdl

/-! ### Hex digits -/

def hexDigit (c : Char) : Option ℕ :=
  if '0' ≤ c ∧ c ≤ '9' then some (c.toNat - '0'.toNat)
  else if 'A' ≤ c ∧ c ≤ 'F' then some (c.toNat - 'A'.toNat + 10)
  else if 'a' ≤ c ∧ c ≤ 'f' then some (c.toNat - 'a'.toNat + 10)
  else none

/-- The byte that two hex digits spell. -/
def digitPair (hi lo : Char) : Option Byte := do
  let hi ← hexDigit hi
  let lo ← hexDigit lo
  some (BitVec.ofNat 8 (hi <<< 4 ||| lo))

/-- The byte that a line spells at a position. -/
def hexByte (line : Text) (pos : ℕ) : Option Byte :=
  if line.length < pos + 2 then none else digitPair (line.getD pos ' ') (line.getD (pos + 1) ' ')

/-- The `n` bytes of data that a line spells. -/
def readData (line : Text) : (n : ℕ) → Option { data : List Byte // data.length = n }
  | 0 => some ⟨[], rfl⟩
  | i + 1 => do
    let data ← readData line i
    let b ← hexByte line (9 + i * 2)
    some ⟨data.val ++ [b], by rw [List.length_append, data.property]; rfl⟩

/-! ### Records -/

/-- A record; its length is that of the data. -/
structure McsRecord where
  /-- The offset. -/
  recAddr : BitVec 16
  /-- 0 for data, 1 for the end, 2 and 4 for the base, 3 and 5 for the start address. -/
  recType : Byte
  /-- The data. -/
  data : List Byte
  /-- The length is a byte. -/
  length_lt : data.length < 256
  deriving DecidableEq

/-- Parse one record line. -/
def parseMcsRecord (line : Text) (lineNum : ℕ) : Except String McsRecord :=
  -- Minimum: ':' + 2(len) + 4(addr) + 2(type) + 2(ck) = 11 chars
  if line.length < 11 ∨ line.head? ≠ some ':' then .error ("Invalid MCS record at line " ++ toString lineNum)
  else
    match hexByte line 1, hexByte line 3, hexByte line 5, hexByte line 7 with
    | some iLen, some addrH, some addrL, some iType =>
      if line.length < 1 + (4 + iLen.toNat + 1) * 2 then .error ("MCS record too short at line " ++ toString lineNum)
      else
        match readData line iLen.toNat with
        | none => .error ("Bad data byte in MCS record at line " ++ toString lineNum)
        | some data =>
          match hexByte line (9 + iLen.toNat * 2) with
          | none => .error ("Missing checksum in MCS record at line " ++ toString lineNum)
          | some ck =>
            if iLen + addrH + addrL + iType + data.val.sum + ck ≠ 0 then
              .error ("Checksum mismatch in MCS record at line " ++ toString lineNum)
            else .ok ⟨addrH ++ addrL, iType, data.val, by rw [data.property]; exact iLen.isLt⟩
    | _, _, _, _ => .error ("Bad hex digits in MCS record at line " ++ toString lineNum)

/-! ### The bytes of a line -/

/-- From a position on the line spells these bytes, two digits each. -/
def Spells (line : Text) (pos : ℕ) (bytes : List Byte) : Prop :=
  ∀ k < bytes.length, hexByte line (pos + k * 2) = bytes[k]?

theorem spells_nil (line : Text) (pos : ℕ) : Spells line pos [] := fun k h => absurd h (Nat.not_lt_zero k)

theorem spells_cons {line : Text} {pos : ℕ} {b : Byte} {bytes : List Byte} :
    Spells line pos (b :: bytes) ↔ hexByte line pos = some b ∧ Spells line (pos + 2) bytes := by
  constructor
  · intro h
    refine ⟨h 0 (Nat.succ_pos _), fun k hk => ?_⟩
    have := h (k + 1) (Nat.succ_lt_succ hk)
    rwa [show pos + (k + 1) * 2 = pos + 2 + k * 2 by omega, List.getElem?_cons_succ] at this
  · rintro ⟨h0, h⟩ k hk
    cases k with
    | zero => exact h0
    | succ k =>
      rw [show pos + (k + 1) * 2 = pos + 2 + k * 2 by omega, List.getElem?_cons_succ]
      exact h k (Nat.lt_of_succ_lt_succ hk)

theorem spells_append {line : Text} {pos : ℕ} {bytes bytes' : List Byte} :
    Spells line pos (bytes ++ bytes') ↔ Spells line pos bytes ∧ Spells line (pos + bytes.length * 2) bytes' := by
  induction bytes generalizing pos with
  | nil => exact ⟨fun h => ⟨spells_nil _ _, by simpa using h⟩, fun h => by simpa using h.2⟩
  | cons b bytes ih =>
    rw [List.cons_append, spells_cons, spells_cons, ih, and_assoc, List.length_cons,
      show pos + 2 + bytes.length * 2 = pos + (bytes.length + 1) * 2 by omega]

/-- The bytes of data are those at their places. -/
theorem readData_eq_some {line : Text} {n : ℕ} {data : { data : List Byte // data.length = n }} :
    readData line n = some data ↔ Spells line 9 data.val := by
  induction n with
  | zero =>
    obtain ⟨data, hlen⟩ := data
    obtain rfl := List.eq_nil_of_length_eq_zero hlen
    exact ⟨fun _ => spells_nil _ _, fun _ => rfl⟩
  | succ n ih =>
    simp only [readData, Option.bind_eq_bind, Option.bind_eq_some_iff, Option.some.injEq]
    constructor
    · rintro ⟨init, hinit, b, hb, rfl⟩
      rw [spells_append, init.property]
      exact ⟨ih.mp hinit, spells_cons.mpr ⟨hb, spells_nil _ _⟩⟩
    · intro h
      obtain ⟨data, hlen⟩ := data
      have hn : n < data.length := by omega
      have hinit : (data.take n).length = n := List.length_take_of_le (by omega)
      have hsplit : data.take n ++ [data[n]] = data := by
        rw [List.take_append_getElem, List.take_of_length_le (by omega)]
      have h : Spells line 9 data := h
      rw [← hsplit, spells_append, hinit, spells_cons] at h
      exact ⟨⟨data.take n, hinit⟩, ih.mpr h.1, data[n], h.2.1, Subtype.ext hsplit⟩

theorem length_of_hexByte {line : Text} {pos : ℕ} {b : Byte} (h : hexByte line pos = some b) :
    pos + 2 ≤ line.length := by
  rw [hexByte] at h
  split at h
  · cases h
  · omega

/-- What a record's line has before the checksum. -/
def McsRecord.header (r : McsRecord) : List Byte :=
  [BitVec.ofNat 8 r.data.length, r.recAddr.extractLsb' 8 8, r.recAddr.extractLsb' 0 8, r.recType] ++ r.data

/-- The bytes of a record's line. -/
def McsRecord.bytes (r : McsRecord) : List Byte := r.header ++ [-r.header.sum]

/-- The line begins with a colon and these bytes. -/
def Begins (line : Text) (bytes : List Byte) : Prop := line.head? = some ':' ∧ Spells line 1 bytes

@[simp] theorem McsRecord.length_bytes (r : McsRecord) : r.bytes.length = 5 + r.data.length := by
  rw [bytes, header, List.length_append, List.length_append]
  simp only [List.length_cons, List.length_nil]
  omega

/-- The header's four bytes come first, then the data, then the checksum. -/
theorem begins_bytes_iff {line : Text} {r : McsRecord} : Begins line r.bytes ↔ line.head? = some ':' ∧
    hexByte line 1 = some (BitVec.ofNat 8 r.data.length) ∧ hexByte line 3 = some (r.recAddr.extractLsb' 8 8) ∧
    hexByte line 5 = some (r.recAddr.extractLsb' 0 8) ∧ hexByte line 7 = some r.recType ∧ Spells line 9 r.data ∧
    hexByte line (9 + r.data.length * 2) = some (-r.header.sum) := by
  rw [Begins, McsRecord.bytes, McsRecord.header, List.append_assoc]
  simp only [List.cons_append, List.nil_append, spells_cons, spells_append, spells_nil, and_true]

theorem McsRecord.sum_header (r : McsRecord) : r.header.sum = BitVec.ofNat 8 r.data.length +
    r.recAddr.extractLsb' 8 8 + r.recAddr.extractLsb' 0 8 + r.recType + r.data.sum := by
  rw [header]
  simp only [List.cons_append, List.nil_append, List.sum_cons, add_assoc]

/-- A line is accepted as a record if and only if it begins with the record's bytes. -/
theorem parseMcsRecord_eq_ok_iff {line : Text} {lineNum : ℕ} {r : McsRecord} :
    parseMcsRecord line lineNum = .ok r ↔ Begins line r.bytes := by
  have hn : (BitVec.ofNat 8 r.data.length).toNat = r.data.length :=
    (BitVec.toNat_ofNat _ _).trans (Nat.mod_eq_of_lt r.length_lt)
  rw [begins_bytes_iff]
  constructor
  · intro h
    unfold parseMcsRecord at h
    split at h
    · cases h
    next hhead =>
      split at h
      next iLen addrH addrL iType h1 h3 h5 h7 =>
        split at h
        · cases h
        split at h
        · cases h
        next data hdata =>
          split at h
          · cases h
          next ck hck =>
            split at h
            · cases h
            next hsum =>
              cases h
              rw [McsRecord.sum_header]
              simp only [data.property, BitVec.ofNat_toNat, BitVec.setWidth_eq, BitVec.extractLsb'_append_eq_left,
                BitVec.extractLsb'_append_eq_right]
              exact ⟨not_not.mp fun hne => hhead (.inr hne), h1, h3, h5, h7, readData_eq_some.mp hdata,
                hck.trans (congrArg some (eq_neg_of_add_eq_zero_right (not_not.mp hsum)))⟩
      · cases h
  · rintro ⟨hhead, h1, h3, h5, h7, hdata, hck⟩
    have hlen := length_of_hexByte hck
    have hstart : ¬(line.length < 11 ∨ line.head? ≠ some ':') := fun h =>
      h.elim (fun hlt => by omega) fun hne => hne hhead
    have hread : readData line (BitVec.ofNat 8 r.data.length).toNat = some ⟨r.data, hn.symm⟩ :=
      readData_eq_some.mpr hdata
    rw [← hn] at hck
    have hsum : ¬(BitVec.ofNat 8 r.data.length + r.recAddr.extractLsb' 8 8 + r.recAddr.extractLsb' 0 8 + r.recType +
        r.data.sum + -r.header.sum ≠ 0) := by
      rw [← McsRecord.sum_header, add_neg_cancel]
      exact not_not.mpr rfl
    rw [parseMcsRecord, if_neg hstart, h1, h3, h5, h7]
    simp only
    rw [if_neg (by omega), hread]
    simp only
    rw [hck]
    simp only
    rw [if_neg hsum]
    have haddr : r.recAddr.extractLsb' 8 8 ++ r.recAddr.extractLsb' 0 8 = r.recAddr :=
      BitVec.extractLsb'_append_extractLsb'
    rw [haddr]

/-! ### A record's line -/

/-- The digits of a byte. -/
def hexPair (b : Byte) : Text := [(Nat.digitChar (b.toNat / 16)).toUpper, (Nat.digitChar (b.toNat % 16)).toUpper]

/-- The line that a record is written as. -/
def McsRecord.line (r : McsRecord) : Text := ':' :: r.bytes.flatMap hexPair

theorem digitPair_hexPair : ∀ b : Byte, digitPair (Nat.digitChar (b.toNat / 16)).toUpper
    (Nat.digitChar (b.toNat % 16)).toUpper = some b := by
  decide +kernel

theorem spells_flatMap (start : Text) (bytes : List Byte) :
    Spells (start ++ bytes.flatMap hexPair) start.length bytes := by
  induction bytes generalizing start with
  | nil => exact spells_nil _ _
  | cons b bytes ih =>
    rw [List.flatMap_cons, spells_cons]
    refine ⟨?_, ?_⟩
    · have hat : ∀ rest : Text, hexByte (start ++ (hexPair b ++ rest)) start.length = some b := fun rest => by
        rw [hexByte, if_neg (by simp [hexPair]), List.getD_append_right _ _ _ _ (le_refl _),
          List.getD_append_right _ _ _ _ (Nat.le_add_right start.length 1), Nat.sub_self, Nat.add_sub_cancel_left]
        exact digitPair_hexPair b
      exact hat _
    · have := ih (start ++ hexPair b)
      rwa [List.append_assoc, List.length_append] at this

/-- Every record's line is read back. -/
theorem parseMcsRecord_line (r : McsRecord) (lineNum : ℕ) : parseMcsRecord r.line lineNum = .ok r :=
  parseMcsRecord_eq_ok_iff.mpr ⟨rfl, spells_flatMap [':'] r.bytes⟩

end OwlTap.Flash
