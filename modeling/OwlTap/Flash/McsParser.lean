import OwlTap.Base.Stores
import OwlTap.Flash.McsRecord
import OwlTap.Flash.SpiFlash
import OwlTap.Script.ScriptEngine

/-!
# Reading an MCS file

`parseMcsToImage` reads a file record by record into an image. The address of a data record is
computed in 32 bits before it is checked against the capacity: under base `0xFFFF0000` a record that
goes on past the end of the 32-bit addresses passes the check, and is copied far outside of the
image (`contained_iff`).
-/

namespace OwlTap.Flash

open OwlTap Bsdl Stores

/-- `std::memcpy` to an offset in a buffer; outside of the buffer it is undefined. -/
def memcpy (buf : List Byte) (offset : ℕ) (data : List Byte) : Option (List Byte) :=
  if offset + data.length ≤ buf.length then some (overwrite buf offset data) else none

/-- What the reading of an MCS file keeps from line to line. -/
structure McsReader where
  /-- The base of data records. -/
  upperAddr : BitVec 32 := 0
  /-- The image so far. -/
  out : List Byte := []
  /-- What was copied to each address, in order; kept for specification. -/
  copied : List (ℕ × Byte) := []
  deriving DecidableEq

namespace McsReader

/-- The address of a record's data. -/
def base (m : McsReader) (r : McsRecord) : BitVec 32 := m.upperAddr ||| r.recAddr.setWidth 32

/-- A record other than the end. -/
def record (m : McsReader) (lineNum : ℕ) (r : McsRecord) : Option (Except String McsReader) :=
  if r.recType = 0x04 then
    -- Extended linear address (upper 16 bits)
    match r.data with
    | [high, low] => some (.ok { m with upperAddr := (high ++ low).setWidth 32 <<< 16 })
    | _ => some (.error ("Bad ELA record at line " ++ toString lineNum))
  else if r.recType = 0x02 then
    -- Extended segment address (segment base << 4)
    match r.data with
    | [high, low] => some (.ok { m with upperAddr := (high ++ low).setWidth 32 <<< 4 })
    | _ => some (.error ("Bad ESA record at line " ++ toString lineNum))
  else if r.recType = 0x00 then
    let base := m.base r
    let end' := base + BitVec.ofNat 32 r.data.length
    if kCapacityBytes < end'.toNat then
      some (.error ("MCS address 0x" ++ toString end'.toNat ++ " exceeds flash capacity"))
    else
      (memcpy (grow 0xFF m.out end'.toNat) base.toNat r.data).map fun out =>
        .ok { m with out, copied := m.copied ++ storesOf base.toNat r.data }
  else some (.ok m)

/-- A line without the carriage return at its end. -/
def chomp (line : Text) : Text := if line.getLast? = some '\r' then line.dropLast else line

/-- A line; no reader is left after the end record. -/
def nextLine (m : McsReader) (lineNum : ℕ) (line : Text) : Option (Except String (Option McsReader)) :=
  let line := chomp line
  if line.head? ≠ some ':' then some (.ok (some m))
  else
    match parseMcsRecord line lineNum with
    | .error err => some (.error err)
    | .ok r => if r.recType = 0x01 then some (.ok none) else (m.record lineNum r).map fun x => x.map some

/-- The lines after line `lineNum`. -/
def readLines (m : McsReader) (lineNum : ℕ) : List Text → Option (Except String McsReader)
  | [] => some (.ok m)
  | line :: lines =>
    match m.nextLine (lineNum + 1) line with
    | none => none
    | some (.error err) => some (.error err)
    | some (.ok none) => some (.ok m)
    | some (.ok (some m)) => m.readLines (lineNum + 1) lines

end McsReader

/-- Parse an Intel HEX (.mcs / .hex) file into a flat binary image. -/
def parseMcsToImage (path : String) (contents : Option Text) : Option (Except String (List Byte)) :=
  match contents with
  | none => some (.error ("Cannot open MCS file: " ++ path))
  | some contents =>
    (McsReader.readLines {} 0 (Script.getlines contents)).map fun x => x.bind fun m =>
      if m.out = [] then .error ("No data records found in MCS file: " ++ path) else .ok m.out

/-! ### Addresses -/

namespace McsReader

/-- The base is 16 times, or 65536 times, what an extended address record says. -/
def BaseSet (m : McsReader) : Prop :=
  ∃ v : BitVec 16, m.upperAddr.toNat = v.toNat * 16 ∨ m.upperAddr.toNat = v.toNat * 65536

theorem toNat_segment (v : BitVec 16) : (v.setWidth 32 <<< 4).toNat = v.toNat * 16 := by
  have := v.isLt
  rw [BitVec.toNat_shiftLeft, BitVec.toNat_setWidth_of_le (by decide), Nat.shiftLeft_eq, Nat.mod_eq_of_lt (by omega)]

theorem toNat_linear (v : BitVec 16) : (v.setWidth 32 <<< 16).toNat = v.toNat * 65536 := by
  have := v.isLt
  rw [BitVec.toNat_shiftLeft, BitVec.toNat_setWidth_of_le (by decide), Nat.shiftLeft_eq, Nat.mod_eq_of_lt (by omega)]

theorem toNat_base (m : McsReader) (r : McsRecord) : (m.base r).toNat = m.upperAddr.toNat ||| r.recAddr.toNat := by
  rw [base, BitVec.toNat_or, BitVec.toNat_setWidth_of_le (by decide)]

/-- Under a linear base the address is a sum. -/
theorem linear_or (v : BitVec 16) (a : BitVec 16) : v.toNat * 65536 ||| a.toNat = v.toNat * 65536 + a.toNat := by
  rw [show 65536 = 2 ^ 16 from rfl, ← Nat.shiftLeft_eq, Nat.shiftLeft_add_eq_or_of_lt a.isLt]

/-- The end of a record's data passes 2^32 under one base only. -/
theorem wraps_iff {m : McsReader} (hb : m.BaseSet) (r : McsRecord) :
    2 ^ 32 ≤ (m.base r).toNat + r.data.length ↔
      m.upperAddr = 0xFFFF0000 ∧ 65536 ≤ r.recAddr.toNat + r.data.length := by
  have hlen := r.length_lt
  have ha := r.recAddr.isLt
  obtain ⟨v, hv | hv⟩ := hb
  · have hv16 := v.isLt
    have hlt : (m.base r).toNat < 2 ^ 20 := by
      rw [toNat_base, hv]
      exact Nat.or_lt_two_pow (by omega) (by omega)
    have hne : m.upperAddr ≠ 0xFFFF0000 := fun e => by
      rw [e] at hv
      change 4294901760 = _ at hv
      omega
    exact ⟨fun h => by omega, fun h => absurd h.1 hne⟩
  · have hv16 := v.isLt
    have hbase : (m.base r).toNat = v.toNat * 65536 + r.recAddr.toNat := by rw [toNat_base, hv, linear_or]
    have hup : m.upperAddr = 0xFFFF0000 ↔ v.toNat = 65535 := by
      rw [← BitVec.toNat_inj, hv]
      change _ = 4294901760 ↔ _
      omega
    rw [hup, hbase]
    omega

/-- What a record other than the end does to the reader. -/
theorem record_eq {m m' : McsReader} {lineNum : ℕ} {r : McsRecord} (h : m.record lineNum r = some (.ok m')) :
    (r.recType = 0x04 ∧ ∃ high low, r.data = [high, low] ∧
      m' = { m with upperAddr := (high ++ low).setWidth 32 <<< 16 }) ∨
    (r.recType = 0x02 ∧ ∃ high low, r.data = [high, low] ∧
      m' = { m with upperAddr := (high ++ low).setWidth 32 <<< 4 }) ∨
    (r.recType = 0x00 ∧ (m.base r + BitVec.ofNat 32 r.data.length).toNat ≤ kCapacityBytes ∧
      ∃ out, memcpy (grow 0xFF m.out (m.base r + BitVec.ofNat 32 r.data.length).toNat) (m.base r).toNat r.data =
          some out ∧
        m' = { m with out, copied := m.copied ++ storesOf (m.base r).toNat r.data }) ∨
    (r.recType ≠ 0x04 ∧ r.recType ≠ 0x02 ∧ r.recType ≠ 0x00 ∧ m' = m) := by
  rw [record] at h
  split at h
  next h4 =>
    refine .inl ⟨h4, ?_⟩
    split at h
    next high low hdata => exact ⟨high, low, hdata, (Except.ok.inj (Option.some.inj h)).symm⟩
    · exact absurd (Option.some.inj h) (by simp)
  next h4 =>
  split at h
  next h2 =>
    refine .inr (.inl ⟨h2, ?_⟩)
    split at h
    next high low hdata => exact ⟨high, low, hdata, (Except.ok.inj (Option.some.inj h)).symm⟩
    · exact absurd (Option.some.inj h) (by simp)
  next h2 =>
  split at h
  next h0 =>
    refine .inr (.inr (.inl ⟨h0, ?_⟩))
    simp only at h
    split at h
    · exact absurd (Option.some.inj h) (by simp)
    next hcap =>
      obtain ⟨out, hout, h⟩ := Option.map_eq_some_iff.mp h
      exact ⟨Nat.le_of_not_lt hcap, out, hout, (Except.ok.inj h).symm⟩
  next h0 => exact .inr (.inr (.inr ⟨h4, h2, h0, (Except.ok.inj (Option.some.inj h)).symm⟩))

/-! ### What has been read -/

/-- The lines read so far and the reader after them, when none of them ended the reading. -/
inductive Reads : List Text → McsReader → Prop where
  /-- Before the first line. -/
  | start : Reads [] {}
  /-- One line more. -/
  | line {lines : List Text} {line : Text} {m m' : McsReader} :
      Reads lines m → m.nextLine (lines.length + 1) line = some (.ok (some m')) → Reads (lines ++ [line]) m'

/-- A line that does not end the reading is passed over or is a record. -/
theorem nextLine_eq {m m' : McsReader} {lineNum : ℕ} {line : Text}
    (h : m.nextLine lineNum line = some (.ok (some m'))) :
    m' = m ∨ ∃ r, parseMcsRecord (chomp line) lineNum = .ok r ∧ m.record lineNum r = some (.ok m') := by
  simp only [nextLine] at h
  split at h
  · exact .inl (Option.some.inj (Except.ok.inj (Option.some.inj h))).symm
  split at h
  · exact absurd (Option.some.inj h) (by simp)
  next r hr =>
    split at h
    · exact absurd (Except.ok.inj (Option.some.inj h)) (by simp)
    · obtain ⟨x, hx, h⟩ := Option.map_eq_some_iff.mp h
      cases x with
      | error err => exact absurd h (by simp [Except.map])
      | ok m'' =>
        obtain rfl := Option.some.inj (Except.ok.inj h)
        exact .inr ⟨r, hr, hx⟩

/-- What a record is done with. -/
theorem nextLine_record {m : McsReader} {lineNum : ℕ} {line : Text} {r : McsRecord}
    (hr : parseMcsRecord (chomp line) lineNum = .ok r) : m.nextLine lineNum line =
      if r.recType = 0x01 then some (.ok none) else (m.record lineNum r).map fun x => x.map some := by
  have hhead : (chomp line).head? = some ':' := (parseMcsRecord_eq_ok_iff.mp hr).1
  simp only [nextLine, hhead, ne_eq, not_true_eq_false, if_false, hr]

/-- The rest is read on from where the lines left the reader. -/
theorem Reads.readLines {lines : List Text} {m : McsReader} (h : Reads lines m) (rest : List Text) :
    McsReader.readLines {} 0 (lines ++ rest) = m.readLines lines.length rest := by
  induction h generalizing rest with
  | start => rfl
  | @line lines line m m' _ hnext ih =>
    rw [List.append_assoc, ih, List.length_append]
    simp only [List.cons_append, List.nil_append, McsReader.readLines, hnext, List.length_singleton]

/-- The image is within the capacity and shows what was copied, and the base was set by a record. -/
structure Kept (m : McsReader) : Prop where
  /-- The size. -/
  length_le : m.out.length ≤ kCapacityBytes
  /-- The bytes. -/
  shows : Shows 0xFF m.out (memory m.copied)
  /-- The base. -/
  baseSet : m.BaseSet

theorem kept_start : Kept {} := ⟨Nat.zero_le _, Shows.empty _, 0, .inl rfl⟩

theorem memcpy_eq_some {buf out : List Byte} {offset : ℕ} {data : List Byte} :
    memcpy buf offset data = some out ↔ offset + data.length ≤ buf.length ∧ overwrite buf offset data = out := by
  rw [memcpy]
  split
  next h => exact ⟨fun e => ⟨h, Option.some.inj e⟩, fun e => congrArg some e.2⟩
  next h => exact ⟨nofun, fun e => absurd e.1 h⟩

/-- Every record keeps that. -/
theorem Kept.record {m m' : McsReader} (h : Kept m) {lineNum : ℕ} {r : McsRecord}
    (hr : m.record lineNum r = some (.ok m')) : Kept m' := by
  rcases record_eq hr with ⟨-, high, low, -, rfl⟩ | ⟨-, high, low, -, rfl⟩ | ⟨-, hcap, out, hout, rfl⟩ | ⟨-, -, -, rfl⟩
  · exact ⟨h.length_le, h.shows, high ++ low, .inr (toNat_linear _)⟩
  · exact ⟨h.length_le, h.shows, high ++ low, .inl (toNat_segment _)⟩
  · obtain ⟨hroom, rfl⟩ := memcpy_eq_some.mp hout
    refine ⟨?_, ?_, h.baseSet⟩
    · rw [length_overwrite hroom, length_grow]
      exact max_le h.length_le hcap
    · rw [memory_append]
      exact (h.shows.grow _).overwrite hroom
  · exact h

theorem Reads.kept {lines : List Text} {m : McsReader} (h : Reads lines m) : Kept m := by
  induction h with
  | start => exact kept_start
  | line _ hnext ih =>
    rcases nextLine_eq hnext with rfl | ⟨r, -, hr⟩
    · exact ih
    · exact ih.record hr

/-- A data record that does not wrap is rejected or is copied into the image. -/
theorem record_data (m : McsReader) (lineNum : ℕ) {r : McsRecord} (h0 : r.recType = 0x00)
    (hwrap : (m.base r).toNat + r.data.length < 2 ^ 32) :
    (kCapacityBytes < (m.base r).toNat + r.data.length ∧ ∃ err, m.record lineNum r = some (.error err)) ∨
    ((m.base r).toNat + r.data.length ≤ kCapacityBytes ∧ ∃ m', m.record lineNum r = some (.ok m') ∧
      m'.upperAddr = m.upperAddr ∧ m'.copied = m.copied ++ storesOf (m.base r).toNat r.data ∧
      ∀ i b, r.data[i]? = some b →
        (m.base r).toNat + i < m'.out.length ∧ m'.out[(m.base r).toNat + i]? = some b) := by
  have hlen := r.length_lt
  have hend : (m.base r + BitVec.ofNat 32 r.data.length).toNat = (m.base r).toNat + r.data.length := by
    rw [BitVec.toNat_add, BitVec.toNat_ofNat, Nat.mod_eq_of_lt (by omega : r.data.length < 2 ^ 32),
      Nat.mod_eq_of_lt hwrap]
  have h4 : r.recType ≠ 0x04 := by rw [h0]; decide
  have h2 : r.recType ≠ 0x02 := by rw [h0]; decide
  rw [McsReader.record, if_neg h4, if_neg h2, if_pos h0]
  simp only [hend]
  by_cases hcap : kCapacityBytes < (m.base r).toNat + r.data.length
  · rw [if_pos hcap]
    exact .inl ⟨hcap, _, rfl⟩
  · rw [if_neg hcap]
    have hroom : (m.base r).toNat + r.data.length ≤ (grow 0xFF m.out ((m.base r).toNat + r.data.length)).length := by
      rw [length_grow]
      exact le_max_right _ _
    rw [memcpy, if_pos hroom]
    refine .inr ⟨Nat.le_of_not_lt hcap, _, rfl, rfl, rfl, fun i b hb => ?_⟩
    have hi := (List.getElem?_eq_some_iff.mp hb).1
    simp only [length_overwrite hroom, getElem?_overwrite hroom]
    refine ⟨by omega, ?_⟩
    rw [if_pos (by omega), Nat.add_sub_cancel_left]
    exact hb

end McsReader

/-! ### Copies stay in the image -/

/-- A data record that the reading reaches, after these lines and with this reader. -/
def Reaches (contents : Text) (lines : List Text) (m : McsReader) (r : McsRecord) : Prop :=
  ∃ line rest, Script.getlines contents = lines ++ line :: rest ∧ McsReader.Reads lines m ∧
    parseMcsRecord (McsReader.chomp line) (lines.length + 1) = .ok r ∧ r.recType = 0x00

/-- No address of a data record that is reached wraps, and its bytes are copied into an image
within the capacity unless the file is rejected. -/
def Contained (contents : Text) : Prop :=
  ∀ lines m r, Reaches contents lines m r →
    (m.base r).toNat + r.data.length < 2 ^ 32 ∧
    ((∃ err, ∀ path, parseMcsToImage path (some contents) = some (.error err)) ∨
      ∃ m', m.record (lines.length + 1) r = some (.ok m') ∧ m'.out.length ≤ kCapacityBytes ∧
        ∀ i b, r.data[i]? = some b →
          (m.base r).toNat + i < m'.out.length ∧ m'.out[(m.base r).toNat + i]? = some b)

/-- The copies stay in the image if and only if no data record that is reached goes on past the end
of the 32-bit addresses. -/
theorem contained_iff (contents : Text) : Contained contents ↔
    ∀ lines m r, Reaches contents lines m r →
      ¬(m.upperAddr = 0xFFFF0000 ∧ 65536 ≤ r.recAddr.toNat + r.data.length) := by
  constructor
  · rintro h lines m r hr hover
    obtain ⟨-, -, -, hreads, -⟩ := id hr
    have := (McsReader.wraps_iff hreads.kept.baseSet r).mpr hover
    exact absurd (h lines m r hr).1 (Nat.not_lt.mpr this)
  · rintro h lines m r hr
    obtain ⟨line, rest, hlines, hreads, hparse, h0⟩ := id hr
    have hwrap : (m.base r).toNat + r.data.length < 2 ^ 32 :=
      Nat.lt_of_not_le fun hle => h lines m r hr ((McsReader.wraps_iff hreads.kept.baseSet r).mp hle)
    refine ⟨hwrap, ?_⟩
    rcases McsReader.record_data m (lines.length + 1) h0 hwrap with ⟨-, err, herr⟩ | ⟨-, m', hm', -, -, hin⟩
    · refine .inl ⟨err, fun path => ?_⟩
      have h1 : r.recType ≠ 0x01 := by rw [h0]; decide
      have hnext : m.nextLine (lines.length + 1) line = some (.error err) := by
        rw [McsReader.nextLine_record hparse, if_neg h1, herr]
        rfl
      rw [parseMcsToImage, hlines, hreads.readLines, McsReader.readLines, hnext]
      rfl
    · exact .inr ⟨m', hm', (hreads.kept.record hm').length_le, hin⟩

/-- A record of one byte at the last 32-bit address. -/
def lastAddressText : Text := ":02000004FFFFFC\n:01FFFF00AA57\n".toList

/-- Its end is 0 in 32 bits, so that it is not rejected, and the copy is undefined. -/
theorem lastAddress_not_contained : ¬Contained lastAddressText ∧ parseMcsToImage "" (some lastAddressText) = none := by
  refine ⟨fun h => ?_, by decide +kernel⟩
  have hreads : McsReader.Reads [":02000004FFFFFC".toList] { upperAddr := 0xFFFF0000 } :=
    .line .start (by decide +kernel)
  have := (h _ _ ⟨0xFFFF, 0, [0xAA], by decide⟩ ⟨":01FFFF00AA57".toList, [], by decide +kernel, hreads,
    by decide +kernel, rfl⟩).1
  exact absurd this (by decide +kernel)

end OwlTap.Flash
