import OwlTap.Flash.McsParser

/-!
# Where an MCS file puts its bytes

The format adds a data record's offset to the base that the last extended address record set: 16
times the value of a record of type 2, or 65536 times that of one of type 4. The reader combines
them bit by bit instead. That is the same under a base of type 4, but under one of type 2 only if
the two have no bit in common (`decodes_iff`).
-/

namespace OwlTap.Flash

open OwlTap Bsdl Stores

/-! ### The format -/

/-- The value of an extended address record. -/
def McsRecord.value (r : McsRecord) : ℕ :=
  match r.data with
  | [high, low] => (high ++ low : BitVec 16).toNat
  | _ => 0

/-- The data records before the end record, each with its base. -/
def dataRecords : (base : ℕ) → List McsRecord → List (ℕ × McsRecord)
  | _, [] => []
  | base, r :: rs =>
    if r.recType = 0x01 then []
    else if r.recType = 0x02 then dataRecords (16 * r.value) rs
    else if r.recType = 0x04 then dataRecords (65536 * r.value) rs
    else if r.recType = 0x00 then (base, r) :: dataRecords base rs
    else dataRecords base rs

/-- The bytes that the records store: byte `i` of a record goes to base + offset + `i`. -/
def stores (rs : List McsRecord) : List (ℕ × Byte) :=
  (dataRecords 0 rs).flatMap fun p => storesOf (p.1 + p.2.recAddr.toNat) p.2.data

/-- Extended address records have two bytes. -/
def McsRecord.Valid (r : McsRecord) : Prop := r.recType = 0x02 ∨ r.recType = 0x04 → r.data.length = 2

/-- The addresses of the records are within the capacity of the flash. -/
def WithinCapacity (rs : List McsRecord) : Prop :=
  ∀ p ∈ dataRecords 0 rs, p.1 + p.2.recAddr.toNat + p.2.data.length ≤ kCapacityBytes

/-- The record lines of a file, which are those that begin with a colon, are these records. -/
def Holding (contents : Text) (rs : List McsRecord) : Prop :=
  List.Forall₂ (fun line r => ∀ lineNum, parseMcsRecord line lineNum = .ok r)
    (((Script.getlines contents).map McsReader.chomp).filter fun line => line.head? = some ':') rs

/-- What the format says of a file of these records. -/
structure Decodes (contents : Text) (rs : List McsRecord) : Prop where
  /-- The bytes are copied to their addresses, in the order of the records. -/
  placed : ∃ m, McsReader.readLines {} 0 (Script.getlines contents) = some (.ok m) ∧ m.copied = stores rs
  /-- The image holds at each address what was stored there last, and the erased state elsewhere. -/
  image : ∀ path image, parseMcsToImage path (some contents) = some (.ok image) → Shows 0xFF image (memory (stores rs))
  /-- There is an image if there is anything to store. -/
  produced : stores rs ≠ [] → ∀ path, ∃ image, parseMcsToImage path (some contents) = some (.ok image)

/-! ### Sums and disjunctions -/

/-- The bits that two numbers have in common are what is missing from their disjunction. -/
theorem or_add_and (x y : ℕ) : (x ||| y) + (x &&& y) = x + y := by
  induction x using Nat.strongRecOn generalizing y with
  | ind x ih =>
    rcases Nat.eq_zero_or_pos x with rfl | hx
    · rw [Nat.zero_or, Nat.zero_and, Nat.add_zero, Nat.zero_add]
    · have hhalf := ih (x / 2) (by omega) (y / 2)
      rw [← Nat.or_div_two, ← Nat.and_div_two] at hhalf
      have hlast : (x ||| y) % 2 + (x &&& y) % 2 = x % 2 + y % 2 := by
        rw [show 2 = 2 ^ 1 from rfl, Nat.or_mod_two_pow, Nat.and_mod_two_pow]
        rcases Nat.mod_two_eq_zero_or_one x with h | h <;> rcases Nat.mod_two_eq_zero_or_one y with h' | h' <;>
          simp [h, h']
      omega

theorem or_eq_add_iff (x y : ℕ) : (x ||| y) = x + y ↔ x &&& y = 0 := by
  have := or_add_and x y
  omega

/-- Concatenations of parts of the same lengths are the same if and only if the parts are. -/
theorem flatMap_eq_iff {α β : Type} {f g : α → List β} (hlen : ∀ a, (f a).length = (g a).length) (l : List α) :
    l.flatMap f = l.flatMap g ↔ ∀ a ∈ l, f a = g a := by
  induction l with
  | nil => simp
  | cons a l ih =>
    rw [List.flatMap_cons, List.flatMap_cons, List.forall_mem_cons, ← ih]
    exact ⟨fun h => List.append_inj h (hlen a), fun h => by rw [h.1, h.2]⟩

/-! ### The reader -/

namespace McsReader

/-- Where the reader copies the bytes of a record. -/
def copies (ps : List (ℕ × McsRecord)) : List (ℕ × Byte) :=
  ps.flatMap fun p => storesOf (p.1 ||| p.2.recAddr.toNat) p.2.data

/-- A valid record within the capacity is taken. -/
theorem record_taken (m : McsReader) (lineNum : ℕ) {r : McsRecord} {rs : List McsRecord} (h1 : r.recType ≠ 0x01)
    (hv : r.Valid)
    (hcap : ∀ p ∈ dataRecords m.upperAddr.toNat (r :: rs), p.1 + p.2.recAddr.toNat + p.2.data.length ≤ kCapacityBytes) :
    ∃ m' ps, m.record lineNum r = some (.ok m') ∧
      dataRecords m.upperAddr.toNat (r :: rs) = ps ++ dataRecords m'.upperAddr.toNat rs ∧
      m'.copied = m.copied ++ copies ps := by
  have hnone : ∀ l : List (ℕ × Byte), l = l ++ copies [] := fun l => (List.append_nil l).symm
  rw [dataRecords, if_neg h1] at hcap ⊢
  by_cases h2 : r.recType = 0x02
  · obtain ⟨high, low, hdata⟩ := List.length_eq_two.mp (hv (.inl h2))
    have h4 : r.recType ≠ 0x04 := by rw [h2]; decide
    refine ⟨{ m with upperAddr := (high ++ low).setWidth 32 <<< 4 }, [], ?_, ?_, hnone _⟩
    · rw [McsReader.record, if_neg h4, if_pos h2, hdata]
    · rw [if_pos h2, toNat_segment, McsRecord.value, hdata, Nat.mul_comm]
      rfl
  rw [if_neg h2] at hcap ⊢
  by_cases h4 : r.recType = 0x04
  · obtain ⟨high, low, hdata⟩ := List.length_eq_two.mp (hv (.inr h4))
    refine ⟨{ m with upperAddr := (high ++ low).setWidth 32 <<< 16 }, [], ?_, ?_, hnone _⟩
    · rw [McsReader.record, if_pos h4, hdata]
    · rw [if_pos h4, toNat_linear, McsRecord.value, hdata, Nat.mul_comm]
      rfl
  rw [if_neg h4] at hcap ⊢
  by_cases h0 : r.recType = 0x00
  · rw [if_pos h0] at hcap ⊢
    have hin : m.upperAddr.toNat + r.recAddr.toNat + r.data.length ≤ kCapacityBytes := hcap _ List.mem_cons_self
    have hle := or_add_and m.upperAddr.toNat r.recAddr.toNat
    rw [← toNat_base] at hle
    have hsmall : kCapacityBytes < 2 ^ 32 := by decide
    rcases record_data m lineNum h0 (by omega) with ⟨hbig, -⟩ | ⟨-, m', hm', hup, hcopied, -⟩
    · omega
    · refine ⟨m', [(m.upperAddr.toNat, r)], hm', by rw [hup]; rfl, ?_⟩
      rw [hcopied, toNat_base, copies, List.flatMap_singleton]
  · rw [if_neg h0]
    refine ⟨m, [], ?_, rfl, hnone _⟩
    rw [McsReader.record, if_neg h4, if_neg h2, if_neg h0]

/-- Valid records within the capacity are read to the end, each copied to the disjunction of base
and offset. -/
theorem readLines_taken {lines : List Text} {rs : List McsRecord} (m : McsReader) (lineNum : ℕ)
    (hlines : List.Forall₂ (fun line r => ∀ lineNum, parseMcsRecord line lineNum = .ok r)
      ((lines.map chomp).filter fun line => line.head? = some ':') rs) (hv : ∀ r ∈ rs, r.Valid)
    (hcap : ∀ p ∈ dataRecords m.upperAddr.toNat rs, p.1 + p.2.recAddr.toNat + p.2.data.length ≤ kCapacityBytes) :
    ∃ m', m.readLines lineNum lines = some (.ok m') ∧
      m'.copied = m.copied ++ copies (dataRecords m.upperAddr.toNat rs) := by
  induction lines generalizing rs m lineNum with
  | nil =>
    obtain rfl := List.forall₂_nil_left_iff.mp hlines
    exact ⟨m, rfl, (List.append_nil _).symm⟩
  | cons line lines ih =>
    rw [List.map_cons] at hlines
    by_cases hcolon : (chomp line).head? = some ':'
    · rw [List.filter_cons, if_pos (by simpa using hcolon)] at hlines
      obtain ⟨r, rs, hr, hrest, rfl⟩ := List.forall₂_cons_left_iff.mp hlines
      by_cases h1 : r.recType = 0x01
      · refine ⟨m, ?_, ?_⟩
        · rw [readLines, nextLine_record (hr _), if_pos h1]
        · rw [dataRecords, if_pos h1]
          exact (List.append_nil _).symm
      · obtain ⟨m₁, ps, hm₁, hps, hcopied⟩ := record_taken m (lineNum + 1) h1 (hv r List.mem_cons_self) hcap
        obtain ⟨m', hm', hcopied'⟩ := ih m₁ (lineNum + 1) hrest (fun r' hr' => hv r' (List.mem_cons_of_mem _ hr'))
          fun p hp => hcap p (by rw [hps]; exact List.mem_append_right _ hp)
        refine ⟨m', ?_, ?_⟩
        · rw [readLines, nextLine_record (hr _), if_neg h1, hm₁]
          exact hm'
        · rw [hcopied', hcopied, hps, copies, copies, copies, List.flatMap_append, List.append_assoc]
    · rw [List.filter_cons, if_neg (by simpa using hcolon)] at hlines
      obtain ⟨m', hm', hcopied⟩ := ih m (lineNum + 1) hlines hv hcap
      refine ⟨m', ?_, hcopied⟩
      have hnext : m.nextLine (lineNum + 1) line = some (.ok (some m)) := by
        rw [nextLine]
        simp only [ne_eq, hcolon, not_false_eq_true, if_true]
      rw [readLines, hnext]
      exact hm'

/-- The reader at the end is as one after each line. -/
theorem readLines_kept {lines : List Text} {m m' : McsReader} {lineNum : ℕ} (h : Kept m)
    (hm : m.readLines lineNum lines = some (.ok m')) : Kept m' := by
  induction lines generalizing m lineNum with
  | nil =>
    obtain rfl := Except.ok.inj (Option.some.inj hm)
    exact h
  | cons line lines ih =>
    rw [readLines] at hm
    split at hm
    · cases hm
    · exact absurd (Option.some.inj hm) (by simp)
    · obtain rfl := Except.ok.inj (Option.some.inj hm)
      exact h
    next m₁ hnext =>
      refine ih ?_ hm
      rcases nextLine_eq hnext with rfl | ⟨r, -, hr⟩
      · exact h
      · exact h.record hr

end McsReader

/-- A file of valid records within the capacity is decoded as the format says if and only if every
record with data has an offset that has no bit in common with its base. -/
theorem decodes_iff {contents : Text} {rs : List McsRecord} (hc : Holding contents rs) (hv : ∀ r ∈ rs, r.Valid)
    (hcap : WithinCapacity rs) : Decodes contents rs ↔
      ∀ p ∈ dataRecords 0 rs, p.2.data ≠ [] → p.1 &&& p.2.recAddr.toNat = 0 := by
  obtain ⟨m, hm, hcopied⟩ := McsReader.readLines_taken {} 0 hc hv hcap
  have hcopied : m.copied = McsReader.copies (dataRecords 0 rs) := hcopied
  have hsame : m.copied = stores rs ↔ ∀ p ∈ dataRecords 0 rs, p.2.data ≠ [] → p.1 &&& p.2.recAddr.toNat = 0 := by
    rw [hcopied, McsReader.copies, stores, flatMap_eq_iff fun p => by rw [length_storesOf, length_storesOf]]
    refine forall₂_congr fun p _ => ?_
    rw [storesOf_inj, or_eq_add_iff]
    exact or_iff_not_imp_right
  rw [← hsame]
  constructor
  · intro h
    obtain ⟨m', hm', hplaced⟩ := h.placed
    obtain rfl := Except.ok.inj (Option.some.inj (hm.symm.trans hm'))
    exact hplaced
  · intro h
    have hshows : Shows 0xFF m.out (memory (stores rs)) := h ▸ (McsReader.readLines_kept McsReader.kept_start hm).shows
    have himage : ∀ path, parseMcsToImage path (some contents) = some
        (if m.out = [] then .error ("No data records found in MCS file: " ++ path) else .ok m.out) := fun path => by
      rw [parseMcsToImage, hm]
      rfl
    refine ⟨⟨m, hm, h⟩, fun path image hok => ?_, fun hne path => ⟨m.out, ?_⟩⟩
    · rw [himage] at hok
      split at hok
      · exact absurd (Option.some.inj hok) (by simp)
      · exact Except.ok.inj (Option.some.inj hok) ▸ hshows
    · -- the byte stored last is in the image
      rw [himage, if_neg fun hnil => ?_]
      have hheld : memory (stores rs) ((stores rs).getLast hne).1 = some ((stores rs).getLast hne).2 := by
        nth_rewrite 1 [← List.dropLast_append_getLast hne]
        rw [memory_append]
        exact Function.update_self _ _ _
      have := hshows.held hheld
      rw [hnil] at this
      cases this

/-! ### Files of records -/

/-- The file with a line for each record. -/
def fileOf (rs : List McsRecord) : Text := rs.flatMap fun r => r.line ++ ['\n']

/-- There is no line break in a record's line. -/
theorem line_plain (r : McsRecord) : ∀ c ∈ r.line, c ≠ '\n' ∧ c ≠ '\r' := by
  have hpair : ∀ b : Byte, ∀ c ∈ hexPair b, c ≠ '\n' ∧ c ≠ '\r' := by decide +kernel
  intro c hc
  rcases List.mem_cons.mp hc with rfl | hc
  · decide
  · obtain ⟨b, -, hc⟩ := List.mem_flatMap.mp hc
    exact hpair b c hc

theorem getlines_fileOf (rs : List McsRecord) : Script.getlines (fileOf rs) = rs.map McsRecord.line := by
  have hsplit : (fileOf rs).splitOn '\n' = rs.map McsRecord.line ++ [[]] := by
    induction rs with
    | nil => rfl
    | cons r rs ih =>
      have hline : '\n' ∉ r.line := fun hm => (line_plain r _ hm).1 rfl
      rw [fileOf, List.flatMap_cons, List.append_assoc, List.cons_append, List.nil_append,
        List.splitOn_append_cons_self_of_not_mem hline]
      exact congrArg _ ih
  simp only [Script.getlines, hsplit, List.getLast?_append, List.getLast?_singleton, Option.some_or, if_true,
    List.dropLast_concat]

/-- Every list of records has a file. -/
theorem fileOf_holding (rs : List McsRecord) : Holding (fileOf rs) rs := by
  have hchomp : ∀ r : McsRecord, McsReader.chomp r.line = r.line := fun r =>
    if_neg fun h => (line_plain r _ (List.mem_of_getLast? h)).2 rfl
  rw [Holding, getlines_fileOf, List.map_map]
  induction rs with
  | nil => exact .nil
  | cons r rs ih =>
    have hcolon : r.line.head? = some ':' := rfl
    rw [List.map_cons, Function.comp_apply, hchomp, List.filter_cons, if_pos (decide_eq_true hcolon)]
    exact .cons (parseMcsRecord_line r) ih

/-- A byte at offset `0x0010` under base `0x0010` goes to `0x0020`. -/
def sharedBit : List McsRecord :=
  [⟨0, 0x02, [0x00, 0x01], by decide⟩, ⟨0x0010, 0x00, [0xAA], by decide⟩, ⟨0, 0x01, [], by decide⟩]

/-- The reader puts it at `0x0010`. -/
theorem sharedBit_misplaced : Holding (fileOf sharedBit) sharedBit ∧ (∀ r ∈ sharedBit, r.Valid) ∧
    WithinCapacity sharedBit ∧ memory (stores sharedBit) 0x20 = some 0xAA ∧
    parseMcsToImage "" (some (fileOf sharedBit)) = some (.ok (List.replicate 0x10 0xFF ++ [0xAA])) ∧
    ¬Decodes (fileOf sharedBit) sharedBit := by
  have hparse : parseMcsToImage "" (some (fileOf sharedBit)) = some (.ok (List.replicate 0x10 0xFF ++ [0xAA])) := by
    decide +kernel
  have hstored : memory (stores sharedBit) 0x20 = some 0xAA := by decide +kernel
  refine ⟨fileOf_holding _, ?_, ?_, hstored, hparse, fun h => ?_⟩
  · unfold McsRecord.Valid
    decide
  · unfold WithinCapacity
    decide +kernel
  · have := (h.image "" _ hparse).held hstored
    exact absurd this (by decide)

/-- The same byte under base `0x10000`, which shares no bit with an offset. -/
def linearBase : List McsRecord :=
  [⟨0, 0x04, [0x00, 0x01], by decide⟩, ⟨0x0010, 0x00, [0xAA], by decide⟩, ⟨0, 0x01, [], by decide⟩]

theorem linearBase_decoded : Decodes (fileOf linearBase) linearBase := by
  refine (decodes_iff (fileOf_holding _) ?_ ?_).mpr ?_
  · unfold McsRecord.Valid
    decide
  · unfold WithinCapacity
    decide +kernel
  · decide +kernel

end OwlTap.Flash
