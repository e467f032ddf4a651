import OwlTap.Bsdl.File

/-!
# The opcode table

`INSTRUCTION_OPCODE` lists the patterns of each instruction, of 0, 1 and X. The parser runs the digits of
an entry together, those of all its patterns, leaves the X out, and takes the result for a number. So
what it stores is an opcode of the instruction only where the digits that are left fall on their places
(`Aligned`): `opcodes_read_iff` says when a table is read as it is meant.
-/

namespace OwlTap.Bsdl

/-! ### The table -/

/-- A word as it is written in the table: in either case, without blanks, commas and parentheses. -/
def Word (name s : Text) : Prop :=
  s ≠ [] ∧ (∀ c ∈ s, ¬BSDLParser.isSeparator c ∧ c ≠ '(' ∧ c ≠ ')') ∧ s.map Char.toUpper = name

/-- An entry `NAME ( PATTERN , ... , PATTERN )`. -/
structure OpcodeEntry where
  /-- The instruction. -/
  name : Text
  /-- Its patterns. -/
  patterns : List Text

/-- Is this a binary digit? -/
def isBit (c : Char) : Bool := c = '0' ∨ c = '1'

namespace OpcodeEntry

/-- The digits of the entry, run together. -/
def code (e : OpcodeEntry) : Text := e.patterns.flatten.filter isBit

/-- The ways to write an entry. -/
def Spelled (e : OpcodeEntry) (s : Text) : Prop :=
  ∃ word b list, Word e.name word ∧ Blank b ∧
    Separated (fun pattern t => t.map Char.toUpper = pattern) e.patterns list ∧
    s = word ++ (b ++ '(' :: (list ++ [')']))

end OpcodeEntry

/-- A file with an instruction length and an opcode table. -/
structure OpcodeFile extends BsdlFile where
  /-- The number of bits of an instruction. -/
  bits : ℕ
  /-- The specification that says it. -/
  lengthSpec : AttributeSpec
  /-- It stands in the file. -/
  lengthSpec_mem : .specified lengthSpec ∈ declarations
  /-- It specifies the length. -/
  lengthSpec_name : lengthSpec.name = "INSTRUCTION_LENGTH".toList
  /-- It is the only one. -/
  lengthSpec_only : ∀ a, .specified a ∈ declarations → a.name = "INSTRUCTION_LENGTH".toList → a = lengthSpec
  /-- Its value is the number. -/
  lengthSpec_value : ∃ number, lengthSpec.value = [⟨.integer, number⟩] ∧ BSDLParser.digits number = bits
  /-- The parser accepts the number. -/
  bits_le : bits ≤ 2147483647
  /-- The declarations before the table. -/
  before : List Declaration
  /-- The specification of the table. -/
  tableSpec : AttributeSpec
  /-- The declarations after the table. -/
  after : List Declaration
  /-- These are the declarations. -/
  declarations_eq : declarations = before ++ .specified tableSpec :: after
  /-- It specifies the table. -/
  tableSpec_name : tableSpec.name = "INSTRUCTION_OPCODE".toList
  /-- It is the only one. -/
  tableSpec_only : ∀ a, .specified a ∈ before ++ after → a.name ≠ "INSTRUCTION_OPCODE".toList
  /-- The pieces of its string. -/
  pieces : List Text
  /-- There is one at least. -/
  pieces_ne : pieces ≠ []
  /-- They are its value. -/
  tableSpec_value : tableSpec.value = joined pieces
  /-- What the table says. -/
  entries : List OpcodeEntry
  /-- The string says it. -/
  spelled : Separated OpcodeEntry.Spelled entries pieces.flatten
  /-- The patterns are of 0, 1 and X, one for each bit. -/
  patterns_wf : ∀ e ∈ entries, ∀ p ∈ e.patterns, p.length = bits ∧ ∀ c ∈ p, c = '0' ∨ c = '1' ∨ c = 'X'

/-- The value has the bits that the pattern says, from the right; an X says nothing. -/
def Matches (pattern : Text) (value : ℕ) : Prop :=
  ∀ (i : ℕ) (c : Char), pattern.reverse[i]? = some c → c ≠ 'X' → (value.testBit i = true ↔ c = '1')

namespace OpcodeFile

/-- The patterns that the table lists for a name. -/
def patternsOf (f : OpcodeFile) (name : Text) : List Text :=
  (f.entries.filter fun e => e.name = name).flatMap OpcodeEntry.patterns

/-- The table is read as it is meant: each instruction has an opcode of the right length that matches one
of its patterns, and no other name has one. -/
structure Reads (f : OpcodeFile) (dev : BSDLDevice) : Prop where
  /-- The length is accepted. -/
  bits_eq : dev.instructionLength = f.bits
  /-- Each instruction of the table has an opcode. -/
  opcode : ∀ e ∈ f.entries, ∃ v, dev.getInstruction e.name = some v ∧ v.toNat < 2 ^ f.bits ∧
    ∃ p ∈ f.patternsOf e.name, Matches p v.toNat
  /-- No other name has one. -/
  other : ∀ name, (∀ e ∈ f.entries, e.name ≠ name) → dev.getInstruction name = none

/-- The last entry of a name that has a digit. -/
def lastEntry (f : OpcodeFile) (name : Text) : Option OpcodeEntry :=
  (f.entries.filter fun e => e.name = name ∧ e.code ≠ []).getLast?

/-- What the parser makes of the table: the entries that have a digit. -/
def pairs (f : OpcodeFile) : List (Text × Text) :=
  f.entries.flatMap fun e => if e.code = [] then [] else [(e.name, e.code)]

end OpcodeFile

/-- Counted from the right, the digits are those of the pattern wherever it has one, and 0 beyond it. -/
def Aligned (code pattern : Text) : Prop :=
  (∀ (i : ℕ) (c : Char), pattern.reverse[i]? = some c → c ≠ 'X' → (code.reverse[i]? = some '1' ↔ c = '1')) ∧
    ∀ i, pattern.length ≤ i → code.reverse[i]? ≠ some '1'

namespace BSDLParser

/-! ### What the table's string yields -/

/-- Uppercase has the same digits. -/
theorem isBit_toUpper (c : Char) : isBit c.toUpper = isBit c ∧ (isBit c → c.toUpper = c) := by
  have hzero : c.toUpper = '0' ↔ c = '0' := toUpper_eq_iff (by decide)
  have hone : c.toUpper = '1' ↔ c = '1' := toUpper_eq_iff (by decide)
  refine ⟨by simp only [isBit, hzero, hone], fun h => ?_⟩
  rcases of_decide_eq_true h with rfl | rfl <;> rfl

theorem filter_toUpper (s : Text) : (s.map Char.toUpper).filter isBit = s.filter isBit := by
  induction s with
  | nil => rfl
  | cons c s ih =>
    obtain ⟨hbit, hsame⟩ := isBit_toUpper c
    rw [List.map_cons]
    by_cases hc : isBit c = true
    · rw [List.filter_cons_of_pos (hbit.trans hc), List.filter_cons_of_pos hc, ih, hsame hc]
    · rw [List.filter_cons_of_neg (fun h => hc (hbit ▸ h)), List.filter_cons_of_neg hc, ih]

/-- The digits of a list of patterns are those of the patterns. -/
theorem filter_patterns {patterns : List Text} {list : Text}
    (h : Separated (fun pattern t => t.map Char.toUpper = pattern) patterns list) :
    list.filter isBit = patterns.flatten.filter isBit := by
  have hb : ∀ {b : Text}, Blank b → b.filter isBit = [] := fun hb =>
    List.filter_eq_nil_iff.mpr fun c hc => (hb c hc).elim (· ▸ by decide) (· ▸ by decide)
  induction h with
  | nil h => exact hb h
  | @one b s c a h₁ hr h₂ =>
    rw [List.filter_append, List.filter_append, hb h₁, hb h₂, ← filter_toUpper s, hr]
    simp
  | @cons b s c rest a a' as h₁ hr h₂ _ ih =>
    rw [List.filter_append, List.filter_append, List.filter_append, hb h₁, hb h₂, ← filter_toUpper s, hr,
      List.filter_cons_of_neg (by decide), ih, List.nil_append, List.nil_append]
    exact (List.filter_append ..).symm

/-- An entry is read: its name and its digits, if there are any. -/
theorem opcodeEntries_read {e : OpcodeEntry} (hp : ∀ p ∈ e.patterns, ∀ c ∈ p, c = '0' ∨ c = '1' ∨ c = 'X') {s : Text}
    (h : e.Spelled s) (rest : Text) :
    opcodeEntries.read (s ++ rest) =
      ((if e.code = [] then [] else [(e.name, e.code)]) ++ (opcodeEntries.read rest).1, (opcodeEntries.read rest).2) := by
  obtain ⟨word, b, list, ⟨hne, hword, hupper⟩, hb, hlist, rfl⟩ := h
  have hclose : ∀ c ∈ list, c ≠ ')' := by
    refine hlist.forall_mem (by decide) (by decide) (by decide) fun p hmem t ht c hc => ?_
    rintro rfl
    have hmap : ')' ∈ p := ht ▸ List.mem_map.mpr ⟨')', hc, rfl⟩
    have := hp p hmem _ hmap
    simp at this
  have hcode : list.filter (fun c => c = '0' ∨ c = '1') = e.code := filter_patterns hlist
  have hnext : opcodeEntries.next (word ++ (b ++ '(' :: (list ++ ')' :: rest))) =
      if e.code = [] then .skip rest else .entry (e.name, e.code) rest := by
    have hsep : (word ++ (b ++ '(' :: (list ++ ')' :: rest))).dropWhile isSeparator =
        word ++ (b ++ '(' :: (list ++ ')' :: rest)) := by
      obtain ⟨c, w, rfl⟩ := List.exists_cons_of_ne_nil hne
      exact List.dropWhile_cons_of_neg (hword c List.mem_cons_self).1
    have hstop : ∀ c ∈ (b ++ '(' :: (list ++ ')' :: rest)).head?, ¬(decide ¬(c = ' ' ∨ c = '\t' ∨ c = '(')) = true := by
      intro c hc
      cases b with
      | nil => obtain rfl := Option.some.inj hc; decide
      | cons d b =>
        obtain rfl := Option.some.inj hc
        rcases hb d List.mem_cons_self with rfl | rfl <;> decide
    have hgoes : ∀ c ∈ word, (decide ¬(c = ' ' ∨ c = '\t' ∨ c = '(')) = true := by
      intro c hc
      refine decide_eq_true ?_
      rintro (rfl | rfl | rfl)
      · exact (hword _ hc).1 rfl
      · exact (hword _ hc).1 rfl
      · exact (hword _ hc).2.1 rfl
    obtain ⟨htake, hdrop⟩ := takeWhile_append_of_stop hgoes hstop
    obtain ⟨-, hopen⟩ := cut_at (x := '(') (fun c hc => by rcases hb c hc with rfl | rfl <;> decide)
      (list ++ ')' :: rest)
    obtain ⟨hlist, hrest⟩ := cut_at hclose rest
    have hname : e.name ≠ [] := fun h => hne (List.map_eq_nil_iff.mp (hupper.trans h))
    simp only [opcodeEntries, hsep, htake, hdrop, hopen, List.tail_cons, hlist, hrest, hcode, reduceCtorEq, or_false,
      hupper, if_neg hname]
  have happ : word ++ (b ++ '(' :: (list ++ [')'])) ++ rest = word ++ (b ++ '(' :: (list ++ ')' :: rest)) := by simp
  rw [happ]
  by_cases hempty : e.code = []
  · rw [if_pos hempty] at hnext ⊢
    exact Reader.read_of_skip hnext
  · rw [if_neg hempty] at hnext ⊢
    exact Reader.read_of_entry hnext

/-! ### The opcodes -/

/-- The first character is the last one from the right. -/
theorem getElem?_reverse_cons (c : Char) (s : Text) (i : ℕ) :
    (c :: s).reverse[i]? = if i = s.length then some c else s.reverse[i]? := by
  rw [List.reverse_cons, List.getElem?_append, List.length_reverse]
  rcases Nat.lt_trichotomy i s.length with hi | rfl | hi
  · rw [if_pos hi, if_neg hi.ne]
  · simp
  · have hnone : s.reverse[i]? = none := List.getElem?_eq_none (by rw [List.length_reverse]; exact hi.le)
    rw [if_neg (by omega), if_neg hi.ne', hnone, List.getElem?_singleton, if_neg (by omega)]

/-- The bits of an opcode are its digits, from the right. -/
theorem binary_bits {code : Text} {v : BitVec 32} (h : binary code = some v) (i : ℕ) :
    v.toNat.testBit i = true ↔ code.reverse[i]? = some '1' := by
  induction code generalizing v with
  | nil =>
    cases h
    simp
  | cons b bs ih =>
    rw [binary] at h
    obtain ⟨op, hop, h⟩ := Option.bind_eq_some_iff.mp h
    have ih := ih hop
    have hnone : i = bs.length → op.toNat.testBit i = false := by
      rintro rfl
      rw [← Bool.not_eq_true, ih, List.getElem?_eq_none (by rw [List.length_reverse])]
      exact (Option.some_ne_none _).symm
    rw [getElem?_reverse_cons]
    split at h
    next hb =>
      split at h
      next hlen =>
        cases h
        have hone : (1#32 <<< bs.length).toNat.testBit i = true ↔ i = bs.length := by
          rw [BitVec.testBit_toNat, BitVec.getLsbD_shiftLeft]
          simp only [BitVec.getLsbD_one, Bool.and_eq_true, decide_eq_true_eq, Bool.not_eq_true', decide_eq_false_iff_not]
          omega
        rw [BitVec.toNat_or, Nat.testBit_or, Bool.or_eq_true, hone]
        split
        next hi => exact ⟨fun _ => by rw [hb], fun _ => .inr hi⟩
        next hi => exact ⟨fun h => ih.mp (h.resolve_right hi), fun h => .inl (ih.mpr h)⟩
      · cases h
    next hb =>
      cases h
      split
      next hi =>
        rw [hnone hi]
        exact iff_of_false Bool.false_ne_true fun h => hb (Option.some.inj h)
      · exact ih

/-- The digits are aligned with a pattern if and only if the number has the length of the pattern and
matches it. -/
theorem aligned_iff {code pattern : Text} {v : BitVec 32} (h : binary code = some v) :
    Aligned code pattern ↔ v.toNat < 2 ^ pattern.length ∧ Matches pattern v.toNat := by
  simp only [Aligned, Matches, binary_bits h, and_comm (a := v.toNat < _)]
  refine and_congr_right fun _ => ⟨fun hbits => ?_, fun hlt i hi => ?_⟩
  · refine Nat.lt_pow_two_of_testBit _ fun i hi => ?_
    rw [← Bool.not_eq_true, binary_bits h]
    exact hbits i hi
  · rw [ne_eq, ← binary_bits h, Bool.not_eq_true]
    exact Nat.testBit_lt_two_pow (lt_of_lt_of_le hlt (Nat.pow_le_pow_right (by decide) hi))

theorem reverse_beyond {s : Text} {i : ℕ} (h : s.length ≤ i) : s.reverse[i]? = none :=
  List.getElem?_eq_none (by rwa [List.length_reverse])

/-- A 0 or an X in front of the pattern asks for no 1 there. -/
theorem aligned_cons {c : Char} (hc : c = '0' ∨ c = 'X') {code p : Text} (hlen : code.length ≤ p.length) :
    Aligned code (c :: p) ↔ Aligned code p := by
  simp only [Aligned, getElem?_reverse_cons, List.length_cons]
  have hnone : code.reverse[p.length]? ≠ some '1' := by
    rw [reverse_beyond hlen]
    exact nofun
  constructor
  · rintro ⟨hplaces, hbeyond⟩
    refine ⟨fun i d hd hx => hplaces i d ?_ hx, fun i hi => ?_⟩
    · have : i ≠ p.length := by
        rintro rfl
        rw [reverse_beyond (le_refl _)] at hd
        cases hd
      rwa [if_neg this]
    · rcases Nat.eq_or_lt_of_le hi with rfl | hi
      · exact hnone
      · exact hbeyond i hi
  · rintro ⟨hplaces, hbeyond⟩
    refine ⟨fun i d hd hx => ?_, fun i hi => hbeyond i (by omega)⟩
    split at hd
    next hi =>
      cases hd
      subst hi
      rcases hc with rfl | rfl
      · exact ⟨fun h => absurd h hnone, fun h => absurd h (by decide)⟩
      · exact absurd rfl hx
    · exact hplaces i d hd hx

/-- A 0 in front of the digits says nothing. -/
theorem aligned_zero_cons {code p : Text} : Aligned ('0' :: code) p ↔ Aligned code p := by
  have hsame : ∀ i : ℕ, ('0' :: code).reverse[i]? = some '1' ↔ code.reverse[i]? = some '1' := by
    intro i
    rw [getElem?_reverse_cons]
    split
    next hi =>
      rw [reverse_beyond hi.ge]
      exact ⟨fun h => absurd (Option.some.inj h) (by decide), nofun⟩
    · exact Iff.rfl
  simp only [Aligned, ne_eq, hsame]

/-- An entry with one pattern is aligned with it if and only if no X of the pattern comes after a 1. -/
theorem aligned_single {p : Text} (hp : ∀ c ∈ p, c = '0' ∨ c = '1' ∨ c = 'X') :
    Aligned (p.filter isBit) p ↔ ¬['1', 'X'].Sublist p := by
  induction p with
  | nil => exact ⟨fun _ => nofun, fun _ => ⟨fun i c h => by simp at h, fun i _ => by simp⟩⟩
  | cons c p ih =>
    have ih := ih fun d hd => hp d (List.mem_cons_of_mem c hd)
    have hle : (p.filter isBit).length ≤ p.length := List.length_filter_le _ _
    have hskip : c ≠ '1' → (['1', 'X'].Sublist (c :: p) ↔ ['1', 'X'].Sublist p) := by
      intro hc
      refine ⟨fun h => ?_, fun h => h.cons c⟩
      cases h with
      | cons _ h => exact h
      | cons_cons _ h => exact absurd rfl hc
    rcases hp c List.mem_cons_self with rfl | rfl | rfl
    · rw [List.filter_cons_of_pos rfl, aligned_zero_cons, aligned_cons (.inl rfl) hle, ih, hskip (by decide)]
    · -- after a 1 every character counts
      rw [List.filter_cons_of_pos rfl, List.cons_sublist_cons, List.singleton_sublist]
      constructor
      · intro h hx
        have hlt : (p.filter isBit).length < p.length :=
          List.length_filter_lt_length_iff_exists.mpr ⟨'X', hx, by decide⟩
        have hplace := h.1 p.length '1' (by rw [getElem?_reverse_cons, if_pos rfl]) (by decide)
        rw [reverse_beyond hlt] at hplace
        exact absurd (hplace.mpr rfl) nofun
      · intro hx
        have hall : p.filter isBit = p := by
          refine List.filter_eq_self.mpr fun d hd => ?_
          rcases hp d (List.mem_cons_of_mem _ hd) with rfl | rfl | rfl
          · rfl
          · rfl
          · exact absurd hd hx
        rw [hall]
        refine ⟨fun i d hd _ => by rw [hd]; exact Option.some_inj, fun i hi => ?_⟩
        rw [reverse_beyond hi]
        exact nofun
    · rw [List.filter_cons_of_neg (by decide), aligned_cons (.inr rfl) hle, ih, hskip (by decide)]

/-- What the entries of a table leave of a name: its last entry, or what was there. -/
theorem lookup_storeOpcodes {entries : List (Text × Text)} {dev dev' : BSDLDevice}
    (h : entries.foldlM storeOpcode dev = some dev') (name : Text) :
    dev'.instructions.lookup name =
      match (entries.filter fun e => e.1 = name).getLast? with
      | none => dev.instructions.lookup name
      | some e => binary e.2 := by
  induction entries generalizing dev with
  | nil => cases h; rfl
  | cons e entries ih =>
    rw [List.foldlM_cons] at h
    obtain ⟨dev₁, h₁, h⟩ := Option.bind_eq_some_iff.mp h
    obtain ⟨op, hop, rfl⟩ := Option.map_eq_some_iff.mp h₁
    rw [ih h]
    by_cases he : e.1 = name
    · rw [List.filter_cons_of_pos (by simpa using he), List.getLast?_cons]
      cases (entries.filter fun e => e.1 = name).getLast? with
      | none =>
        subst he
        exact (AList.lookup_insert _).trans hop.symm
      | some e' => rfl
    · rw [List.filter_cons_of_neg (by simpa using he)]
      cases (entries.filter fun e => e.1 = name).getLast? with
      | none => exact AList.lookup_insert_ne (Ne.symm he)
      | some e' => rfl

theorem mem_pairs {f : OpcodeFile} {x : Text × Text} :
    x ∈ f.pairs ↔ ∃ e ∈ f.entries, e.code ≠ [] ∧ x = (e.name, e.code) := by
  simp only [OpcodeFile.pairs, List.mem_flatMap]
  refine exists_congr fun e => and_congr_right fun _ => ?_
  split
  next h => exact ⟨nofun, fun hx => absurd h hx.1⟩
  next h => exact List.mem_singleton.trans ⟨fun hx => ⟨h, hx⟩, And.right⟩

theorem getLast?_pairs (f : OpcodeFile) (name : Text) :
    (f.pairs.filter fun e => e.1 = name).getLast? = (f.lastEntry name).map fun e => (e.name, e.code) := by
  have hpairs : ∀ es : List OpcodeEntry,
      ((es.flatMap fun e => if e.code = [] then [] else [(e.name, e.code)]).filter fun e => e.1 = name) =
        (es.filter fun e => e.name = name ∧ e.code ≠ []).map fun e => (e.name, e.code) := by
    intro es
    induction es with
    | nil => rfl
    | cons e es ih =>
      rw [List.flatMap_cons, List.filter_append, ih, List.filter_cons]
      by_cases hc : e.code = []
      · simp [hc]
      · by_cases hn : e.name = name <;> simp [hc, hn]
  rw [OpcodeFile.pairs, hpairs, List.getLast?_map]
  rfl

/-- The table is done entry by entry. -/
theorem apply_table (f : OpcodeFile) (dev : BSDLDevice) :
    f.tableSpec.statement.apply dev = f.pairs.foldlM storeOpcode dev := by
  have hsep : ∀ c ∈ [' ', '\t', ','], ∀ cs, opcodeEntries.read (c :: cs) = opcodeEntries.read cs := by
    intro c hc cs
    refine Reader.read_congr ?_
    have hdrop : (c :: cs).dropWhile isSeparator = cs.dropWhile isSeparator := by
      refine List.dropWhile_cons_of_pos ?_
      simp only [List.mem_cons, List.not_mem_nil, or_false] at hc
      rcases hc with rfl | rfl | rfl <;> rfl
    simp only [opcodeEntries, hdrop]
  have hread := f.spelled.read_eq hsep fun e he s hs rest =>
    opcodeEntries_read (fun p hp => (f.patterns_wf e he p hp).2) hs rest
  show applyValue f.tableSpec.name (f.tableSpec.value ++ [semicolon]) dev = _
  rw [f.tableSpec_name, f.tableSpec_value]
  show (parseInstructionOpcode (joined f.pieces ++ [semicolon]) dev).map Prod.snd = _
  rw [parseInstructionOpcode, readConcatenatedString_joined f.pieces_ne]
  dsimp only
  rw [opcodes_eq (le_refl _), hread, Option.map_map]
  exact Option.map_id'

theorem table_throws {source : Text} {f : OpcodeFile} (hs : Spells source f.tokens) :
    f.tableSpec.statement.Throws ↔ ∃ e ∈ f.entries, TooLong e.code := by
  have hmem : .specified f.tableSpec ∈ f.declarations := by simp [f.declarations_eq]
  rw [← apply_statements_eq_none hs (mem_statements.mpr ⟨_, hmem, rfl⟩) {}, apply_table, foldlM_eq_none (fun dev e _ => storeOpcode_eq_none dev e)]
  constructor
  · rintro ⟨x, hx, hlong⟩
    obtain ⟨e, he, -, rfl⟩ := mem_pairs.mp hx
    exact ⟨e, he, hlong⟩
  · rintro ⟨e, he, hlong⟩
    refine ⟨(e.name, e.code), mem_pairs.mpr ⟨e, he, fun hc => ?_, rfl⟩, hlong⟩
    rw [TooLong, hc] at hlong
    cases hlong

/-- What the device has for an opcode is the number of the last entry with a digit. -/
theorem getInstruction_file {source : Text} {f : OpcodeFile} (hs : Spells source f.tokens) {dev : BSDLDevice}
    (hd : parseString source = some dev) (name : Text) :
    dev.getInstruction name = (f.lastEntry name).bind fun e => binary e.code := by
  obtain ⟨pins, he⟩ := parseString_file hs
  rw [he] at hd
  obtain ⟨dev₃, h₃, rfl⟩ := Option.map_eq_some_iff.mp hd
  have hother : ∀ ds : List Declaration, (∀ a, .specified a ∈ ds → a.name ≠ "INSTRUCTION_OPCODE".toList) →
      ∀ {dev dev' : BSDLDevice}, (ds.flatMap Declaration.statements).foldlM Statement.apply dev = some dev' →
        dev'.instructions = dev.instructions := by
    intro ds hds dev₀ dev' h
    refine declarations_keep (P := fun dev => dev.instructions = dev₀.instructions) (fun a hmem dev dev' hp ha => ?_) rfl h
    have hname := hds a hmem
    have heff : Effect dev a.name dev' := applyValue_effect ha
    generalize a.name = name at hname heff
    cases heff with
    | instructions ops => exact absurd rfl hname
    | _ => exact hp
  rw [BsdlFile.statements, f.declarations_eq, List.flatMap_append, List.foldlM_append] at h₃
  obtain ⟨dev₁, h₁, h₃⟩ := Option.bind_eq_some_iff.mp h₃
  rw [List.flatMap_cons, Declaration.statements, List.singleton_append, List.foldlM_cons, apply_table] at h₃
  obtain ⟨dev₂, h₂, h₃⟩ := Option.bind_eq_some_iff.mp h₃
  have hbefore : dev₁.instructions = ∅ :=
    hother f.before (fun a ha => f.tableSpec_only a (List.mem_append_left _ ha)) h₁
  have hafter : dev₃.instructions = dev₂.instructions :=
    hother f.after (fun a ha => f.tableSpec_only a (List.mem_append_right _ ha)) h₃
  show dev₃.instructions.lookup name = _
  rw [hafter, lookup_storeOpcodes h₂, getLast?_pairs, hbefore]
  cases f.lastEntry name with
  | none => rfl
  | some e => rfl

/-- The length is the one of the file. -/
theorem instructionLength_file {source : Text} {f : OpcodeFile} (hs : Spells source f.tokens) {dev : BSDLDevice}
    (hd : parseString source = some dev) : dev.instructionLength = f.bits := by
  obtain ⟨pins, he⟩ := parseString_file hs
  rw [he] at hd
  obtain ⟨dev₁, h₁, rfl⟩ := Option.map_eq_some_iff.mp hd
  have hset : ∀ {dev dev' : BSDLDevice}, f.lengthSpec.statement.apply dev = some dev' →
      dev'.instructionLength = f.bits := by
    intro dev dev' h
    obtain ⟨number, hvalue, hdigits⟩ := f.lengthSpec_value
    have hnum : Numeral number := by
      have := tokens_numeral source ⟨.integer, number⟩
      rw [hs.tokens_eq] at this
      exact this (value_subset f.lengthSpec_mem (by simp [hvalue])) rfl
    have h : applyValue f.lengthSpec.name (f.lengthSpec.value ++ [semicolon]) dev = some dev' := h
    rw [f.lengthSpec_name, hvalue] at h
    have h : ((stoi number).map fun n => (skipToSemicolon [semicolon], { dev with instructionLength := n.toNat })).map
      Prod.snd = some dev' := h
    rw [stoi_digits hnum.1 hnum.2, hdigits, if_pos f.bits_le] at h
    cases h
    rfl
  have hlen : dev₁.instructionLength = f.bits := by
    refine foldlM_sets (P := fun dev => dev.instructionLength = f.bits) (mem_statements.mpr ⟨_, f.lengthSpec_mem, rfl⟩)
      hset (fun s hm dev dev' hp ha => ?_) h₁
    obtain ⟨a, hmem, rfl⟩ := mem_statements.mp hm
    by_cases hname : a.name = "INSTRUCTION_LENGTH".toList
    · rw [f.lengthSpec_only a hmem hname] at ha
      exact hset ha
    · have heff : Effect dev a.name dev' := applyValue_effect ha
      generalize a.name = name at hname heff
      cases heff with
      | instructionLength n => exact absurd rfl hname
      | _ => exact hp
  exact hlen

/-- The table is read as it is meant if and only if no other declaration throws, no entry has a 1 before its
last 32 digits, and each name has an entry with a digit, the last of which is aligned with one of the
patterns of the name. -/
theorem opcodes_read_iff {source : Text} {f : OpcodeFile} (hs : Spells source f.tokens) :
    (∃ dev, parseString source = some dev ∧ f.Reads dev) ↔
      (∀ a, .specified a ∈ f.before ++ f.after → ¬a.statement.Throws) ∧ (∀ e ∈ f.entries, ¬TooLong e.code) ∧
        ∀ e ∈ f.entries, ∃ last, f.lastEntry e.name = some last ∧ ∃ p ∈ f.patternsOf e.name, Aligned last.code p := by
  have hlength : ∀ name, ∀ p ∈ f.patternsOf name, p.length = f.bits := by
    intro name p hp
    obtain ⟨e, he, hp⟩ := List.mem_flatMap.mp hp
    exact (f.patterns_wf e (List.mem_of_mem_filter he) p hp).1
  have hthrows : (∃ s ∈ f.statements, s.Throws) ↔
      ¬((∀ a, .specified a ∈ f.before ++ f.after → ¬a.statement.Throws) ∧ ∀ e ∈ f.entries, ¬TooLong e.code) := by
    have htable : f.tableSpec.statement.Throws ↔ ∃ e ∈ f.entries, TooLong e.code := table_throws hs
    constructor
    · rintro ⟨s, hm, hthrows⟩ ⟨hothers, hlong⟩
      obtain ⟨a, ha, rfl⟩ := mem_statements.mp hm
      rw [f.declarations_eq, List.mem_append, List.mem_cons] at ha
      rcases ha with ha | ha | ha
      · exact hothers a (List.mem_append_left _ ha) hthrows
      · obtain rfl := Declaration.specified.inj ha
        obtain ⟨e, he, hlong'⟩ := htable.mp hthrows
        exact hlong e he hlong'
      · exact hothers a (List.mem_append_right _ ha) hthrows
    · intro h
      by_contra hnone
      refine h ⟨fun a ha hthrows => hnone ⟨_, mem_statements.mpr ⟨a, ?_, rfl⟩, hthrows⟩, fun e he hlong => hnone
        ⟨_, mem_statements.mpr ⟨f.tableSpec, ?_, rfl⟩, htable.mpr ⟨e, he, hlong⟩⟩⟩
      · rw [f.declarations_eq]
        rcases List.mem_append.mp ha with ha | ha
        · exact List.mem_append_left _ ha
        · exact List.mem_append_right _ (List.mem_cons_of_mem _ ha)
      · simp [f.declarations_eq]
  constructor
  · rintro ⟨dev, hd, hreads⟩
    have hsome : ¬∃ s ∈ f.statements, s.Throws := fun h => by
      rw [(parseString_file_eq_none hs).mpr h] at hd
      cases hd
    rw [hthrows, not_not] at hsome
    refine ⟨hsome.1, hsome.2, fun e he => ?_⟩
    obtain ⟨v, hv, hlt, p, hp, hmatch⟩ := hreads.opcode e he
    rw [getInstruction_file hs hd] at hv
    obtain ⟨last, hlast, hbin⟩ := Option.bind_eq_some_iff.mp hv
    exact ⟨last, hlast, p, hp, (aligned_iff hbin).mpr ⟨hlength _ p hp ▸ hlt, hmatch⟩⟩
  · rintro ⟨hothers, hlong, haligned⟩
    have hsome : parseString source ≠ none := fun h =>
      hthrows.mp ((parseString_file_eq_none hs).mp h) ⟨hothers, hlong⟩
    obtain ⟨dev, hd⟩ := Option.ne_none_iff_exists'.mp hsome
    refine ⟨dev, hd, instructionLength_file hs hd, fun e he => ?_, fun name hname => ?_⟩
    · obtain ⟨last, hlast, p, hp, hal⟩ := haligned e he
      have hmem : last ∈ f.entries := List.mem_of_mem_filter (List.mem_of_getLast? hlast)
      obtain ⟨v, hv⟩ := Option.ne_none_iff_exists'.mp fun h => hlong last hmem ((binary_eq_none _).mp h)
      obtain ⟨hlt, hmatch⟩ := (aligned_iff hv).mp hal
      refine ⟨v, ?_, hlength _ p hp ▸ hlt, p, hp, hmatch⟩
      rw [getInstruction_file hs hd, hlast]
      exact hv
    · have hnone : f.lastEntry name = none := by
        refine List.getLast?_eq_none_iff.mpr (List.filter_eq_nil_iff.mpr fun e he hc => ?_)
        exact hname e he (of_decide_eq_true hc).1
      rw [getInstruction_file hs hd, hnone]
      rfl

/-! ### A table that is not read as it is meant -/

/-- `attribute INSTRUCTION_LENGTH of D : entity is 2;`. -/
def twoBits : AttributeSpec :=
  ⟨"INSTRUCTION_LENGTH".toList, [ident ['D'], ⟨.colon, [':']⟩, ident "ENTITY".toList], [⟨.integer, ['2']⟩],
    is_notMem_target, by decide, by decide⟩

/-- `attribute INSTRUCTION_OPCODE of D : entity is "BYPASS " & "(11, 10)";`. -/
def bypassTable : AttributeSpec :=
  ⟨"INSTRUCTION_OPCODE".toList, [ident ['D'], ⟨.colon, [':']⟩, ident "ENTITY".toList],
    joined ["BYPASS ".toList, "(11, 10)".toList], is_notMem_target, by decide, by decide⟩

/-- A file with instructions of two bits, where `BYPASS` has two patterns. -/
def twoPatterns : OpcodeFile where
  name := ['D']
  generic := none
  ports := ⟨⟨⟨"TDI".toList, none, not_reserved_tdi⟩, [], .in, .bit⟩, []⟩
  bits := 2
  lengthSpec := twoBits
  tableSpec := bypassTable
  declarations :=
    [.specified twoBits,
    .specified bypassTable,
    .other [ident "END".toList, ident ['D'], semicolon] not_reserved_end]
  lengthSpec_mem := List.mem_cons_self
  lengthSpec_name := rfl
  lengthSpec_only a ha hname := by
    simp only [List.mem_cons, List.not_mem_nil, or_false, reduceCtorEq, Declaration.specified.injEq] at ha
    rcases ha with rfl | rfl
    · rfl
    · exact absurd hname (by decide)
  lengthSpec_value := ⟨['2'], rfl, by decide⟩
  bits_le := by decide
  before := [.specified twoBits]
  after := [.other [ident "END".toList, ident ['D'], semicolon] not_reserved_end]
  declarations_eq := rfl
  tableSpec_name := rfl
  tableSpec_only a ha := by
    simp only [List.cons_append, List.nil_append, List.mem_cons, List.not_mem_nil, or_false, reduceCtorEq,
      Declaration.specified.injEq] at ha
    subst ha
    decide
  pieces := ["BYPASS ".toList, "(11, 10)".toList]
  pieces_ne := by decide
  tableSpec_value := rfl
  entries := [⟨"BYPASS".toList, ["11".toList, "10".toList]⟩]
  spelled := by
    have hblank : Blank [' '] := by simp [Blank]
    have hnone : Blank [] := by simp [Blank]
    have hlist : Separated (fun pattern t => t.map Char.toUpper = pattern) ["11".toList, "10".toList] "11, 10".toList :=
      .cons (b := []) (s := "11".toList) (c := []) hnone (by decide) hnone
        (.one (b := [' ']) (s := "10".toList) (c := []) hblank (by decide) hnone)
    have hentry : OpcodeEntry.Spelled ⟨"BYPASS".toList, ["11".toList, "10".toList]⟩ "BYPASS (11, 10)".toList :=
      ⟨"BYPASS".toList, [' '], "11, 10".toList, ⟨by decide, by decide, by decide⟩, hblank, hlist, rfl⟩
    exact .one (b := []) (c := []) hnone hentry hnone
  patterns_wf := by decide

theorem twoPatterns_spells : Spells (spaced twoPatterns.tokens) twoPatterns.tokens := spells_spaced (by decide)

/-- The opcode is 14, of both patterns together. -/
theorem twoPatterns_not_read : Spells (spaced twoPatterns.tokens) twoPatterns.tokens ∧
    (∃ dev, parseString (spaced twoPatterns.tokens) = some dev ∧ dev.getInstruction "BYPASS".toList = some 14) ∧
    ¬∃ dev, parseString (spaced twoPatterns.tokens) = some dev ∧ twoPatterns.Reads dev := by
  have hbin : (twoPatterns.lastEntry "BYPASS".toList).bind (fun e => binary e.code) = some 14 := by decide
  obtain ⟨dev, hd⟩ := Option.isSome_iff_exists.mp
    (show (parseString (spaced twoPatterns.tokens)).isSome from by decide +kernel)
  refine ⟨twoPatterns_spells, ⟨dev, hd, (getInstruction_file twoPatterns_spells hd _).trans hbin⟩, ?_⟩
  rintro ⟨dev, hd, hreads⟩
  obtain ⟨v, hv, hlt, -⟩ := hreads.opcode ⟨"BYPASS".toList, ["11".toList, "10".toList]⟩ List.mem_cons_self
  rw [getInstruction_file twoPatterns_spells hd, hbin] at hv
  cases hv
  exact absurd hlt (by decide)

theorem twoPatterns_iff : (∃ dev, parseString (spaced twoPatterns.tokens) = some dev ∧ twoPatterns.Reads dev) ↔
    (∀ a, .specified a ∈ twoPatterns.before ++ twoPatterns.after → ¬a.statement.Throws) ∧
      (∀ e ∈ twoPatterns.entries, ¬TooLong e.code) ∧
      ∀ e ∈ twoPatterns.entries, ∃ last, twoPatterns.lastEntry e.name = some last ∧
        ∃ p ∈ twoPatterns.patternsOf e.name, Aligned last.code p :=
  opcodes_read_iff twoPatterns_spells

end BSDLParser

end OwlTap.Bsdl
