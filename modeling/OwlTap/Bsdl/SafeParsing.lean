import OwlTap.Bsdl.CellPlaces
import OwlTap.Bsdl.CharacterReads

/-!
# Which texts the parser survives

The parser goes through any text in as many passes as it has tokens, and keeps to its characters and
its cells. A number that `std::stoi` cannot hold is caught where the boundary length and the control
cells are read, and not where the instruction length and the positions of the cells are; an opcode is
shifted into a word whatever its length is. `Statement.Throws` says this of the statements of a file, and the parser
returns a device exactly when it says it of none of them (`parseString_safe_iff`).
-/

namespace OwlTap.Bsdl

namespace BSDLParser

/-! ### Numbers that do not fit -/

/-- The number is greater than an `int` can be. -/
def Overflows (number : Text) : Prop := 2147483647 < digits number

/-- A 1 stands before the last 32 digits of the opcode. -/
def TooLong (code : Text) : Prop := '1' ∈ code.take (code.length - 32)

/-- A number as the lexer and the parser find it in the text. -/
def Numeral (s : Text) : Prop := s ≠ [] ∧ ∀ c ∈ s, c.isDigit

theorem stoi_eq_none {s : Text} (h : Numeral s) : stoi s = none ↔ Overflows s := by
  rw [stoi_digits h.1 h.2, Overflows]
  split
  · exact ⟨nofun, fun h => by omega⟩
  · exact ⟨fun _ => by omega, fun _ => rfl⟩

theorem binary_eq_none (code : Text) : binary code = none ↔ TooLong code := by
  induction code with
  | nil => exact ⟨nofun, nofun⟩
  | cons b bs ih =>
    rw [TooLong] at ih ⊢
    rw [binary, List.length_cons]
    by_cases hlen : bs.length < 32
    · have hnone : bs.length - 32 = 0 := by omega
      have hzero : bs.length + 1 - 32 = 0 := by omega
      rw [hnone, List.take_zero] at ih
      cases hbs : binary bs with
      | none => exact absurd (ih.mp hbs) List.not_mem_nil
      | some opcode =>
        rw [hzero, List.take_zero]
        refine ⟨fun h => ?_, nofun⟩
        simp only [Option.bind_some, if_pos hlen] at h
        split at h <;> cases h
    · have hsucc : bs.length + 1 - 32 = (bs.length - 32) + 1 := by omega
      rw [hsucc, List.take_succ_cons, List.mem_cons]
      cases hbs : binary bs with
      | none => exact ⟨fun _ => .inr (ih.mp hbs), fun _ => rfl⟩
      | some opcode =>
        have hnot : '1' ∉ bs.take (bs.length - 32) := fun h => by rw [ih.mpr h] at hbs; cases hbs
        simp only [Option.bind_some, if_neg hlen]
        by_cases hb : b = '1'
        · rw [if_pos hb]
          exact ⟨fun _ => .inl hb.symm, fun _ => rfl⟩
        · rw [if_neg hb]
          exact ⟨nofun, fun h => h.elim (fun e => absurd e.symm hb) fun h => absurd h hnot⟩

/-- Steps that fail or not whatever they start from: all of them succeed, or none of them is done. -/
theorem foldlM_eq_none {δ ε : Type*} {f : δ → ε → Option δ} {fails : ε → Prop} {xs : List ε}
    (h : ∀ d, ∀ x ∈ xs, f d x = none ↔ fails x) (d : δ) : xs.foldlM f d = none ↔ ∃ x ∈ xs, fails x := by
  induction xs generalizing d with
  | nil => exact ⟨nofun, fun ⟨_, hx, _⟩ => absurd hx List.not_mem_nil⟩
  | cons x xs ih =>
    have ih := ih fun d y hy => h d y (List.mem_cons_of_mem x hy)
    rw [List.foldlM_cons, List.exists_mem_cons_iff, ← h d x List.mem_cons_self]
    cases hx : f d x with
    | none => exact ⟨fun _ => .inl rfl, fun _ => rfl⟩
    | some d' => exact (ih d').trans ⟨.inr, fun h => h.resolve_left nofun⟩

/-! ### Numbers in the text are digits -/

/-- An integer token has digits for its text. -/
theorem nextToken_numeral (source : Text) (h : (nextToken source).1.type = .integer) :
    Numeral (nextToken source).1.value := by
  unfold nextToken at h ⊢
  cases hcs : skipWhitespace false source with
  | nil => rw [hcs] at h; cases h
  | cons c rest =>
    rw [hcs] at h
    dsimp only at h ⊢
    split at h
    · cases h
    next halpha =>
      rw [if_neg halpha]
      split at h
      next hquote =>
        have hnot : ∀ (value cs : Text), (readStringLiteral value cs).1.type ≠ .integer := by
          intro value cs
          fun_induction readStringLiteral value cs with
          | case1 => intro e; cases e
          | case2 _ _ ih => exact ih
          | case3 => intro e; cases e
          | case4 _ _ _ _ _ ih => exact ih
        exact absurd h (hnot [] rest)
      next hquote =>
        rw [if_neg hquote]
        split at h
        next hdigit =>
          rw [if_pos hdigit]
          refine ⟨?_, fun x hx => List.mem_takeWhile_imp hx⟩
          rw [readInteger, List.takeWhile_cons_of_pos hdigit]
          exact List.cons_ne_nil _ _
        · exfalso
          unfold readPunctuation at h
          split at h
          case h_7 => split at h <;> cases h
          all_goals cases h

theorem tokens_numeral (source : Text) : ∀ t ∈ tokens source, t.type = .integer → Numeral t.value := by
  rw [tokens_eq_read]
  refine lexer.forall_read (Q := fun _ => True) (fun _ h => ?_) (fun _ _ => trivial) (fun _ h => ⟨?_, trivial⟩) trivial
  · simp only [lexer] at h
    split at h <;> cases h
  · simp only [lexer] at h
    split at h <;> cases h
    exact nextToken_numeral _

/-- The number of an entry is digits. -/
theorem cellEntries_numeral (content : Text) : ∀ e ∈ (cellEntries.read content).1, Numeral e.number := by
  have hdigits : ∀ content : Text, content.takeWhile Char.isDigit ≠ [] → Numeral (content.takeWhile Char.isDigit) :=
    fun content hne => ⟨hne, fun x hx => List.mem_takeWhile_imp hx⟩
  refine cellEntries.forall_read (Q := fun _ => True) (fun _ h => ?_) (fun _ _ => trivial)
    (fun _ h => ⟨?_, trivial⟩) trivial
  all_goals
    simp only [cellEntries] at h
    split at h
    · cases h
    split at h
    · cases h
    next hne =>
      split at h <;> cases h
      exact hdigits _ hne

/-! ### Which statements throw -/

/-- A number that the statement says does not fit, and nothing catches it. -/
def Statement.Throws : Statement → Prop
  | .attribute name value =>
    if name = "INSTRUCTION_LENGTH".toList then peek value = .integer ∧ Overflows (next value).1.value
    else if name = "INSTRUCTION_OPCODE".toList then
      ∃ e ∈ (opcodeEntries.read (readConcatenatedString value).1).1, TooLong e.2
    else if name = "BOUNDARY_REGISTER".toList then
      ∃ e ∈ (cellEntries.read (readConcatenatedString value).1).1, Overflows e.number
    else False
  | _ => False

/-- The statements of a file. -/
def fileStatements (source : Text) : List Statement := (statements.read (tokens source)).1

theorem storeOpcode_eq_none (dev : BSDLDevice) (e : Text × Text) : storeOpcode dev e = none ↔ TooLong e.2 := by
  rw [storeOpcode, Option.map_eq_none_iff]
  exact binary_eq_none e.2

theorem storeEntry_eq_none (dev : BSDLDevice) {e : CellEntry} (h : Numeral e.number) :
    storeEntry dev e = none ↔ Overflows e.number := by
  rw [storeEntry, Option.map_eq_none_iff]
  exact stoi_eq_none h

theorem parseInstructionLength_eq_none {value : List Token}
    (h : ∀ t ∈ value, t.type = .integer → Numeral t.value) (dev : BSDLDevice) :
    parseInstructionLength value dev = none ↔ peek value = .integer ∧ Overflows (next value).1.value := by
  cases value with
  | nil => exact ⟨nofun, fun h => by cases h.1⟩
  | cons t ts =>
    show (if t.type = .integer then _ else _) = none ↔ t.type = .integer ∧ Overflows t.value
    by_cases hint : t.type = .integer
    · rw [if_pos hint, Option.map_eq_none_iff, stoi_eq_none (h t List.mem_cons_self hint)]
      exact ⟨fun h => ⟨hint, h⟩, And.right⟩
    · rw [if_neg hint]
      exact ⟨nofun, fun h => absurd h.1 hint⟩

/-- A statement whose numbers are digits is not done exactly when it throws. -/
theorem Statement.apply_eq_none {ts : List Token} (hts : ∀ t ∈ ts, t.type = .integer → Numeral t.value) {s : Statement}
    (hs : s.Within ts) (dev : BSDLDevice) : s.apply dev = none ↔ s.Throws := by
  obtain name | decls | ⟨name, value⟩ := s
  · exact ⟨nofun, False.elim⟩
  · exact ⟨nofun, False.elim⟩
  have hlen := parseInstructionLength_eq_none (fun t ht => hts t (hs ht)) dev
  have hcode : parseInstructionOpcode value dev = none ↔
      ∃ e ∈ (opcodeEntries.read (readConcatenatedString value).1).1, TooLong e.2 := by
    rw [parseInstructionOpcode, Option.map_eq_none_iff, opcodes_eq (le_refl _)]
    exact foldlM_eq_none (fun d e _ => storeOpcode_eq_none d e) dev
  have hcells : parseBoundaryRegister value dev = none ↔
      ∃ e ∈ (cellEntries.read (readConcatenatedString value).1).1, Overflows e.number := by
    rw [parseBoundaryRegister, Option.map_eq_none_iff, cells_eq (le_refl _)]
    exact foldlM_eq_none (f := storeEntry)
      (fun d e he => storeEntry_eq_none d (cellEntries_numeral _ e he)) _
  show applyValue name value dev = none ↔ Statement.Throws (.attribute name value)
  unfold applyValue Statement.Throws
  by_cases h₁ : name = "INSTRUCTION_LENGTH".toList
  · simp only [if_pos h₁]
    exact Option.map_eq_none_iff.trans hlen
  simp only [if_neg h₁]
  by_cases h₂ : name = "INSTRUCTION_OPCODE".toList
  · simp only [if_pos h₂]
    exact Option.map_eq_none_iff.trans hcode
  simp only [if_neg h₂]
  by_cases h₄ : name = "BOUNDARY_REGISTER".toList
  · have h₃ : name ≠ "BOUNDARY_LENGTH".toList := fun e => absurd (h₄.symm.trans e) (by decide)
    simp only [if_neg h₃, if_pos h₄]
    exact Option.map_eq_none_iff.trans hcells
  simp only [if_neg h₄]
  -- the other handlers convert nothing that is not caught
  refine ⟨fun h => ?_, False.elim⟩
  repeat' split at h
  all_goals cases h

/-- The parser gives up exactly on the texts with a statement that throws. -/
theorem parseString_eq_none (source : Text) : parseString source = none ↔ ∃ s ∈ fileStatements source, s.Throws := by
  rw [parseString_eq, Option.map_eq_none_iff, ← tokens_eq_read]
  refine foldlM_eq_none (f := Statement.apply) (fun dev s hs => ?_) _
  exact s.apply_eq_none (tokens_numeral source) (statements_within _ s hs) dev

/-- A cell is written to an index of the register, or not at all. -/
theorem storeCell_inRange (cell : BoundaryCell) (pos : ℕ) (dev : BSDLDevice) :
    storeCell cell pos dev = dev ∨ (storeCell cell pos dev).boundaryCells[pos]? = some cell := by
  rw [storeCell]
  split
  next h =>
    refine .inr ?_
    exact List.getElem?_set_self h
  split
  · refine .inr (List.getElem?_set_self ?_)
    rw [length_resizeCells]
    exact Nat.lt_succ_self pos
  · exact .inl rfl

/-! ### What is promised of untrusted text -/

/-- The parser gets through the text: the lexer and the main loop end, a device comes back, and no cell
is written outside the register. -/
structure ParsesSafely (source : Text) : Prop where
  /-- The lexer ends, after no more tokens than there are characters. -/
  lexer_ends : ∃ n ≤ source.length + 1, lexer.Ends source n
  /-- The main loop ends. -/
  loop_ends : ∃ n ≤ (tokens source).length + 1, statements.Ends (tokens source) n
  /-- So do the loops over the strings and over the declarations of ports, whatever there is in them. -/
  inner_ends : ∀ (content : Text) (ts : List Token), (∃ n, opcodeEntries.Ends content n) ∧
    (∃ n, cellEntries.Ends content n) ∧ (∃ n, pinEntries.Ends content n) ∧ ∃ n, portDecls.Ends ts n
  /-- No exception escapes. -/
  returns : ∃ dev, parseString source = some dev
  /-- The lexer reads no character outside the text, and the loops over the strings none outside the string. -/
  characters_in_range : (∃ pos, Indexed.tokens source 0 = some (tokens source, pos)) ∧ ∀ content : Text,
    (∃ pos, Cursor.loop content (Indexed.opcodePass content) 0 = some ((opcodeEntries.read content).1, pos)) ∧
    (∃ pos, Cursor.loop content (Indexed.cellPass content) 0 = some ((cellEntries.read content).1, pos)) ∧
    ∃ pos, Cursor.loop content (Indexed.pinPass content) 0 = some ((pinEntries.read content).1, pos)
  /-- A cell is written to an index of the register, or not at all. -/
  in_range : ∀ (cell : BoundaryCell) (pos : ℕ) (dev : BSDLDevice),
    storeCell cell pos dev = dev ∨ (storeCell cell pos dev).boundaryCells[pos]? = some cell

/-- The parser is safe on a text if and only if no statement of the text says a number that does not
fit where nothing catches it. -/
theorem parseString_safe_iff (source : Text) : ParsesSafely source ↔ ∀ s ∈ fileStatements source, ¬s.Throws := by
  have hnone := parseString_eq_none source
  constructor
  · rintro h s hs hthrows
    obtain ⟨dev, hdev⟩ := h.returns
    rw [hnone.mpr ⟨s, hs, hthrows⟩] at hdev
    cases hdev
  · intro h
    have hsome : parseString source ≠ none := fun he =>
      have ⟨s, hs, hthrows⟩ := hnone.mp he
      h s hs hthrows
    have hends : ∀ {γ α : Type} (R : Reader γ α) (xs : List γ), ∃ n, R.Ends xs n := fun R xs =>
      have ⟨n, _, he⟩ := R.exists_ends xs
      ⟨n, he⟩
    exact
      { lexer_ends := lexer.exists_ends source
        loop_ends := statements.exists_ends (tokens source)
        inner_ends := fun content ts => ⟨hends _ content, hends _ content, hends _ content, hends _ ts⟩
        returns := Option.ne_none_iff_exists'.mp hsome
        characters_in_range :=
          ⟨Indexed.tokens_eq source, fun content =>
            ⟨Indexed.opcodes_eq content, Indexed.cells_eq content, Indexed.pins_eq content⟩⟩
        in_range := storeCell_inRange }

/-- An instruction length that does not fit. -/
def longLength : Text := "attribute INSTRUCTION_LENGTH of x : entity is 99999999999;".toList

theorem longLength_throws : ¬ParsesSafely longLength := fun h => by
  obtain ⟨dev, hdev⟩ := h.returns
  have hnone : (parseString longLength).isNone := by decide +kernel
  rw [hdev] at hnone
  cases hnone

end BSDLParser

end OwlTap.Bsdl
