import OwlTap.Base.Cursor
import OwlTap.Bsdl.Statements

/-!
# Where the parser looks at the text

The lexer goes through the source, and the parser through the string of an attribute, with an index
into it. Here they are once more, with that index: each `source_[pos_]` and `content[pos]` is a read
that is undefined outside the text. They are defined on every text, and read what the functions on
what is left of it do (`tokens_eq`, `opcodes_eq`, `cells_eq`, `pins_eq`).
-/

namespace OwlTap.Bsdl

namespace Indexed

open Cursor

variable (source : Text)

/-! ### The lexer -/

/-- Skip `--` to end of line. -/
def skipComment : Method ℕ Unit := do
  let _ ← collect source (· ≠ '\n')
  pure ()

/-- Skip whitespace and comments, in at most `fuel` passes. -/
def skipWhitespaceWithin : (fuel : ℕ) → Method ℕ Unit
  | 0 => fun _ => none
  | fuel + 1 => do
    if ← atEnd source then pure ()
    else
      let c ← item source 0
      if isWhitespace c then
        move
        skipWhitespaceWithin fuel
      else if c = '-' then
        if ← test source 1 (· = '-') then
          skipComment source
          skipWhitespaceWithin fuel
        else pure ()
      else pure ()

/-- Skip whitespace and comments. -/
def skipWhitespace : Method ℕ Unit := skipWhitespaceWithin source (source.length + 1)

/-- An identifier, in uppercase. -/
def readIdentifier : Method ℕ Token := do
  let value ← collect source isIdent
  pure ⟨.identifier, value.map Char.toUpper⟩

/-- The rest of a string literal, in at most `fuel` passes. -/
def readStringWithin : (fuel : ℕ) → (value : Text) → Method ℕ Token
  | 0, _ => fun _ => none
  | fuel + 1, value => do
    if ← atEnd source then pure ⟨.error, "Unterminated string literal".toList⟩
    else
      let c ← item source 0
      if c = '"' then
        move
        if ← test source 0 (· = '"') then
          move
          readStringWithin fuel (value ++ ['"'])
        else pure ⟨.stringLiteral, value⟩
      else
        let c ← advance source
        readStringWithin fuel (value ++ [c])

/-- A string literal. -/
def readStringLiteral : Method ℕ Token := do
  move
  readStringWithin source (source.length + 1) []

/-- An integer literal. -/
def readInteger : Method ℕ Token := do
  let value ← collect source Char.isDigit
  pure ⟨.integer, value⟩

/-- Punctuation; only after a colon is there a look at the next character. -/
def readPunctuation (c : Char) : Method ℕ Token := do
  move
  if c = ':' then
    if ← test source 0 (· = '=') then
      move
      pure ⟨.assign, [':', '=']⟩
    else pure ⟨.colon, [':']⟩
  else pure (Bsdl.readPunctuation c []).1

/-- Get the next token. -/
def nextToken : Method ℕ Token := do
  skipWhitespace source
  if ← atEnd source then pure ⟨.endOfFile, []⟩
  else
    let c ← item source 0
    if c.isAlpha ∨ c = '_' then readIdentifier source
    else if c = '"' then readStringLiteral source
    else if c.isDigit then readInteger source
    else readPunctuation source c

/-- One more token, up to the end. -/
def tokenPass : Method ℕ (Pass Token) := do
  let t ← nextToken source
  if t.type = .endOfFile then pure (.ends none) else pure (.entry t)

/-- The tokens of a text. -/
def tokens : Method ℕ (List Token) := loop source (tokenPass source)

/-! ### What the lexer reads -/

variable {source}

/-- A comment is skipped to the newline that ends it. -/
theorem skipWhitespace_true (cs : Text) :
    Bsdl.skipWhitespace true cs = Bsdl.skipWhitespace false (cs.dropWhile (· ≠ '\n')) := by
  induction cs with
  | nil => rfl
  | cons c cs ih =>
    rw [Bsdl.skipWhitespace]
    by_cases hc : c = '\n'
    · subst hc
      rw [List.dropWhile_cons_of_neg (by decide), Bsdl.skipWhitespace, if_pos (by decide)]
      rfl
    · have hc' : decide (c ≠ '\n') = true := decide_eq_true hc
      rw [hc', ih, List.dropWhile_cons, hc', if_pos rfl]

theorem reads_skipWhitespaceWithin {fuel : ℕ} {xs : Text} (hf : xs.length < fuel) :
    Reads source (skipWhitespaceWithin source fuel) xs () (Bsdl.skipWhitespace false xs) := by
  induction fuel generalizing xs with
  | zero => omega
  | succ fuel ih =>
    refine (reads_atEnd xs).bind ?_
    cases xs with
    | nil => exact reads_pure () []
    | cons c cs =>
      rw [List.length_cons] at hf
      refine (reads_item (x := c) rfl).bind ?_
      rw [Bsdl.skipWhitespace]
      by_cases hblank : isWhitespace c
      · rw [if_pos hblank, if_pos hblank]
        exact (reads_move c cs).bind (ih (by omega))
      rw [if_neg hblank, if_neg hblank]
      by_cases hminus : c = '-'
      · rw [if_pos hminus]
        refine (reads_test 1 (· = '-') (c :: cs)).bind ?_
        rw [List.getElem?_cons_succ, ← List.head?_eq_getElem?]
        by_cases hnext : cs.head? = some '-'
        · subst hminus
          have hlen := (List.dropWhile_suffix (l := cs) fun c => decide (c ≠ '\n')).length_le
          have hcomment : Reads source (skipComment source) ('-' :: cs) () (cs.dropWhile (· ≠ '\n')) :=
            (reads_collect (· ≠ '\n') ('-' :: cs)).bind (reads_pure () _)
          rw [if_pos (by rw [hnext]; rfl), if_pos ⟨rfl, hnext⟩, skipWhitespace_true]
          exact hcomment.bind (ih (by omega))
        · have hany : ¬cs.head?.any (· = '-') := by simpa [Option.any_eq_true] using hnext
          rw [if_neg hany, if_neg fun h => hnext h.2]
          exact reads_pure () (c :: cs)
      · rw [if_neg hminus, if_neg fun h => hminus h.1]
        exact reads_pure () (c :: cs)

theorem reads_skipWhitespace (xs : Text) :
    Reads source (skipWhitespace source) xs () (Bsdl.skipWhitespace false xs) :=
  reads_of_length reads_skipWhitespaceWithin

theorem reads_readStringWithin (value : Text) {fuel : ℕ} {xs : Text} (hf : xs.length < fuel) :
    Reads source (readStringWithin source fuel value) xs (Bsdl.readStringLiteral value xs).1
      (Bsdl.readStringLiteral value xs).2 := by
  fun_induction Bsdl.readStringLiteral value xs generalizing fuel with
  | case1 value =>
    obtain ⟨fuel, rfl⟩ := Nat.exists_eq_succ_of_ne_zero (Nat.ne_zero_of_lt hf)
    exact (reads_atEnd []).bind (reads_pure _ [])
  | case2 value cs ih =>
    obtain ⟨fuel, rfl⟩ := Nat.exists_eq_succ_of_ne_zero (Nat.ne_zero_of_lt hf)
    rw [List.length_cons, List.length_cons] at hf
    refine (reads_atEnd _).bind ((reads_item rfl).bind ((reads_move _ _).bind ((reads_test 0 _ _).bind ?_)))
    exact (reads_move _ _).bind (ih (by omega))
  | case3 value cs hcs =>
    obtain ⟨fuel, rfl⟩ := Nat.exists_eq_succ_of_ne_zero (Nat.ne_zero_of_lt hf)
    refine (reads_atEnd _).bind ((reads_item rfl).bind ((reads_move _ _).bind ((reads_test 0 _ _).bind ?_)))
    cases cs with
    | nil => exact reads_pure _ []
    | cons d cs =>
      have hd : d ≠ '"' := fun e => hcs cs (by rw [e])
      rw [List.getElem?_cons_zero, Option.any_some, decide_eq_false hd]
      exact reads_pure _ (d :: cs)
  | case4 value c cs _ hc ih =>
    obtain ⟨fuel, rfl⟩ := Nat.exists_eq_succ_of_ne_zero (Nat.ne_zero_of_lt hf)
    rw [List.length_cons] at hf
    refine (reads_atEnd _).bind ((reads_item rfl).bind ?_)
    rw [if_neg hc]
    exact (reads_advance c cs).bind (ih (by omega))

theorem reads_readPunctuation (c : Char) (cs : Text) :
    Reads source (readPunctuation source c) (c :: cs) (Bsdl.readPunctuation c cs).1 (Bsdl.readPunctuation c cs).2 := by
  refine (reads_move c cs).bind ?_
  by_cases hc : c = ':'
  · subst hc
    refine (reads_test 0 (· = '=') cs).bind ?_
    rw [← List.head?_eq_getElem?]
    cases cs with
    | nil => exact reads_pure _ []
    | cons d cs =>
      unfold Bsdl.readPunctuation
      simp only [List.head?_cons, Option.any_some, Option.some.injEq, decide_eq_true_eq, List.tail_cons]
      split
      · exact (reads_move d cs).bind (reads_pure _ cs)
      · exact reads_pure _ (d :: cs)
  · rw [if_neg hc]
    have hrest : (Bsdl.readPunctuation c cs).1 = (Bsdl.readPunctuation c []).1 ∧ (Bsdl.readPunctuation c cs).2 = cs := by
      unfold Bsdl.readPunctuation
      split
      case h_7 => exact absurd rfl hc
      all_goals exact ⟨rfl, rfl⟩
    rw [hrest.1, hrest.2]
    exact reads_pure _ cs

/-- The lexer reads a token as it does from what is left of the text. -/
theorem reads_nextToken (xs : Text) : Reads source (nextToken source) xs (Bsdl.nextToken xs).1 (Bsdl.nextToken xs).2 := by
  refine (reads_skipWhitespace xs).bind ((reads_atEnd _).bind ?_)
  unfold Bsdl.nextToken
  cases Bsdl.skipWhitespace false xs with
  | nil => exact reads_pure _ []
  | cons c cs =>
    refine (reads_item (x := c) rfl).bind ?_
    dsimp only
    split
    · exact (reads_collect isIdent (c :: cs)).bind (reads_pure _ _)
    · split
      · exact (reads_move c cs).bind (reads_of_length (reads_readStringWithin []))
      · split
        · exact (reads_collect Char.isDigit (c :: cs)).bind (reads_pure _ _)
        · exact reads_readPunctuation c cs

theorem tokens_eq (source : Text) : ∃ pos, tokens source 0 = some (Bsdl.tokens source, pos) := by
  rw [tokens_eq_read]
  refine loop_reads (R := lexer) fun xs => ?_
  have hnext : Reads source (nextToken source) xs _ _ := reads_nextToken xs
  simp only [lexer]
  split
  next h => exact ⟨_, hnext.bind (by rw [if_pos h]; exact reads_pure _ _)⟩
  next h => exact Reads.bind hnext (by rw [if_neg h]; exact reads_pure _ _)

/-! ### The strings of the attributes -/

open BSDLParser

variable (content : Text)

/-- One more entry of an opcode string. -/
def opcodePass : Method ℕ (Pass (Text × Text)) := do
  let _ ← collect content isSeparator
  if ← atEnd content then pure (.ends none)
  else
    let name ← collect content fun c => ¬(c = ' ' ∨ c = '\t' ∨ c = '(')
    if name = [] then pure (.ends none)
    else
      let _ ← collect content (· ≠ '(')
      if ← atEnd content then pure (.ends none)
      else
        move
        let inside ← collect content (· ≠ ')')
        moveOn content
        let code := inside.filter fun c => c = '0' ∨ c = '1'
        pure (if code = [] then .skip else .entry (name.map Char.toUpper, code))

/-- A field of a cell. -/
def readField : Method ℕ Text := do
  let field ← collect content fun c => ¬(c = ',' ∨ c = ')')
  moveIf content (· = ',')
  pure ((field.filter fun c => ¬(c = ' ' ∨ c = '\t' ∨ c = '\n' ∨ c = '\r')).map Char.toUpper)

/-- An optional field of a cell. -/
def readOptional : Method ℕ Text := do
  if ← test content 0 (· ≠ ')') then readField content else pure []

/-- The fields of a cell after its parenthesis, and the parenthesis that closes it. -/
def readCell : Method ℕ BoundaryCell := do
  let cellType ← readField content
  let pinName ← readField content
  let function ← readField content
  let safe ← readField content
  let disabledBy ← readOptional content
  let disableVal ← readOptional content
  let disableResult ← readOptional content
  let _ ← collect content (· ≠ ')')
  moveOn content
  pure
    { cellType
      pinName
      function := parseCellFunction function
      safeValue := if safe = ['0'] then 0 else if safe = ['1'] then 1 else -1
      disabledBy := if disabledBy ≠ [] ∧ disabledBy ≠ ['X'] then (stoi disabledBy).getD (-1) else -1
      disableValue := if disableVal = ['0'] then 0 else if disableVal = ['1'] then 1 else -1
      disableResult := parseDisableResult disableResult }

/-- One more entry of a register string. -/
def cellPass : Method ℕ (Pass CellEntry) := do
  let _ ← collect content isSeparator
  if ← atEnd content then pure (.ends none)
  else
    let number ← collect content Char.isDigit
    if number = [] then
      move
      pure .skip
    else
      let _ ← collect content (· ≠ '(')
      if ← atEnd content then pure (.ends (some ⟨number, none⟩))
      else
        move
        let cell ← readCell content
        pure (.entry ⟨number, some cell⟩)

/-- One more entry of a pin map. -/
def pinPass : Method ℕ (Pass (Text × Text)) := do
  let _ ← collect content isSeparator
  if ← atEnd content then pure (.ends none)
  else
    let name ← collect content fun c => ¬(c = ':' ∨ c = ' ' ∨ c = '\t')
    let _ ← collect content (· ≠ ':')
    if ← atEnd content then pure (.ends none)
    else
      move
      let _ ← collect content fun c => c = ' ' ∨ c = '\t'
      if ← test content 0 (· = '(') then
        let _ ← collect content (· ≠ ')')
        moveOn content
        pure .skip
      else
        let num ← collect content Char.isAlphanum
        pure (if name ≠ [] ∧ num ≠ [] then .entry (name.map Char.toUpper, num) else .skip)

/-! ### What is read of the strings -/

variable {content}

theorem reads_readField (xs : Text) :
    Reads content (readField content) xs (BSDLParser.readField xs).1 (BSDLParser.readField xs).2 := by
  refine (reads_collect _ xs).bind ((reads_moveIf _ _).bind ?_)
  have hcomma : ∀ ys : Text, (if ys.head?.any (· = ',') then ys.tail else ys) =
      if ys.head? = some ',' then ys.tail else ys := fun ys => by
    cases ys <;> simp
  rw [hcomma]
  exact reads_pure _ _

theorem reads_readOptional (xs : Text) :
    Reads content (readOptional content) xs (BSDLParser.readOptional xs).1 (BSDLParser.readOptional xs).2 := by
  refine (reads_test 0 _ xs).bind ?_
  unfold BSDLParser.readOptional
  cases xs with
  | nil => exact reads_pure [] []
  | cons c cs =>
    by_cases hc : c = ')'
    · subst hc
      exact reads_pure [] (')' :: cs)
    · have hgoes : c :: cs ≠ [] ∧ (c :: cs).head? ≠ some ')' := ⟨List.cons_ne_nil c cs, fun h => hc (Option.some.inj h)⟩
      rw [if_pos hgoes, List.getElem?_cons_zero, Option.any_some, if_pos (decide_eq_true hc)]
      exact reads_readField (c :: cs)

theorem reads_readCell (xs : Text) :
    Reads content (readCell content) xs (BSDLParser.readCell xs).1 (BSDLParser.readCell xs).2 :=
  (reads_readField _).bind <| (reads_readField _).bind <| (reads_readField _).bind <| (reads_readField _).bind <|
    (reads_readOptional _).bind <| (reads_readOptional _).bind <| (reads_readOptional _).bind <|
    (reads_collect _ _).bind <| (reads_moveOn _).bind (reads_pure _ _)

theorem follows_opcodePass (xs : Text) : Follows content (opcodePass content) xs (opcodeEntries.next xs) := by
  have hsep := reads_collect (s := content) isSeparator xs
  simp only [opcodeEntries]
  generalize xs.dropWhile isSeparator = ys at hsep ⊢
  cases ys with
  | nil => exact ⟨[], hsep.bind ((reads_atEnd []).bind (reads_pure _ []))⟩
  | cons c cs =>
    have hname := reads_collect (s := content) (fun c => ¬(c = ' ' ∨ c = '\t' ∨ c = '(')) (c :: cs)
    generalize (c :: cs).takeWhile (fun c => ¬(c = ' ' ∨ c = '\t' ∨ c = '(')) = name at hname ⊢
    generalize (c :: cs).dropWhile (fun c => ¬(c = ' ' ∨ c = '\t' ∨ c = '(')) = zs at hname ⊢
    have hopen := reads_collect (s := content) (· ≠ '(') zs
    generalize zs.dropWhile (· ≠ '(') = zs' at hopen ⊢
    by_cases hempty : name = []
    · rw [if_pos (.inl (by rw [hempty]; rfl))]
      exact ⟨zs, hsep.bind ((reads_atEnd _).bind (hname.bind (by rw [if_pos hempty]; exact reads_pure _ zs)))⟩
    cases zs' with
    | nil =>
      rw [if_pos (.inr rfl)]
      refine ⟨[], hsep.bind ((reads_atEnd _).bind (hname.bind ?_))⟩
      rw [if_neg hempty]
      exact hopen.bind ((reads_atEnd []).bind (reads_pure _ []))
    | cons d ds =>
      have hgoes : ¬(name.map Char.toUpper = [] ∨ d :: ds = []) := fun h =>
        h.elim (fun h => hempty (List.map_eq_nil_iff.mp h)) (List.cons_ne_nil d ds)
      rw [if_neg hgoes, List.tail_cons]
      generalize hcode : (ds.takeWhile (· ≠ ')')).filter (fun c => c = '0' ∨ c = '1') = code
      have hpass : Reads content (opcodePass content) xs (if code = [] then .skip else .entry (name.map Char.toUpper, code))
          (ds.dropWhile (· ≠ ')')).tail := by
        subst hcode
        refine hsep.bind ((reads_atEnd _).bind (hname.bind ?_))
        rw [if_neg hempty]
        exact hopen.bind ((reads_atEnd _).bind ((reads_move d ds).bind ((reads_collect _ ds).bind
          ((reads_moveOn _).bind (reads_pure _ _)))))
      split
      next h => rwa [if_pos h] at hpass
      next h => rwa [if_neg h] at hpass

theorem opcodes_eq (content : Text) :
    ∃ pos, loop content (opcodePass content) 0 = some ((opcodeEntries.read content).1, pos) :=
  loop_reads (R := opcodeEntries) follows_opcodePass

theorem follows_cellPass (xs : Text) : Follows content (cellPass content) xs (cellEntries.next xs) := by
  have hsep := reads_collect (s := content) isSeparator xs
  simp only [cellEntries]
  generalize xs.dropWhile isSeparator = ys at hsep ⊢
  cases ys with
  | nil => exact ⟨[], hsep.bind ((reads_atEnd []).bind (reads_pure _ []))⟩
  | cons c cs =>
    have hnumber := reads_collect (s := content) Char.isDigit (c :: cs)
    rw [if_neg (List.cons_ne_nil c cs)]
    by_cases hempty : (c :: cs).takeWhile Char.isDigit = []
    · have hstays : (c :: cs).dropWhile Char.isDigit = c :: cs := by
        have h := List.takeWhile_append_dropWhile (p := Char.isDigit) (l := c :: cs)
        rwa [hempty, List.nil_append] at h
      rw [hempty, hstays] at hnumber
      rw [if_pos hempty, List.tail_cons]
      exact hsep.bind ((reads_atEnd _).bind (hnumber.bind ((reads_move c cs).bind (reads_pure _ cs))))
    rw [if_neg hempty]
    generalize (c :: cs).takeWhile Char.isDigit = number at hnumber hempty ⊢
    generalize (c :: cs).dropWhile Char.isDigit = zs at hnumber ⊢
    have hopen := reads_collect (s := content) (· ≠ '(') zs
    generalize zs.dropWhile (· ≠ '(') = zs' at hopen ⊢
    cases zs' with
    | nil =>
      refine ⟨[], hsep.bind ((reads_atEnd _).bind (hnumber.bind ?_))⟩
      rw [if_neg hempty]
      exact hopen.bind ((reads_atEnd []).bind (reads_pure _ []))
    | cons d ds =>
      refine hsep.bind ((reads_atEnd _).bind (hnumber.bind ?_))
      rw [if_neg hempty]
      exact hopen.bind ((reads_atEnd _).bind ((reads_move d ds).bind ((reads_readCell ds).bind (reads_pure _ _))))

theorem cells_eq (content : Text) :
    ∃ pos, loop content (cellPass content) 0 = some ((cellEntries.read content).1, pos) :=
  loop_reads (R := cellEntries) follows_cellPass

theorem follows_pinPass (xs : Text) : Follows content (pinPass content) xs (pinEntries.next xs) := by
  have hsep := reads_collect (s := content) isSeparator xs
  simp only [pinEntries]
  generalize xs.dropWhile isSeparator = ys at hsep ⊢
  cases ys with
  | nil => exact ⟨[], hsep.bind ((reads_atEnd []).bind (reads_pure _ []))⟩
  | cons c cs =>
    have hname := reads_collect (s := content) (fun c => ¬(c = ':' ∨ c = ' ' ∨ c = '\t')) (c :: cs)
    generalize (c :: cs).takeWhile (fun c => ¬(c = ':' ∨ c = ' ' ∨ c = '\t')) = name at hname ⊢
    generalize (c :: cs).dropWhile (fun c => ¬(c = ':' ∨ c = ' ' ∨ c = '\t')) = zs at hname ⊢
    have hcolon := reads_collect (s := content) (· ≠ ':') zs
    generalize zs.dropWhile (· ≠ ':') = zs' at hcolon ⊢
    cases zs' with
    | nil => exact ⟨[], hsep.bind ((reads_atEnd _).bind (hname.bind (hcolon.bind ((reads_atEnd []).bind (reads_pure _ [])))))⟩
    | cons d ds =>
      rw [if_neg (List.cons_ne_nil d ds), List.tail_cons]
      have hblank := reads_collect (s := content) (fun c => c = ' ' ∨ c = '\t') ds
      generalize ds.dropWhile (fun c => c = ' ' ∨ c = '\t') = us at hblank ⊢
      have hparen : us[0]?.any (· = '(') ↔ us.head? = some '(' := by cases us <;> simp
      split
      next h =>
        refine hsep.bind ((reads_atEnd _).bind (hname.bind (hcolon.bind ((reads_atEnd _).bind ((reads_move d ds).bind
          (hblank.bind ((reads_test 0 _ us).bind ?_)))))))
        rw [if_pos (hparen.mpr h)]
        exact (reads_collect _ us).bind ((reads_moveOn _).bind (reads_pure _ _))
      next h =>
        have hpass : Reads content (pinPass content) xs
            (if name ≠ [] ∧ us.takeWhile Char.isAlphanum ≠ [] then
              .entry (name.map Char.toUpper, us.takeWhile Char.isAlphanum) else .skip)
            (us.dropWhile Char.isAlphanum) := by
          refine hsep.bind ((reads_atEnd _).bind (hname.bind (hcolon.bind ((reads_atEnd _).bind ((reads_move d ds).bind
            (hblank.bind ((reads_test 0 _ us).bind ?_)))))))
          rw [if_neg fun h' => h (hparen.mp h')]
          exact (reads_collect _ us).bind (reads_pure _ _)
        have hname' : name.map Char.toUpper ≠ [] ↔ name ≠ [] := not_congr List.map_eq_nil_iff
        simp only [hname']
        split
        next hentry => rwa [if_pos hentry] at hpass
        next hentry => rwa [if_neg hentry] at hpass

theorem pins_eq (content : Text) :
    ∃ pos, loop content (pinPass content) 0 = some ((pinEntries.read content).1, pos) :=
  loop_reads (R := pinEntries) follows_pinPass

end Indexed

end OwlTap.Bsdl
