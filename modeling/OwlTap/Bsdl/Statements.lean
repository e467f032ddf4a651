import OwlTap.Base.Reader
import OwlTap.Bsdl.PortClause

/-!
# What the parser reads

Each loop of the lexer and of the parser as a reader, apart from what is done with what it reads: the
tokens of a text, the names of a list, the declarations of a port list, the entries of the strings,
and the statements of a file. The loops agree with the readers, whatever their fuel is when it is
enough (`tokens_eq_read`, `parseLoop_eq` and those between); so they end on every text.
-/

namespace OwlTap.Bsdl

/-! ### The tokens of a text -/

theorem skipWhitespace_suffix (inComment : Bool) (cs : Text) : skipWhitespace inComment cs <:+ cs := by
  induction cs generalizing inComment with
  | nil => cases inComment <;> exact List.suffix_rfl
  | cons c cs ih =>
    cases inComment with
    | true => exact (ih _).trans (List.suffix_cons c cs)
    | false =>
      rw [skipWhitespace]
      split
      · exact (ih _).trans (List.suffix_cons c cs)
      · split
        · exact (ih _).trans (List.suffix_cons c cs)
        · exact List.suffix_rfl

theorem readStringLiteral_suffix (value cs : Text) : (readStringLiteral value cs).2 <:+ cs := by
  fun_induction readStringLiteral value cs with
  | case1 => exact List.suffix_rfl
  | case2 value cs ih => exact ih.trans ((List.suffix_cons _ cs).trans (List.suffix_cons _ _))
  | case3 value cs => exact List.suffix_cons _ cs
  | case4 value c cs _ _ ih => exact ih.trans (List.suffix_cons c cs)

theorem readPunctuation_suffix (c : Char) (cs : Text) : (readPunctuation c cs).2 <:+ cs := by
  unfold readPunctuation
  split
  case h_7 =>
    split
    · exact List.tail_suffix cs
    · exact List.suffix_rfl
  all_goals exact List.suffix_rfl

/-- A token takes a character at least, unless nothing is left. -/
theorem nextToken_length {cs : Text} (h : (nextToken cs).1.type ≠ .endOfFile) : (nextToken cs).2.length < cs.length := by
  have hskip := (skipWhitespace_suffix false cs).length_le
  unfold nextToken at h ⊢
  cases hcs : skipWhitespace false cs with
  | nil => rw [hcs] at h; exact absurd rfl h
  | cons c rest =>
    rw [hcs, List.length_cons] at hskip
    have hdrop : ∀ p : Char → Bool, p c = true → ((c :: rest).dropWhile p).length ≤ rest.length := by
      intro p hp
      rw [List.dropWhile_cons_of_pos hp]
      exact (List.dropWhile_suffix p).length_le
    dsimp only
    split
    next hc =>
      have hident : isIdent c = true := by
        rcases hc with hc | rfl
        · simp [isIdent, Char.isAlphanum, hc]
        · rfl
      exact lt_of_le_of_lt (hdrop isIdent hident) hskip
    · split
      · exact lt_of_le_of_lt (readStringLiteral_suffix [] rest).length_le hskip
      · split
        next hc => exact lt_of_le_of_lt (hdrop Char.isDigit hc) hskip
        · exact lt_of_le_of_lt (readPunctuation_suffix c rest).length_le hskip

/-- The lexer, as it is called again and again. -/
def lexer : Reader Char Token where
  next cs := if (nextToken cs).1.type = .endOfFile then .ends none [] else .entry (nextToken cs).1 (nextToken cs).2
  next_nil := rfl
  shortens cs := by
    split
    · trivial
    next h => exact nextToken_length h

theorem tokensAux_eq {fuel : ℕ} {source : Text} (hf : source.length ≤ fuel) :
    tokensAux fuel source = (lexer.read source).1 := by
  refine lexer.loop_eq (fun cs => (lexer.read cs).1) ?_ (fun h => ?_) (fun h _ => ?_) (fun h ih => ?_) hf
  · rw [Reader.read_nil]; rfl
  · rw [Reader.read_of_ends h]
    simp only [lexer] at h
    split at h
    next he => cases h; rw [tokensAux, if_pos he]; rfl
    · cases h
  · simp only [lexer] at h
    split at h <;> cases h
  · rw [Reader.read_of_entry h]
    simp only [lexer] at h
    split at h
    · cases h
    next he => cases h; rw [tokensAux, if_neg he, ih]

/-- The tokens of a text are what the lexer reads. -/
theorem tokens_eq_read (source : Text) : tokens source = (lexer.read source).1 := tokensAux_eq (le_refl _)

namespace BSDLParser

/-! ### The entries of the strings -/

/-- Dropping characters, and then one more, takes at least one. -/
theorem tail_dropWhile_lt {content rest : Text} (hne : content ≠ []) (h : rest <:+ content) :
    rest.tail.length < content.length := by
  have := h.length_le
  have hpos : 0 < content.length := List.length_pos_iff.mpr hne
  rw [List.length_tail]
  omega

/-- An entry `NAME (binary)` of an opcode string: the name, and the digits. -/
def opcodeEntries : Reader Char (Text × Text) where
  next content :=
    let content := content.dropWhile isSeparator
    let stops := fun c => c = ' ' ∨ c = '\t' ∨ c = '('
    let name := (content.takeWhile fun c => ¬stops c).map Char.toUpper
    let content := (content.dropWhile fun c => ¬stops c).dropWhile (· ≠ '(')
    if name = [] ∨ content = [] then .ends none []
    else
      let code := (content.tail.takeWhile (· ≠ ')')).filter fun c => c = '0' ∨ c = '1'
      let rest := (content.tail.dropWhile (· ≠ ')')).tail
      if code = [] then .skip rest else .entry (name, code) rest
  next_nil := rfl
  shortens content := by
    have hsuf : ((content.dropWhile isSeparator).dropWhile fun c => ¬(c = ' ' ∨ c = '\t' ∨ c = '(')).dropWhile (· ≠ '(') <:+
        content := (List.dropWhile_suffix _).trans ((List.dropWhile_suffix _).trans (List.dropWhile_suffix _))
    dsimp only
    generalize ((content.dropWhile isSeparator).dropWhile fun c => ¬(c = ' ' ∨ c = '\t' ∨ c = '(')).dropWhile (· ≠ '(') =
      content' at hsuf ⊢
    split
    · trivial
    next hne =>
      have hlt : ((content'.tail.dropWhile (· ≠ ')')).tail).length < content.length :=
        lt_of_lt_of_le (tail_dropWhile_lt (fun e => hne (.inr e)) ((List.dropWhile_suffix _).trans (List.tail_suffix _)))
          hsuf.length_le
      split
      · exact hlt
      · exact hlt

/-- An entry of a register string: the number, and the cell that comes with it, without its position. -/
structure CellEntry where
  /-- The digits of the number. -/
  number : Text
  /-- The cell, unless no parenthesis follows. -/
  cell : Option BoundaryCell

/-- The fields of a cell after its parenthesis, and the text after the one that closes it. -/
def readCell (content : Text) : BoundaryCell × Text :=
  let (cellType, content) := readField content
  let (pinName, content) := readField content
  let (function, content) := readField content
  let (safe, content) := readField content
  let (disabledBy, content) := readOptional content
  let (disableVal, content) := readOptional content
  let (disableResult, content) := readOptional content
  ({ cellType
     pinName
     function := parseCellFunction function
     safeValue := if safe = ['0'] then 0 else if safe = ['1'] then 1 else -1
     disabledBy := if disabledBy ≠ [] ∧ disabledBy ≠ ['X'] then (stoi disabledBy).getD (-1) else -1
     disableValue := if disableVal = ['0'] then 0 else if disableVal = ['1'] then 1 else -1
     disableResult := parseDisableResult disableResult },
    (content.dropWhile (· ≠ ')')).tail)

theorem readField_suffix (content : Text) : (readField content).2 <:+ content := by
  unfold readField
  dsimp only
  split
  · exact (List.tail_suffix _).trans (List.dropWhile_suffix _)
  · exact List.dropWhile_suffix _

theorem readOptional_suffix (content : Text) : (readOptional content).2 <:+ content := by
  unfold readOptional
  split
  · exact readField_suffix content
  · exact List.suffix_rfl

theorem readCell_suffix (content : Text) : (readCell content).2 <:+ content :=
  (List.tail_suffix _).trans <| (List.dropWhile_suffix _).trans <| (readOptional_suffix _).trans <|
    (readOptional_suffix _).trans <| (readOptional_suffix _).trans <| (readField_suffix _).trans <|
    (readField_suffix _).trans <| (readField_suffix _).trans (readField_suffix content)

/-- The entries `pos (type, pin, function, safe [, control, value, result])`. -/
def cellEntries : Reader Char CellEntry where
  next content :=
    let content := content.dropWhile isSeparator
    if content = [] then .ends none []
    else
      let number := content.takeWhile Char.isDigit
      if number = [] then .skip content.tail
      else
        let content := (content.dropWhile Char.isDigit).dropWhile (· ≠ '(')
        if content = [] then .ends (some ⟨number, none⟩) []
        else .entry ⟨number, some (readCell content.tail).1⟩ (readCell content.tail).2
  next_nil := rfl
  shortens content := by
    have hsuf : content.dropWhile isSeparator <:+ content := List.dropWhile_suffix _
    dsimp only
    generalize content.dropWhile isSeparator = content' at hsuf ⊢
    split
    · trivial
    next hne =>
      split
      · exact lt_of_lt_of_le (tail_dropWhile_lt hne List.suffix_rfl) hsuf.length_le
      · split
        · trivial
        next hopen =>
          have hlt := tail_dropWhile_lt hopen List.suffix_rfl
          have hsuf' : (content'.dropWhile Char.isDigit).dropWhile (· ≠ '(') <:+ content :=
            (List.dropWhile_suffix _).trans ((List.dropWhile_suffix _).trans hsuf)
          exact lt_of_le_of_lt (readCell_suffix _).length_le (lt_of_lt_of_le hlt hsuf'.length_le)

/-- An entry `NAME:number` of a pin map. -/
def pinEntries : Reader Char (Text × Text) where
  next content :=
    let content := content.dropWhile isSeparator
    let stops := fun c => c = ':' ∨ c = ' ' ∨ c = '\t'
    let name := (content.takeWhile fun c => ¬stops c).map Char.toUpper
    let content := (content.dropWhile fun c => ¬stops c).dropWhile (· ≠ ':')
    if content = [] then .ends none []
    else
      let content := content.tail.dropWhile fun c => c = ' ' ∨ c = '\t'
      if content.head? = some '(' then .skip (content.dropWhile (· ≠ ')')).tail
      else
        let num := content.takeWhile Char.isAlphanum
        let rest := content.dropWhile Char.isAlphanum
        if name ≠ [] ∧ num ≠ [] then .entry (name, num) rest else .skip rest
  next_nil := rfl
  shortens content := by
    have hsuf : ((content.dropWhile isSeparator).dropWhile fun c => ¬(c = ':' ∨ c = ' ' ∨ c = '\t')).dropWhile (· ≠ ':') <:+
        content := (List.dropWhile_suffix _).trans ((List.dropWhile_suffix _).trans (List.dropWhile_suffix _))
    dsimp only
    generalize ((content.dropWhile isSeparator).dropWhile fun c => ¬(c = ':' ∨ c = ' ' ∨ c = '\t')).dropWhile (· ≠ ':') =
      content' at hsuf ⊢
    split
    · trivial
    next hne =>
      have hlt : content'.tail.length < content.length :=
        lt_of_lt_of_le (tail_dropWhile_lt hne List.suffix_rfl) hsuf.length_le
      have hdrop : (content'.tail.dropWhile fun c => c = ' ' ∨ c = '\t').length ≤ content'.tail.length :=
        (List.dropWhile_suffix _).length_le
      generalize (content'.tail.dropWhile fun c => c = ' ' ∨ c = '\t') = content'' at hdrop ⊢
      have hshort : ∀ rest : Text, rest <:+ content'' → rest.length < content.length := fun rest h =>
        lt_of_le_of_lt (le_trans h.length_le hdrop) hlt
      split
      · exact hshort _ ((List.tail_suffix _).trans (List.dropWhile_suffix _))
      · split
        · exact hshort _ (List.dropWhile_suffix _)
        · exact hshort _ (List.dropWhile_suffix _)

/-! ### What is done with the entries -/

/-- Note the opcode of an entry. -/
def storeOpcode (dev : BSDLDevice) (e : Text × Text) : Option BSDLDevice :=
  (binary e.2).map fun opcode => { dev with instructions := dev.instructions.insert e.1 opcode }

theorem opcodes_eq {fuel : ℕ} {content : Text} (hf : content.length ≤ fuel) (dev : BSDLDevice) :
    opcodes fuel content dev = (opcodeEntries.read content).1.foldlM storeOpcode dev := by
  refine opcodeEntries.fold_eq (fun content dev => (opcodeEntries.read content).1.foldlM storeOpcode dev)
    (fun dev => ?_) (fun h dev => ?_) (fun h ih dev => ?_) (fun h ih dev => ?_) hf dev
  · rw [Reader.read_nil]; rfl
  · rw [Reader.read_of_ends h]
    simp only [opcodeEntries] at h
    split at h
    next hends => cases h; simp only [opcodes, if_pos hends]; rfl
    · split at h <;> cases h
  · rw [Reader.read_of_skip h, ← ih]
    simp only [opcodeEntries] at h
    split at h
    · cases h
    next hgoes =>
      split at h
      next hcode => cases h; simp only [opcodes, if_neg hgoes, if_pos hcode]
      · cases h
  · rw [Reader.read_of_entry h, List.foldlM_cons]
    simp only [opcodeEntries] at h
    split at h
    · cases h
    next hgoes =>
      split at h
      · cases h
      next hcode =>
        cases h
        simp only [opcodes, if_neg hgoes, if_neg hcode, storeOpcode]
        cases binary _ with
        | none => rfl
        | some opcode => exact ih _

/-- Store the cell of an entry. -/
def storeEntry (dev : BSDLDevice) (e : CellEntry) : Option BSDLDevice :=
  (stoi e.number).map fun cellPos =>
    match e.cell with
    | none => dev
    | some cell => storeCell { cell with position := cellPos } cellPos.toNat dev

theorem cells_eq {fuel : ℕ} {content : Text} (hf : content.length ≤ fuel) (dev : BSDLDevice) :
    cells fuel content dev = (cellEntries.read content).1.foldlM storeEntry dev := by
  refine cellEntries.fold_eq (fun content dev => (cellEntries.read content).1.foldlM storeEntry dev)
    (fun dev => ?_) (fun h dev => ?_) (fun h ih dev => ?_) (fun h ih dev => ?_) hf dev
  · rw [Reader.read_nil]; rfl
  · rw [Reader.read_of_ends h]
    simp only [cellEntries] at h
    split at h
    next hends => cases h; simp only [cells, if_pos hends]; rfl
    next hne =>
      split at h
      · cases h
      next hnum =>
        split at h
        next hopen =>
          cases h
          simp only [cells, if_neg hne, if_neg hnum, if_pos hopen, Option.toList, List.foldlM_cons, List.foldlM_nil,
            storeEntry]
          cases stoi _ <;> rfl
        · cases h
  · rw [Reader.read_of_skip h, ← ih]
    simp only [cellEntries] at h
    split at h
    · cases h
    next hne =>
      split at h
      next hnum => cases h; simp only [cells, if_neg hne, if_pos hnum]
      · split at h <;> cases h
  · rw [Reader.read_of_entry h, List.foldlM_cons]
    simp only [cellEntries] at h
    split at h
    · cases h
    next hne =>
      split at h
      · cases h
      next hnum =>
        split at h
        · cases h
        next hopen =>
          cases h
          simp only [cells, if_neg hne, if_neg hnum, if_neg hopen, storeEntry, readCell]
          cases stoi _ with
          | none => rfl
          | some cellPos => exact ih _

theorem pinMap_eq {fuel : ℕ} {content : Text} (hf : content.length ≤ fuel) (dev : BSDLDevice) :
    pinMap fuel content dev = (pinEntries.read content).1.foldl (fun dev e => mapPin e.1 e.2 dev) dev := by
  refine pinEntries.fold_eq (fun content dev => (pinEntries.read content).1.foldl (fun dev e => mapPin e.1 e.2 dev) dev)
    (fun dev => ?_) (fun h dev => ?_) (fun h ih dev => ?_) (fun h ih dev => ?_) hf dev
  · rw [Reader.read_nil]; rfl
  · rw [Reader.read_of_ends h]
    simp only [pinEntries] at h
    split at h
    next hends => cases h; simp only [pinMap, if_pos hends]; rfl
    · split at h
      · cases h
      · split at h <;> cases h
  · rw [Reader.read_of_skip h, ← ih]
    simp only [pinEntries] at h
    split at h
    · cases h
    next hne =>
      split at h
      next hlist => cases h; simp only [pinMap, if_neg hne, if_pos hlist]
      next hlist =>
        split at h
        · cases h
        next hentry => cases h; simp only [pinMap, if_neg hne, if_neg hlist, if_neg hentry]
  · rw [Reader.read_of_entry h, List.foldl_cons, ← ih]
    simp only [pinEntries] at h
    split at h
    · cases h
    next hne =>
      split at h
      · cases h
      next hlist =>
        split at h
        next hentry => cases h; simp only [pinMap, if_neg hne, if_neg hlist, if_pos hentry]
        · cases h

/-! ### The declarations of a port list -/

theorem readIndex_suffix (ts : List Token) : (readIndex ts).2 <:+ ts := by
  induction ts with
  | nil => exact List.suffix_rfl
  | cons t ts ih =>
    rw [readIndex]
    split
    · exact List.suffix_cons t ts
    · exact ih.trans (List.suffix_cons t ts)

theorem readName_suffix (name : Text) (ts : List Token) : (readName name ts).2 <:+ ts := by
  unfold readName
  split
  · exact (readIndex_suffix _).trans (next_suffix ts)
  · exact List.suffix_rfl

theorem skipType_suffix (depth : ℕ) (ts : List Token) : (skipType depth ts).2 <:+ ts := by
  induction ts generalizing depth with
  | nil => exact List.suffix_rfl
  | cons t ts ih =>
    have hcons := List.suffix_cons t ts
    rw [skipType]
    split
    · exact (ih _).trans hcons
    · split
      · exact (ih _).trans hcons
      · exact hcons
    · split
      · exact hcons
      · exact (ih _).trans hcons
    · exact (ih _).trans hcons

theorem readNames_suffix (fuel : ℕ) (ts : List Token) : (readNames fuel ts).2 <:+ ts := by
  induction fuel generalizing ts with
  | zero => exact List.suffix_rfl
  | succ fuel ih =>
    have htwo : (next (next ts).2).2 <:+ ts := (next_suffix _).trans (next_suffix ts)
    simp only [readNames]
    split
    · split
      · exact (ih _).trans ((readName_suffix _ _).trans htwo)
      · exact (ih _).trans htwo
    · exact List.suffix_rfl

/-- With a token left, what is after the next one is shorter. -/
theorem next_length {ts : List Token} (h : peek ts ≠ .endOfFile) : (next ts).2.length < ts.length := by
  cases ts with
  | nil => exact absurd rfl h
  | cons t ts => exact Nat.lt_succ_self _

/-- The rest of a comma-separated list of names. -/
def portNames : Reader Token Text where
  next ts :=
    if peek ts = .comma then
      let (tok, ts) := next (next ts).2
      if tok.type = .identifier then .entry (readName tok.value ts).1 (readName tok.value ts).2
      else .skip ts
    else .ends none ts
  next_nil := rfl
  shortens ts := by
    split
    next hcomma =>
      have hlt : (next (next ts).2).2.length < ts.length :=
        lt_of_le_of_lt (next_suffix _).length_le (next_length (by rw [hcomma]; exact nofun))
      dsimp only
      split
      · exact lt_of_le_of_lt (readName_suffix _ _).length_le hlt
      · exact hlt
    · trivial

theorem readNames_eq {fuel : ℕ} {ts : List Token} (hf : ts.length ≤ fuel) : readNames fuel ts = portNames.read ts := by
  refine portNames.loop_eq portNames.read ?_ (fun h => ?_) (fun h ih => ?_) (fun h ih => ?_) hf
  · rw [Reader.read_nil]; rfl
  · rw [Reader.read_of_ends h]
    simp only [portNames] at h
    split at h
    · split at h <;> cases h
    next hcomma => cases h; simp only [readNames, if_neg hcomma]; rfl
  · rw [Reader.read_of_skip h, ← ih]
    simp only [portNames] at h
    split at h
    next hcomma =>
      split at h
      · cases h
      next hident => cases h; simp only [readNames, if_pos hcomma, if_neg hident]
    · cases h
  · rw [Reader.read_of_entry h, ← ih]
    simp only [portNames] at h
    split at h
    next hcomma =>
      split at h
      next hident => cases h; simp only [readNames, if_pos hcomma, if_pos hident]
      · cases h
    · cases h

/-- A declaration of a port list: the mode, and the names. -/
def portDecls : Reader Token (PinDirection × List Text) where
  next ts :=
    let (tok, ts) := next ts
    if tok.type = .rparen ∨ tok.type = .endOfFile then .ends none ts
    else if tok.type = .identifier then
      let (pinName, ts) := readName tok.value ts
      let (extra, ts) := portNames.read ts
      let (tok, ts) := next ts
      if tok.type ≠ .colon then .skip ts
      else
        let (tok, ts) := next ts
        let (closing, ts) := skipType 0 ts
        if closing = .rparen then .ends (some (direction tok, pinName :: extra)) ts
        else .entry (direction tok, pinName :: extra) ts
    else .skip ts
  next_nil := rfl
  shortens ts := by
    dsimp only
    split
    · trivial
    next hgoes =>
      have hlt : (next ts).2.length < ts.length := next_length fun h => hgoes (.inr h)
      have hnames : (portNames.read (readName (next ts).1.value (next ts).2).2).2 <:+ (next ts).2 := by
        refine List.IsSuffix.trans ?_ (readName_suffix (next ts).1.value (next ts).2)
        generalize (readName (next ts).1.value (next ts).2).2 = us
        rw [← readNames_eq (le_refl us.length)]
        exact readNames_suffix us.length us
      have hshort : ∀ us : List Token, us <:+ (portNames.read (readName (next ts).1.value (next ts).2).2).2 →
          us.length < ts.length := fun us h => lt_of_le_of_lt (h.trans hnames).length_le hlt
      split
      · split
        · exact hshort _ (next_suffix _)
        · split
          · trivial
          · exact hshort _ ((skipType_suffix 0 _).trans ((next_suffix _).trans (next_suffix _)))
      · exact hlt

theorem portList_eq {fuel : ℕ} {ts : List Token} (hf : ts.length ≤ fuel) (dev : BSDLDevice) :
    portList fuel ts dev =
      ((portDecls.read ts).2, (portDecls.read ts).1.foldl (fun dev d => addPins d.1 d.2 dev) dev) := by
  refine portDecls.fold_eq
    (fun ts dev => ((portDecls.read ts).2, (portDecls.read ts).1.foldl (fun dev d => addPins d.1 d.2 dev) dev))
    (fun dev => ?_) (fun h dev => ?_) (fun h ih dev => ?_) (fun h ih dev => ?_) hf dev
  · rw [Reader.read_nil]; rfl
  · rw [Reader.read_of_ends h]
    simp only [portDecls] at h
    split at h
    next hends => cases h; simp only [portList, if_pos hends]; rfl
    next hgoes =>
      split at h
      next hident =>
        split at h
        · cases h
        next hcolon =>
          split at h
          next hclose =>
            cases h
            simp only [portList, if_neg hgoes, if_pos hident, readNames_eq (le_refl _), if_neg hcolon, if_pos hclose]
            rfl
          · cases h
      · cases h
  · rw [Reader.read_of_skip h, ← ih]
    simp only [portDecls] at h
    split at h
    · cases h
    next hgoes =>
      split at h
      next hident =>
        split at h
        next hcolon =>
          cases h
          simp only [portList, if_neg hgoes, if_pos hident, readNames_eq (le_refl _), if_pos hcolon]
        · split at h <;> cases h
      next hident => cases h; simp only [portList, if_neg hgoes, if_neg hident]
  · rw [Reader.read_of_entry h, List.foldl_cons, ← ih]
    simp only [portDecls] at h
    split at h
    · cases h
    next hgoes =>
      split at h
      next hident =>
        split at h
        · cases h
        next hcolon =>
          split at h
          · cases h
          next hclose =>
            cases h
            simp only [portList, if_neg hgoes, if_pos hident, readNames_eq (le_refl _), if_neg hcolon, if_neg hclose]
      · cases h

/-! ### The statements of a file -/

/-- What the parser reads of a file. -/
inductive Statement where
  /-- An entity's header, with the token for its name. -/
  | entity (name : Token)
  /-- A port clause, with its declarations. -/
  | ports (decls : List (PinDirection × List Text))
  /-- An attribute specification: the attribute, and the tokens after `is`. -/
  | attribute (name : Text) (value : List Token)

/-- What follows the value of an attribute. -/
def afterValue (name : Text) (value : List Token) : List Token :=
  if name = "INSTRUCTION_LENGTH".toList ∨ name = "BOUNDARY_LENGTH".toList then skipToSemicolon (next value).2
  else if name = "INSTRUCTION_OPCODE".toList ∨ name = "BOUNDARY_REGISTER".toList ∨ name = "IDCODE_REGISTER".toList ∨
      name = "PIN_MAP".toList ∨ name = "PIN_MAP_STRING".toList then
    skipToSemicolon (readConcatenatedString value).2
  else skipToSemicolon value

theorem afterValue_suffix (name : Text) (value : List Token) : afterValue name value <:+ value := by
  unfold afterValue
  split
  · exact skipToSemicolon_next_suffix value
  · split
    · exact skipToSemicolon_string_suffix value
    · exact skipToSemicolon_suffix value

/-- What the value of an attribute does to the device. -/
def applyValue (name : Text) (value : List Token) (dev : BSDLDevice) : Option BSDLDevice :=
  if name = "INSTRUCTION_LENGTH".toList then (parseInstructionLength value dev).map Prod.snd
  else if name = "INSTRUCTION_OPCODE".toList then (parseInstructionOpcode value dev).map Prod.snd
  else if name = "BOUNDARY_LENGTH".toList then some (parseBoundaryLength value dev).2
  else if name = "BOUNDARY_REGISTER".toList then (parseBoundaryRegister value dev).map Prod.snd
  else if name = "IDCODE_REGISTER".toList then some (parseIdcodeRegister value dev).2
  else if name = "PIN_MAP".toList ∨ name = "PIN_MAP_STRING".toList then some (parsePinMap value dev).2
  else some dev

/-- After the word `attribute`. -/
def nextAttribute (ts : List Token) : Step Token Statement :=
  let (name, ts) := next ts
  if name.type ≠ .identifier then .skip ts
  else
    let (tok, ts) := next ts
    if tok.type = .identifier ∧ tok.value = "OF".toList then
      match skipToIs ts with
      | none => .ends none []
      | some ts => .entry (.attribute name.value ts) (afterValue name.value ts)
    else .skip (skipToSemicolon ts)

/-- After the word `port`. -/
def nextPorts (ts : List Token) : Step Token Statement :=
  let (tok, ts) := next ts
  if tok.type ≠ .lparen then .skip ts
  else
    let (decls, ts) := portDecls.read ts
    .entry (.ports decls) (if peek ts = .semicolon then (next ts).2 else ts)

/-- What one pass of the main loop reads. -/
def nextStatement (ts : List Token) : Step Token Statement :=
  let (tok, ts) := next ts
  if tok.type = .endOfFile then .ends none ts
  else if tok.type = .identifier ∧ tok.value = "ENTITY".toList then
    .entry (.entity (next ts).1) (skipToSemicolon (next ts).2)
  else if tok.type = .identifier ∧ tok.value = "PORT".toList then nextPorts ts
  else if tok.type = .identifier ∧ tok.value = "ATTRIBUTE".toList then nextAttribute ts
  else .skip ts

/-- The value of an attribute is a part of the list. -/
def Statement.Within (ts : List Token) : Statement → Prop
  | .attribute _ value => value ⊆ ts
  | _ => True

/-- What a step reads and what it goes on with are parts of the list. -/
def StepWithin (ts : List Token) : Step Token Statement → Prop
  | .ends last _ => last = none
  | .skip rest => rest <:+ ts
  | .entry s rest => s.Within ts ∧ rest <:+ ts

theorem nextAttribute_within (ts : List Token) : StepWithin ts (nextAttribute ts) := by
  have htwo : (next (next ts).2).2 <:+ ts := (next_suffix _).trans (next_suffix ts)
  unfold nextAttribute
  dsimp only
  split
  · exact next_suffix ts
  · split
    · split
      · rfl
      next us his =>
        have hus := (skipToIs_suffix his).trans htwo
        exact ⟨hus.subset, (afterValue_suffix _ us).trans hus⟩
    · exact (skipToSemicolon_suffix _).trans htwo

theorem portDecls_suffix (ts : List Token) : (portDecls.read ts).2 <:+ ts := by
  have hloop : ∀ fuel (ts : List Token) (dev : BSDLDevice), (portList fuel ts dev).1 <:+ ts := by
    intro fuel
    induction fuel with
    | zero => exact fun _ _ => List.suffix_rfl
    | succ fuel ih =>
      intro ts dev
      have hone := next_suffix ts
      have hnames := (readNames_suffix (readName (next ts).1.value (next ts).2).2.length _).trans
        ((readName_suffix (next ts).1.value (next ts).2).trans hone)
      simp only [portList]
      split
      · exact hone
      split
      · split
        · exact (ih _ _).trans ((next_suffix _).trans hnames)
        · have htype := (skipType_suffix 0 _).trans ((next_suffix _).trans ((next_suffix _).trans hnames))
          split
          · exact htype
          · exact (ih _ _).trans htype
      · exact (ih _ _).trans hone
  have := hloop ts.length ts {}
  rwa [portList_eq (le_refl _)] at this

theorem nextPorts_within (ts : List Token) : StepWithin ts (nextPorts ts) := by
  unfold nextPorts
  dsimp only
  split
  · exact next_suffix ts
  · have hread := (portDecls_suffix (next ts).2).trans (next_suffix ts)
    refine ⟨trivial, ?_⟩
    split
    · exact (next_suffix _).trans hread
    · exact hread

theorem nextStatement_within {ts : List Token} (hgoes : (next ts).1.type ≠ .endOfFile) :
    StepWithin (next ts).2 (nextStatement ts) := by
  unfold nextStatement
  dsimp only
  rw [if_neg hgoes]
  split
  · exact ⟨trivial, skipToSemicolon_next_suffix _⟩
  split
  · exact nextPorts_within _
  split
  · exact nextAttribute_within _
  · exact List.suffix_rfl

theorem nextStatement_of_end {ts : List Token} (hend : (next ts).1.type = .endOfFile) :
    nextStatement ts = .ends none (next ts).2 := by
  unfold nextStatement
  dsimp only
  rw [if_pos hend]

/-- The statements of a file. -/
def statements : Reader Token Statement where
  next := nextStatement
  next_nil := rfl
  shortens ts := by
    by_cases hend : (next ts).1.type = .endOfFile
    · rw [nextStatement_of_end hend]
      trivial
    · have hlt : (next ts).2.length < ts.length := next_length hend
      have hwithin := nextStatement_within hend
      generalize nextStatement ts = s at hwithin ⊢
      cases s with
      | ends => trivial
      | skip rest => exact lt_of_le_of_lt (List.IsSuffix.length_le hwithin) hlt
      | entry a rest => exact lt_of_le_of_lt (List.IsSuffix.length_le hwithin.2) hlt

/-- The value of each attribute is a part of the file. -/
theorem statements_within (ts : List Token) : ∀ s ∈ (statements.read ts).1, s.Within ts := by
  have hmono : ∀ {us vs : List Token} {s : Statement}, us <:+ vs → s.Within us → s.Within vs := by
    rintro us vs (_ | _ | ⟨name, value⟩) h hs
    · trivial
    · trivial
    · exact List.Subset.trans hs h.subset
  have hstep : ∀ {us : List Token}, us <:+ ts → nextStatement us = .ends none (next us).2 ∨
      StepWithin ts (nextStatement us) := by
    intro us hus
    by_cases hend : (next us).1.type = .endOfFile
    · exact .inl (nextStatement_of_end hend)
    · have hwithin := nextStatement_within hend
      have hsuf := (next_suffix us).trans hus
      refine .inr ?_
      generalize nextStatement us = s at hwithin ⊢
      cases s with
      | ends => exact hwithin
      | skip rest => exact List.IsSuffix.trans hwithin hsuf
      | entry a rest => exact ⟨hmono hsuf hwithin.1, hwithin.2.trans hsuf⟩
  refine statements.forall_read (Q := (· <:+ ts)) (fun hq h => ?_) (fun hq h => ?_) (fun hq h => ?_) List.suffix_rfl
  all_goals have hs : nextStatement _ = _ := h
  · rcases hstep hq with he | he
    · rw [hs] at he; cases he
    · rw [hs] at he; cases he
  · rcases hstep hq with he | he
    · rw [hs] at he; cases he
    · rw [hs] at he; exact he
  · rcases hstep hq with he | he
    · rw [hs] at he; cases he
    · rw [hs] at he; exact he

/-- What a statement does to the device. -/
def Statement.apply (dev : BSDLDevice) : Statement → Option BSDLDevice
  | .entity name => some (if name.type = .identifier then { dev with entityName := name.value } else dev)
  | .ports decls => some (decls.foldl (fun dev d => addPins d.1 d.2 dev) dev)
  | .attribute name value => applyValue name value dev

/-- What the value of an attribute can do to the device, by the attribute. -/
inductive Effect (dev : BSDLDevice) : Text → BSDLDevice → Prop where
  | instructionLength (n : ℕ) : Effect dev "INSTRUCTION_LENGTH".toList { dev with instructionLength := n }
  | instructions (ops : AList fun _ : Text => BitVec 32) :
      Effect dev "INSTRUCTION_OPCODE".toList { dev with instructions := ops }
  | boundaryLength (len : ℕ) (cells : List BoundaryCell) :
      Effect dev "BOUNDARY_LENGTH".toList { dev with boundaryLength := len, boundaryCells := cells }
  | boundaryRegister (len : ℕ) (cells : List BoundaryCell) :
      Effect dev "BOUNDARY_REGISTER".toList { dev with boundaryLength := len, boundaryCells := cells }
  | idcode (code : IdCode) : Effect dev "IDCODE_REGISTER".toList { dev with idcode := code }
  | pinMap {name : Text} (pins : AList fun _ : Text => PinInfo) (map : AList fun _ : Text => Text) :
      name = "PIN_MAP".toList ∨ name = "PIN_MAP_STRING".toList →
      Effect dev name { dev with pins, packagePinMap := map }
  | nothing (name : Text) : Effect dev name dev

theorem foldlM_storeOpcode {entries : List (Text × Text)} {dev dev' : BSDLDevice}
    (h : entries.foldlM storeOpcode dev = some dev') : ∃ ops, dev' = { dev with instructions := ops } := by
  induction entries generalizing dev with
  | nil => cases h; exact ⟨dev'.instructions, rfl⟩
  | cons e entries ih =>
    rw [List.foldlM_cons] at h
    obtain ⟨dev₁, h₁, h⟩ := Option.bind_eq_some_iff.mp h
    obtain ⟨op, -, rfl⟩ := Option.map_eq_some_iff.mp h₁
    obtain ⟨ops, rfl⟩ := ih h
    exact ⟨ops, rfl⟩

theorem foldlM_storeEntry {entries : List CellEntry} {dev dev' : BSDLDevice}
    (h : entries.foldlM storeEntry dev = some dev') :
    ∃ len cells, dev' = { dev with boundaryLength := len, boundaryCells := cells } := by
  induction entries generalizing dev with
  | nil => cases h; exact ⟨dev'.boundaryLength, dev'.boundaryCells, rfl⟩
  | cons e entries ih =>
    rw [List.foldlM_cons] at h
    obtain ⟨dev₁, h₁, h⟩ := Option.bind_eq_some_iff.mp h
    obtain ⟨pos, -, rfl⟩ := Option.map_eq_some_iff.mp h₁
    obtain ⟨len, cells, rfl⟩ := ih h
    cases e.cell with
    | none => exact ⟨len, cells, rfl⟩
    | some cell =>
      refine ⟨len, cells, ?_⟩
      dsimp only
      unfold storeCell
      split
      · rfl
      · split <;> rfl

theorem foldl_mapPin (entries : List (Text × Text)) (dev : BSDLDevice) : ∃ pins map,
    entries.foldl (fun dev e => mapPin e.1 e.2 dev) dev = { dev with pins, packagePinMap := map } := by
  induction entries generalizing dev with
  | nil => exact ⟨dev.pins, dev.packagePinMap, rfl⟩
  | cons e entries ih =>
    obtain ⟨pins, map, he⟩ := ih (mapPin e.1 e.2 dev)
    exact ⟨pins, map, he⟩

/-- A value has an effect of its attribute. -/
theorem applyValue_effect {name : Text} {value : List Token} {dev dev' : BSDLDevice}
    (h : applyValue name value dev = some dev') : Effect dev name dev' := by
  unfold applyValue at h
  split at h
  next hname =>
    subst hname
    obtain ⟨y, hy, rfl⟩ := Option.map_eq_some_iff.mp h
    simp only [parseInstructionLength] at hy
    split at hy
    · obtain ⟨n, -, rfl⟩ := Option.map_eq_some_iff.mp hy
      exact .instructionLength _
    · cases hy
      exact .nothing _
  split at h
  next hname =>
    subst hname
    obtain ⟨y, hy, rfl⟩ := Option.map_eq_some_iff.mp h
    obtain ⟨dev₁, h₁, rfl⟩ := Option.map_eq_some_iff.mp hy
    rw [opcodes_eq (le_refl _)] at h₁
    obtain ⟨ops, rfl⟩ := foldlM_storeOpcode h₁
    exact .instructions ops
  split at h
  next hname =>
    subst hname
    cases h
    simp only [parseBoundaryLength]
    split
    · exact .boundaryLength _ _
    · exact .nothing _
  split at h
  next hname =>
    subst hname
    obtain ⟨y, hy, rfl⟩ := Option.map_eq_some_iff.mp h
    obtain ⟨dev₁, h₁, rfl⟩ := Option.map_eq_some_iff.mp hy
    rw [cells_eq (le_refl _)] at h₁
    obtain ⟨len, cells, rfl⟩ := foldlM_storeEntry h₁
    dsimp only
    split
    · exact .boundaryRegister len cells
    · exact .boundaryRegister len cells
  split at h
  next hname =>
    subst hname
    cases h
    simp only [parseIdcodeRegister]
    split
    · exact .idcode _
    · exact .nothing _
  split at h
  next hname =>
    cases h
    simp only [parsePinMap, pinMap_eq (le_refl _)]
    obtain ⟨pins, map, he⟩ := foldl_mapPin (pinEntries.read (readConcatenatedString value).1).1 dev
    rw [he]
    exact .pinMap pins map hname
  · cases h
    exact .nothing _

/-- What every statement keeps a file keeps. -/
theorem foldlM_keeps {P : BSDLDevice → Prop} {ss : List Statement}
    (h : ∀ s ∈ ss, ∀ {dev dev'}, P dev → s.apply dev = some dev' → P dev') {dev dev' : BSDLDevice} (hp : P dev)
    (he : ss.foldlM Statement.apply dev = some dev') : P dev' := by
  induction ss generalizing dev with
  | nil => cases he; exact hp
  | cons s ss ih =>
    rw [List.foldlM_cons] at he
    obtain ⟨dev₁, h₁, he⟩ := Option.bind_eq_some_iff.mp he
    exact ih (fun s hs => h s (List.mem_cons_of_mem _ hs)) (h s List.mem_cons_self hp h₁) he

/-- What one statement brings about, and every statement keeps, holds in the end. -/
theorem foldlM_sets {P : BSDLDevice → Prop} {ss : List Statement} {s : Statement} (hs : s ∈ ss)
    (hset : ∀ {dev dev'}, s.apply dev = some dev' → P dev')
    (hkeep : ∀ t ∈ ss, ∀ {dev dev'}, P dev → t.apply dev = some dev' → P dev') {dev dev' : BSDLDevice}
    (he : ss.foldlM Statement.apply dev = some dev') : P dev' := by
  obtain ⟨l, r, rfl⟩ := List.append_of_mem hs
  rw [List.foldlM_append] at he
  obtain ⟨dev₁, -, he⟩ := Option.bind_eq_some_iff.mp he
  rw [List.foldlM_cons] at he
  obtain ⟨dev₂, h₂, he⟩ := Option.bind_eq_some_iff.mp he
  exact foldlM_keeps (fun t ht => hkeep t (List.mem_append_right _ (List.mem_cons_of_mem _ ht))) (hset h₂) he

/-- An attribute's handler does what its value says, and goes on after the value. -/
theorem parseAttribute_eq {name : Text} {ts value : List Token} (hof : peek ts = .identifier ∧ (next ts).1.value = name)
    (his : (next (next ts).2).1.type = .identifier ∧ (next (next ts).2).1.value = "OF".toList)
    (hvalue : skipToIs (next (next ts).2).2 = some value) (dev : BSDLDevice) :
    parseAttribute ts dev = (applyValue name value dev).map fun dev => (afterValue name value, dev) := by
  have hident : ¬(next ts).1.type ≠ .identifier := not_not.mpr hof.1
  have hpair : ∀ {x : Option (List Token × BSDLDevice)} {us : List Token}, (∀ y, x = some y → y.1 = us) →
      x = (x.map Prod.snd).map fun dev => (us, dev) := by
    intro x us hx
    cases x with
    | none => rfl
    | some y => rw [← hx y rfl]; rfl
  simp only [parseAttribute, if_neg hident, if_pos his, hvalue, hof.2, applyValue, afterValue]
  by_cases h₁ : name = "INSTRUCTION_LENGTH".toList
  · simp only [h₁, if_true, true_or]
    refine hpair fun y hy => ?_
    simp only [parseInstructionLength] at hy
    split at hy
    · obtain ⟨n, -, rfl⟩ := Option.map_eq_some_iff.mp hy; rfl
    · cases hy; rfl
  by_cases h₂ : name = "INSTRUCTION_OPCODE".toList
  · subst h₂
    refine hpair fun y hy => ?_
    obtain ⟨dev', -, rfl⟩ := Option.map_eq_some_iff.mp hy
    rfl
  by_cases h₃ : name = "BOUNDARY_LENGTH".toList
  · subst h₃; rfl
  by_cases h₄ : name = "BOUNDARY_REGISTER".toList
  · subst h₄
    refine hpair fun y hy => ?_
    obtain ⟨dev', -, rfl⟩ := Option.map_eq_some_iff.mp hy
    rfl
  by_cases h₅ : name = "IDCODE_REGISTER".toList
  · subst h₅; rfl
  by_cases h₆ : name = "PIN_MAP".toList ∨ name = "PIN_MAP_STRING".toList
  · obtain rfl | rfl := h₆ <;> rfl
  · obtain ⟨h₆, h₇⟩ := not_or.mp h₆
    simp only [h₁, h₂, h₃, h₄, h₅, h₆, h₇, or_self, if_false, Option.map_some]

/-- One pass of the main loop does what it reads. -/
theorem parseLoop_succ (fuel : ℕ) (ts : List Token) (dev : BSDLDevice) :
    parseLoop (fuel + 1) ts dev =
      match nextStatement ts with
      | .ends last _ => last.toList.foldlM Statement.apply dev
      | .skip rest => parseLoop fuel rest dev
      | .entry s rest => (s.apply dev).bind (parseLoop fuel rest) := by
  unfold nextStatement
  simp only [parseLoop]
  split
  · rfl
  split
  · rfl
  split
  · unfold nextPorts parsePorts
    dsimp only
    split
    · rfl
    · rw [portList_eq (Nat.le_succ _)]
      rfl
  split
  · unfold nextAttribute
    generalize (next ts).2 = us
    dsimp only
    by_cases hname : (next us).1.type ≠ .identifier
    · simp only [parseAttribute, if_pos hname, Option.bind_some]
    simp only [if_neg hname]
    by_cases hof : (next (next us).2).1.type = .identifier ∧ (next (next us).2).1.value = "OF".toList
    · simp only [if_pos hof]
      cases his : skipToIs (next (next us).2).2 with
      | none =>
        simp only [parseAttribute, if_neg hname, if_pos hof, his, Option.bind_some]
        cases fuel <;> rfl
      | some value =>
        rw [parseAttribute_eq ⟨not_not.mp hname, rfl⟩ hof his]
        show _ = (applyValue (next us).1.value value dev).bind _
        cases applyValue (next us).1.value value dev with
        | none => rfl
        | some dev' => rfl
    · simp only [parseAttribute, if_neg hname, if_neg hof, Option.bind_some]
  · rfl

theorem parseLoop_eq {fuel : ℕ} {ts : List Token} (hf : ts.length ≤ fuel) (dev : BSDLDevice) :
    parseLoop fuel ts dev = (statements.read ts).1.foldlM Statement.apply dev := by
  refine statements.fold_eq (fun ts dev => (statements.read ts).1.foldlM Statement.apply dev) (fun dev => ?_)
    (fun h dev => ?_) (fun h ih dev => ?_) (fun h ih dev => ?_) hf dev
  · rw [Reader.read_nil]; rfl
  · rw [Reader.read_of_ends h, parseLoop_succ, show nextStatement _ = _ from h]
  · rw [Reader.read_of_skip h, parseLoop_succ, show nextStatement _ = _ from h, ← ih]
  · rw [Reader.read_of_entry h, parseLoop_succ, show nextStatement _ = _ from h, List.foldlM_cons]
    exact congrArg (Option.bind _) (funext ih)

/-- Parsing is doing the statements of the file one after the other. -/
theorem parseString_eq (source : Text) :
    parseString source = ((statements.read (lexer.read source).1).1.foldlM Statement.apply {}).map BSDLDevice.crossReference := by
  rw [parseString, tokens_eq_read, parseLoop_eq (le_refl _)]

end BSDLParser

end OwlTap.Bsdl
