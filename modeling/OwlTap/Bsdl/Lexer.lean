import OwlTap.Bsdl.Model

/-!
# The BSDL lexer

`nextToken` is the lexer of the source; `tokens` is the sequence of tokens that calling
it again and again yields, without the END_OF_FILE that it yields from then on. Looking
at a token without consuming it does not change the sequence.

`Spells` says, without the lexer, which texts are a way to write a sequence of tokens:
letters in either case, and between the tokens whitespace and comments. On such a text
the lexer finds the tokens (`Spells.tokens_eq`).
-/

namespace OwlTap.Bsdl

/-- Token types. -/
inductive TokenType where
  | identifier | stringLiteral | integer
  | lparen | rparen | comma | semicolon | colon | ampersand | dot | assign
  | endOfFile | error
  deriving DecidableEq, Repr

/-- A single lexical token. -/
structure Token where
  /-- Its type. -/
  type : TokenType
  /-- Its text. -/
  value : Text
  deriving DecidableEq, Repr

/-- The characters that `skipWhitespace` skips outside comments. -/
def isWhitespace (c : Char) : Bool := c = ' ' ∨ c = '\t' ∨ c = '\r' ∨ c = '\n'

/-- The characters of identifiers. -/
def isIdent (c : Char) : Bool := c.isAlphanum ∨ c = '_'

/-- Skip whitespace and comments: `--` to end of line. The newline that ends a comment is whitespace. -/
def skipWhitespace : (inComment : Bool) → Text → Text
  | _, [] => []
  | true, c :: cs => skipWhitespace (c ≠ '\n') cs
  | false, c :: cs =>
    if isWhitespace c then skipWhitespace false cs
    else if c = '-' ∧ cs.head? = some '-' then skipWhitespace true cs
    else c :: cs

/-- An identifier, in uppercase. -/
def readIdentifier (cs : Text) : Token × Text :=
  (⟨.identifier, (cs.takeWhile isIdent).map Char.toUpper⟩, cs.dropWhile isIdent)

/-- A string literal after its opening quote; a quote in it is written twice. -/
def readStringLiteral (value : Text) : Text → Token × Text
  | [] => (⟨.error, "Unterminated string literal".toList⟩, [])
  | '"' :: '"' :: cs => readStringLiteral (value ++ ['"']) cs
  | '"' :: cs => (⟨.stringLiteral, value⟩, cs)
  | c :: cs => readStringLiteral (value ++ [c]) cs

/-- An integer literal. -/
def readInteger (cs : Text) : Token × Text :=
  (⟨.integer, cs.takeWhile Char.isDigit⟩, cs.dropWhile Char.isDigit)

/-- Punctuation. -/
def readPunctuation (c : Char) (cs : Text) : Token × Text :=
  match c with
  | '(' => (⟨.lparen, ['(']⟩, cs)
  | ')' => (⟨.rparen, [')']⟩, cs)
  | ',' => (⟨.comma, [',']⟩, cs)
  | ';' => (⟨.semicolon, [';']⟩, cs)
  | '&' => (⟨.ampersand, ['&']⟩, cs)
  | '.' => (⟨.dot, ['.']⟩, cs)
  | ':' => if cs.head? = some '=' then (⟨.assign, [':', '=']⟩, cs.tail) else (⟨.colon, [':']⟩, cs)
  | '*' => (⟨.identifier, ['*']⟩, cs)
  | c => (⟨.error, "Unexpected character: ".toList ++ [c]⟩, cs)

/-- Get the next token. -/
def nextToken (source : Text) : Token × Text :=
  match skipWhitespace false source with
  | [] => (⟨.endOfFile, []⟩, [])
  | c :: cs =>
    if c.isAlpha ∨ c = '_' then readIdentifier (c :: cs)
    else if c = '"' then readStringLiteral [] cs
    else if c.isDigit then readInteger (c :: cs)
    else readPunctuation c cs

/-- The tokens of a text, up to the end; each takes a character at least. -/
def tokensAux : (fuel : ℕ) → Text → List Token
  | 0, _ => []
  | fuel + 1, source =>
    if (nextToken source).1.type = .endOfFile then []
    else (nextToken source).1 :: tokensAux fuel (nextToken source).2

/-- The tokens of a text. -/
def tokens (source : Text) : List Token := tokensAux source.length source

/-! ### Ways to write a sequence of tokens -/

/-- Whitespace and comments. -/
inductive Layout : Text → Prop where
  | nil : Layout []
  | space {c : Char} {l : Text} : isWhitespace c → Layout l → Layout (c :: l)
  | comment {body l : Text} : '\n' ∉ body → Layout l → Layout ('-' :: '-' :: (body ++ '\n' :: l))

/-- A string literal's text: a quote is written twice. -/
def quoted (value : Text) : Text := value.flatMap fun c => if c = '"' then ['"', '"'] else [c]

/-- The ways to write a token. -/
inductive Lexeme : Text → Token → Prop where
  | identifier {c : Char} {w : Text} : c.isAlpha ∨ c = '_' → (∀ x ∈ w, isIdent x) →
      Lexeme (c :: w) ⟨.identifier, (c :: w).map Char.toUpper⟩
  | stringLiteral (value : Text) : Lexeme ('"' :: (quoted value ++ ['"'])) ⟨.stringLiteral, value⟩
  | integer {c : Char} {w : Text} : (∀ x ∈ c :: w, x.isDigit) → Lexeme (c :: w) ⟨.integer, c :: w⟩
  | lparen : Lexeme ['('] ⟨.lparen, ['(']⟩
  | rparen : Lexeme [')'] ⟨.rparen, [')']⟩
  | comma : Lexeme [','] ⟨.comma, [',']⟩
  | semicolon : Lexeme [';'] ⟨.semicolon, [';']⟩
  | colon : Lexeme [':'] ⟨.colon, [':']⟩
  | ampersand : Lexeme ['&'] ⟨.ampersand, ['&']⟩
  | dot : Lexeme ['.'] ⟨.dot, ['.']⟩
  | assign : Lexeme [':', '='] ⟨.assign, [':', '=']⟩
  | star : Lexeme ['*'] ⟨.identifier, ['*']⟩

/-- A character that would be read as part of a token of the given type. -/
def Continues (type : TokenType) (c : Char) : Prop :=
  match type with
  | .identifier => isIdent c
  | .integer => c.isDigit
  | .stringLiteral => c = '"'
  | .colon => c = '='
  | _ => False

instance (type : TokenType) (c : Char) : Decidable (Continues type c) := by
  unfold Continues; split <;> infer_instance

/-- The text is a way to write the tokens. -/
inductive Spells : Text → List Token → Prop where
  /-- Only layout is left. -/
  | nil {l : Text} : Layout l → Spells l []
  /-- Only layout is left, and it ends in a comment that runs to the end of the file. -/
  | comment {l body : Text} : Layout l → '\n' ∉ body → Spells (l ++ '-' :: '-' :: body) []
  /-- Layout, a token that ends where it should, and the rest. -/
  | cons {l w rest : Text} {t : Token} {ts : List Token} : Layout l → Lexeme w t →
      (∀ c ∈ rest.head?, ¬Continues t.type c) → Spells rest ts → Spells (l ++ (w ++ rest)) (t :: ts)

theorem skipWhitespace_comment {body : Text} (h : '\n' ∉ body) (rest : Text) :
    skipWhitespace true (body ++ '\n' :: rest) = skipWhitespace false rest := by
  induction body with
  | nil => rfl
  | cons c body ih =>
    have hc : c ≠ '\n' := fun e => h (e ▸ List.mem_cons_self)
    rw [List.cons_append, skipWhitespace, decide_eq_true hc]
    exact ih fun hm => h (List.mem_cons_of_mem _ hm)

theorem skipWhitespace_last {body : Text} (h : '\n' ∉ body) : skipWhitespace true body = [] := by
  induction body with
  | nil => rfl
  | cons c body ih =>
    have hc : c ≠ '\n' := fun e => h (e ▸ List.mem_cons_self)
    rw [skipWhitespace, decide_eq_true hc]
    exact ih fun hm => h (List.mem_cons_of_mem _ hm)

/-- Layout is skipped. -/
theorem skipWhitespace_layout {l : Text} (h : Layout l) (rest : Text) :
    skipWhitespace false (l ++ rest) = skipWhitespace false rest := by
  induction h with
  | nil => rfl
  | space hc _ ih => rw [List.cons_append, skipWhitespace, if_pos hc, ih]
  | comment hb _ ih =>
    rw [List.cons_append, List.cons_append, List.append_assoc, skipWhitespace, if_neg (by decide), if_pos ⟨rfl, rfl⟩,
      skipWhitespace, show decide ('-' ≠ '\n') = true from rfl, List.cons_append, skipWhitespace_comment hb, ih]

theorem takeWhile_append_of_stop {p : Char → Bool} {w rest : Text} (hw : ∀ x ∈ w, p x)
    (hr : ∀ c ∈ rest.head?, ¬p c) : (w ++ rest).takeWhile p = w ∧ (w ++ rest).dropWhile p = rest := by
  rw [List.takeWhile_append_of_pos hw, List.dropWhile_append_of_pos hw]
  cases rest with
  | nil => simp
  | cons c rest => simp [hr c rfl]

/-- A string literal is read to its closing quote. -/
theorem readStringLiteral_quoted (acc value : Text) {rest : Text} (hr : ∀ c ∈ rest.head?, ¬c = '"') :
    readStringLiteral acc (quoted value ++ '"' :: rest) = (⟨.stringLiteral, acc ++ value⟩, rest) := by
  induction value generalizing acc with
  | nil =>
    cases rest with
    | nil => simp [quoted, readStringLiteral]
    | cons c rest =>
      have hc : ¬c = '"' := hr c rfl
      simp [quoted, readStringLiteral, hc]
  | cons c value ih =>
    by_cases hc : c = '"'
    · subst hc
      have e : quoted ('"' :: value) ++ '"' :: rest = '"' :: '"' :: (quoted value ++ '"' :: rest) := by
        simp [quoted]
      rw [e, readStringLiteral, ih, List.append_assoc]; rfl
    · have e : quoted (c :: value) ++ '"' :: rest = c :: (quoted value ++ '"' :: rest) := by
        simp [quoted, hc]
      rw [e, readStringLiteral.eq_4 _ _ _ (by simp [hc]) (by simp [hc]), ih, List.append_assoc]; rfl

/-- A digit is not a letter. -/
theorem not_isAlpha_of_isDigit {c : Char} (h : c.isDigit) : ¬(c.isAlpha ∨ c = '_') := by
  rintro (ha | rfl)
  · delta Char.isAlpha Char.isUpper Char.isLower at ha
    simp only [Char.isDigit, Bool.or_eq_true, Bool.and_eq_true,
      decide_eq_true_eq, UInt32.le_iff_toNat_le, ge_iff_le] at h ha
    have h9 : '9'.val.toNat = 57 := rfl
    have hA : 'A'.val.toNat = 65 := rfl
    have ha' : 'a'.val.toNat = 97 := rfl
    omega
  · exact absurd h (by decide)

/-- A token's first character is neither whitespace nor a dash. -/
theorem skipWhitespace_of_start {c : Char} (h : (c.isAlpha ∨ c = '_') ∨ c.isDigit) (cs : Text) :
    skipWhitespace false (c :: cs) = c :: cs := by
  have hne : ∀ d, ¬((d.isAlpha ∨ d = '_') ∨ d.isDigit) → c ≠ d := fun d hd e => hd (e ▸ h)
  have hw : ¬isWhitespace c = true := by
    simp [isWhitespace, hne ' ' (by decide), hne '\t' (by decide), hne '\r' (by decide), hne '\n' (by decide)]
  rw [skipWhitespace, if_neg hw, if_neg fun hd => hne '-' (by decide) hd.1]

/-- The lexer reads a token after layout. -/
theorem nextToken_lexeme {l w rest : Text} {t : Token} (hl : Layout l) (hw : Lexeme w t)
    (hr : ∀ c ∈ rest.head?, ¬Continues t.type c) : nextToken (l ++ (w ++ rest)) = (t, rest) := by
  rw [nextToken, skipWhitespace_layout hl]
  cases hw with
  | @identifier c w hc hw =>
    have hall : ∀ x ∈ c :: w, isIdent x := by
      rintro x (_ | ⟨_, hx⟩)
      · rcases hc with hc | rfl
        · simp [isIdent, Char.isAlphanum, hc]
        · rfl
      · exact hw x hx
    obtain ⟨ht, hd⟩ := takeWhile_append_of_stop hall hr
    rw [List.cons_append] at ht hd ⊢
    rw [skipWhitespace_of_start (.inl hc)]
    simp only [if_pos hc, readIdentifier, ht, hd]
  | stringLiteral value =>
    have e : '"' :: (quoted value ++ ['"']) ++ rest = '"' :: (quoted value ++ '"' :: rest) := by simp
    rw [e]
    exact readStringLiteral_quoted [] value hr
  | @integer c w hw =>
    have hc : c.isDigit := hw c List.mem_cons_self
    obtain ⟨ht, hd⟩ := takeWhile_append_of_stop hw hr
    rw [List.cons_append] at ht hd ⊢
    rw [skipWhitespace_of_start (.inr hc)]
    have hq : c ≠ '"' := fun e => absurd (e ▸ hc) (by decide)
    simp only [if_neg (not_isAlpha_of_isDigit hc), if_neg hq, if_pos hc, readInteger, ht, hd]
  | colon =>
    show readPunctuation ':' rest = _
    have h : rest.head? ≠ some '=' := fun e => hr '=' e rfl
    rw [readPunctuation, if_neg h]
  | _ => rfl

/-- On a way to write a sequence of tokens the lexer finds them. -/
theorem Spells.tokensAux_eq {source : Text} {ts : List Token} (h : Spells source ts) {fuel : ℕ}
    (hf : source.length ≤ fuel) : tokensAux fuel source = ts := by
  induction h generalizing fuel with
  | @nil l hl =>
    have e : nextToken l = (⟨.endOfFile, []⟩, []) := by
      rw [nextToken, ← List.append_nil l, skipWhitespace_layout hl]; rfl
    cases fuel with
    | zero => rfl
    | succ fuel => rw [tokensAux, e, if_pos rfl]
  | @comment l body hl hb =>
    have e : nextToken (l ++ '-' :: '-' :: body) = (⟨.endOfFile, []⟩, []) := by
      rw [nextToken, skipWhitespace_layout hl, skipWhitespace, if_neg (by decide), if_pos ⟨rfl, rfl⟩, skipWhitespace,
        show decide ('-' ≠ '\n') = true from rfl, skipWhitespace_last hb]
    cases fuel with
    | zero => rfl
    | succ fuel => rw [tokensAux, e, if_pos rfl]
  | @cons l w rest t ts hl hw hr hs ih =>
    have hpos : 0 < w.length := by cases hw <;> simp
    have hne : t.type ≠ .endOfFile := by cases hw <;> simp
    simp only [List.length_append] at hf
    obtain ⟨fuel, rfl⟩ : ∃ k, fuel = k + 1 := ⟨fuel - 1, by omega⟩
    rw [tokensAux, nextToken_lexeme hl hw hr, if_neg hne, ih (by omega)]

theorem Spells.tokens_eq {source : Text} {ts : List Token} (h : Spells source ts) : tokens source = ts :=
  h.tokensAux_eq (le_refl _)

/-! ### One way to write them -/

/-- The token as it is usually written. -/
def Token.text (t : Token) : Text := if t.type = .stringLiteral then '"' :: (quoted t.value ++ ['"']) else t.value

/-- Is this a token that the usual way to write it yields? -/
def Token.isUsual (t : Token) : Bool :=
  match t.type with
  | .identifier =>
    t.value = ['*'] ∨ (t.value.head?.any fun c => c.isAlpha ∨ c = '_') ∧ t.value.all isIdent ∧
      t.value.map Char.toUpper = t.value
  | .stringLiteral => true
  | .integer => t.value ≠ [] ∧ t.value.all Char.isDigit
  | .lparen => t.value = ['(']
  | .rparen => t.value = [')']
  | .comma => t.value = [',']
  | .semicolon => t.value = [';']
  | .colon => t.value = [':']
  | .ampersand => t.value = ['&']
  | .dot => t.value = ['.']
  | .assign => t.value = [':', '=']
  | .endOfFile => false
  | .error => false

theorem lexeme_text {t : Token} (h : t.isUsual) : Lexeme t.text t := by
  obtain ⟨type, value⟩ := t
  cases type with
  | identifier =>
    rcases of_decide_eq_true h with rfl | ⟨hhead, hall, hupper⟩
    · exact .star
    · cases value with
      | nil => cases hhead
      | cons c w =>
        have hw : ∀ x ∈ w, isIdent x := fun x hx => List.all_eq_true.mp hall x (List.mem_cons_of_mem c hx)
        have := Lexeme.identifier (c := c) (w := w) (by simpa using hhead) hw
        rwa [hupper] at this
  | stringLiteral => exact .stringLiteral value
  | integer =>
    obtain ⟨hne, hall⟩ := of_decide_eq_true h
    cases value with
    | nil => exact absurd rfl hne
    | cons c w => exact .integer fun x hx => List.all_eq_true.mp hall x hx
  | lparen => obtain rfl := of_decide_eq_true h; exact .lparen
  | rparen => obtain rfl := of_decide_eq_true h; exact .rparen
  | comma => obtain rfl := of_decide_eq_true h; exact .comma
  | semicolon => obtain rfl := of_decide_eq_true h; exact .semicolon
  | colon => obtain rfl := of_decide_eq_true h; exact .colon
  | ampersand => obtain rfl := of_decide_eq_true h; exact .ampersand
  | dot => obtain rfl := of_decide_eq_true h; exact .dot
  | assign => obtain rfl := of_decide_eq_true h; exact .assign
  | endOfFile => cases h
  | error => cases h

/-- Tokens written with a blank before each. -/
def spaced (ts : List Token) : Text := ts.flatMap fun t => ' ' :: t.text

/-- Tokens with a blank before each are read as they are. -/
theorem spells_spaced {ts : List Token} (h : ∀ t ∈ ts, t.isUsual) : Spells (spaced ts) ts := by
  induction ts with
  | nil => exact .nil .nil
  | cons t ts ih =>
    have hstop : ∀ c ∈ (spaced ts).head?, ¬Continues t.type c := by
      intro c hc
      have : c = ' ' := by
        cases ts with
        | nil => cases hc
        | cons t' ts => exact (Option.some.inj hc).symm
      subst this
      unfold Continues
      split <;> decide
    exact .cons (l := [' ']) (.space rfl .nil) (lexeme_text (h t List.mem_cons_self)) hstop
      (ih fun t ht => h t (List.mem_cons_of_mem _ ht))

end OwlTap.Bsdl
