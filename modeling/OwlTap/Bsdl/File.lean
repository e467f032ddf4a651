import OwlTap.Bsdl.SafeParsing

/-!
# BSDL files

A BSDL file as the standard has it: the header of the entity, perhaps a generic clause, the port
clause, and the declarations, of which the attribute specifications say something to the parser. It
does these one after the other, on a device that has its name and perhaps its ports
(`parseString_file`).
-/

namespace OwlTap.Bsdl

/-! ### The grammar -/

/-- The token that ends a declaration. -/
def semicolon : Token := ⟨.semicolon, [';']⟩

/-- `attribute NAME of TARGET : CLASS is VALUE ;`. -/
structure AttributeSpec where
  /-- The attribute. -/
  name : Text
  /-- The tokens between `of` and `is`. -/
  target : List Token
  /-- The tokens after `is`. -/
  value : List Token
  /-- The first `is` is the one before the value. -/
  is_notMem : ident "IS".toList ∉ target
  /-- There is a value. -/
  value_ne : value ≠ []
  /-- The value ends at the first semicolon. -/
  semicolon_ne : ∀ t ∈ value, t.type ≠ .semicolon

namespace AttributeSpec

/-- The tokens of the specification. -/
def tokens (a : AttributeSpec) : List Token :=
  ident "ATTRIBUTE".toList :: ident a.name :: ident "OF".toList ::
    (a.target ++ ident "IS".toList :: (a.value ++ [semicolon]))

/-- What it says to the parser. -/
def statement (a : AttributeSpec) : BSDLParser.Statement := .attribute a.name (a.value ++ [semicolon])

end AttributeSpec

/-- What may stand after the port clause. -/
inductive Declaration where
  /-- A use clause, a constant, the end of the entity: no reserved word stands in it. -/
  | other (ts : List Token) (not_reserved : ∀ name ∈ reserved, ident name ∉ ts)
  /-- `attribute NAME : TYPE ;`, which declares an attribute. -/
  | declared (name : Text) (type : List Token) (semicolon_ne : ∀ t ∈ type, t.type ≠ .semicolon)
  /-- An attribute specification. -/
  | specified (a : AttributeSpec)

namespace Declaration

/-- The tokens of the declaration. -/
def tokens : Declaration → List Token
  | other ts _ => ts
  | declared name type _ => ident "ATTRIBUTE".toList :: ident name :: ⟨.colon, [':']⟩ :: (type ++ [semicolon])
  | specified a => a.tokens

/-- What it says to the parser. -/
def statements : Declaration → List BSDLParser.Statement
  | specified a => [a.statement]
  | _ => []

end Declaration

/-- `entity NAME is`, perhaps a generic clause, a port clause, and the declarations. -/
structure BsdlFile where
  /-- The entity's name. -/
  name : Text
  /-- The generic clause. -/
  generic : Option GenericClause
  /-- The port clause. -/
  ports : PortClause
  /-- The declarations, with the end of the entity. -/
  declarations : List Declaration

namespace BsdlFile

/-- The tokens of the file. -/
def tokens (f : BsdlFile) : List Token :=
  ident "ENTITY".toList :: ident f.name :: ident "IS".toList :: ((f.generic.map GenericClause.tokens).getD [] ++
    (f.ports.tokens ++ f.declarations.flatMap Declaration.tokens))

/-- What the declarations say to the parser. -/
def statements (f : BsdlFile) : List BSDLParser.Statement := f.declarations.flatMap Declaration.statements

end BsdlFile

/-! ### Strings -/

/-- The tokens of a string in pieces, joined by ampersands. -/
def joined : List Text → List Token
  | [] => []
  | [piece] => [⟨.stringLiteral, piece⟩]
  | piece :: pieces => ⟨.stringLiteral, piece⟩ :: ⟨.ampersand, ['&']⟩ :: joined pieces

theorem joined_type {pieces : List Text} {t : Token} (ht : t ∈ joined pieces) : t.type ≠ .identifier := by
  induction pieces with
  | nil => cases ht
  | cons piece pieces ih =>
    cases pieces with
    | nil =>
      obtain rfl := List.mem_singleton.mp ht
      exact nofun
    | cons piece' pieces =>
      rcases List.mem_cons.mp ht with rfl | ht
      · exact nofun
      · rcases List.mem_cons.mp ht with rfl | ht
        · exact nofun
        · exact ih ht

/-- Blanks. A string ends on the line that it begins on; between its pieces a line may end. -/
def Blank (b : Text) : Prop := ∀ c ∈ b, c = ' ' ∨ c = '\t'

/-- A list with commas between the elements and blanks around them, when `R` says how an element may be
written. -/
inductive Separated {α : Type*} (R : α → Text → Prop) : List α → Text → Prop where
  | nil {b : Text} : Blank b → Separated R [] b
  | one {b s c : Text} {a : α} : Blank b → R a s → Blank c → Separated R [a] (b ++ (s ++ c))
  | cons {b s c rest : Text} {a a' : α} {as : List α} : Blank b → R a s → Blank c →
      Separated R (a' :: as) rest → Separated R (a :: a' :: as) (b ++ (s ++ (c ++ ',' :: rest)))

/-- An identifier, or a number, as it is written in a string: in either case. -/
def Written (name s : Text) : Prop := s ≠ [] ∧ (∀ c ∈ s, isIdent c) ∧ s.map Char.toUpper = name

/-- Only a letter changes when it is put in uppercase, and it stays a letter. -/
theorem toUpper_eq_iff {c d : Char} (hd : d.val.toNat < 65) : c.toUpper = d ↔ c = d := by
  delta Char.toUpper
  split
  next h =>
    have hlow : 97 ≤ c.val.toNat := h.1
    have hhigh : c.val.toNat ≤ 122 := h.2
    have hval : (c.val + ('A'.val - 'a'.val)).toNat = c.val.toNat - 32 := by
      have hconst : ('A'.val - 'a'.val).toNat = 2 ^ 32 - 32 := rfl
      rw [UInt32.toNat_add, hconst]
      omega
    constructor
    · rintro rfl
      have : (c.val + ('A'.val - 'a'.val)).toNat < 65 := hd
      omega
    · rintro rfl
      omega
  · exact Iff.rfl

/-- What no element has a character of the list does not have either, but for blanks and commas. -/
theorem Separated.forall_mem {α : Type*} {R : α → Text → Prop} {P : Char → Prop} (hblank : P ' ') (htab : P '\t')
    (hcomma : P ',') {as : List α} {s : Text} (h : Separated R as s) (ha : ∀ a ∈ as, ∀ s, R a s → ∀ c ∈ s, P c) :
    ∀ c ∈ s, P c := by
  have hb : ∀ {b : Text}, Blank b → ∀ c ∈ b, P c := fun hb c hc => (hb c hc).elim (· ▸ hblank) (· ▸ htab)
  induction h with
  | nil h => exact hb h
  | @one b s c a h₁ hr h₂ =>
    intro x hx
    simp only [List.mem_append] at hx
    rcases hx with hx | hx | hx
    · exact hb h₁ x hx
    · exact ha a List.mem_cons_self s hr x hx
    · exact hb h₂ x hx
  | @cons b s c rest a a' as h₁ hr h₂ _ ih =>
    intro x hx
    simp only [List.mem_append, List.mem_cons] at hx
    rcases hx with hx | hx | hx | rfl | hx
    · exact hb h₁ x hx
    · exact ha a List.mem_cons_self s hr x hx
    · exact hb h₂ x hx
    · exact hcomma
    · exact ih (fun a ha' => ha a (List.mem_cons_of_mem _ ha')) x hx

/-- Texts with commas between them. -/
def commaJoin : List Text → Text
  | [] => []
  | [s] => s
  | s :: rest => s ++ ',' :: commaJoin rest

/-- A list is its elements with blanks around them, joined by commas. -/
theorem Separated.exists_join {α : Type*} {R : α → Text → Prop} {as : List α} {s : Text} (h : Separated R as s)
    (hne : as ≠ []) : ∃ fs, List.Forall₂ (fun a f => ∃ b t c, Blank b ∧ R a t ∧ Blank c ∧ f = b ++ (t ++ c)) as fs ∧
      s = commaJoin fs := by
  induction h with
  | nil => exact absurd rfl hne
  | @one b t c a h₁ hr h₂ => exact ⟨[b ++ (t ++ c)], .cons ⟨b, t, c, h₁, hr, h₂, rfl⟩ .nil, rfl⟩
  | @cons b t c rest a a' as h₁ hr h₂ _ ih =>
    obtain ⟨fs, hfs, rfl⟩ := ih (List.cons_ne_nil _ _)
    refine ⟨(b ++ (t ++ c)) :: fs, .cons ⟨b, t, c, h₁, hr, h₂, rfl⟩ hfs, ?_⟩
    cases hfs with
    | cons => simp [commaJoin]

/-- A reader that skips blanks and commas reads a list element by element. -/
theorem Separated.read_eq {α β : Type*} {R : α → Text → Prop} {reader : Reader Char β} {f : α → List β}
    (hsep : ∀ c ∈ [' ', '\t', ','], ∀ cs, reader.read (c :: cs) = reader.read cs) {as : List α} {s : Text}
    (h : Separated R as s) (ha : ∀ a ∈ as, ∀ s, R a s → ∀ rest,
      reader.read (s ++ rest) = (f a ++ (reader.read rest).1, (reader.read rest).2)) :
    reader.read s = (as.flatMap f, []) := by
  have hb : ∀ {b : Text}, Blank b → ∀ rest, reader.read (b ++ rest) = reader.read rest := by
    intro b hb rest
    induction b with
    | nil => rfl
    | cons c b ih =>
      have hc : c ∈ [' ', '\t', ','] := (hb c List.mem_cons_self).elim (· ▸ by simp) (· ▸ by simp)
      rw [List.cons_append, hsep c hc]
      exact ih fun c hc => hb c (List.mem_cons_of_mem _ hc)
  induction h with
  | @nil b h =>
    rw [← List.append_nil b, hb h, Reader.read_nil]
    rfl
  | @one b s c a h₁ hr h₂ =>
    have hend : reader.read c = ([], []) := by rw [← List.append_nil c, hb h₂, Reader.read_nil]
    rw [hb h₁, ha a List.mem_cons_self s hr, hend, List.flatMap_singleton, List.append_nil]
  | @cons b s c rest a a' as h₁ hr h₂ _ ih =>
    rw [hb h₁, ha a List.mem_cons_self s hr, hb h₂, hsep ',' (by simp),
      ih fun a ha' => ha a (List.mem_cons_of_mem _ ha')]
    rfl

/-- A text is cut at the first character that stops it. -/
theorem cut_at {x : Char} {w : Text} (h : ∀ c ∈ w, c ≠ x) (rest : Text) :
    (w ++ x :: rest).takeWhile (· ≠ x) = w ∧ (w ++ x :: rest).dropWhile (· ≠ x) = x :: rest :=
  takeWhile_append_of_stop (fun c hc => decide_eq_true (h c hc)) fun c hc => by
    obtain rfl := Option.some.inj hc
    simp

namespace BSDLParser

/-- A string is read with its pieces joined. -/
theorem readConcatenatedString_joined {pieces : List Text} (h : pieces ≠ []) (rest : List Token) :
    readConcatenatedString (joined pieces ++ semicolon :: rest) = (pieces.flatten, semicolon :: rest) := by
  have hgo : ∀ (pieces : List Text) (result : Text), readConcatenatedString.go result
      (joined pieces ++ semicolon :: rest) = (result ++ pieces.flatten, semicolon :: rest) := by
    intro pieces
    induction pieces with
    | nil =>
      intro result
      have hstring : ¬semicolon.type = .stringLiteral := by decide
      have hampersand : ¬semicolon.type = .ampersand := by decide
      rw [joined, List.flatten_nil, List.append_nil, List.nil_append, readConcatenatedString.go, if_neg hstring,
        if_neg hampersand]
    | cons piece pieces ih =>
      intro result
      rw [List.flatten_cons, ← List.append_assoc, ← ih (result ++ piece)]
      cases pieces with
      | nil => rfl
      | cons piece' pieces => rfl
  have hpeek : peek (joined pieces ++ semicolon :: rest) = .stringLiteral := by
    obtain ⟨piece, pieces, rfl⟩ := List.exists_cons_of_ne_nil h
    cases pieces <;> rfl
  rw [readConcatenatedString, if_pos hpeek]
  exact hgo pieces []

/-! ### The statements of a file -/

/-- A string is read the same whatever follows the semicolon, and so that the semicolon stays. -/
theorem readConcatenatedString_append {value : List Token} (h : ∀ t ∈ value, t.type ≠ .semicolon) :
    ∃ content vs, (∀ t ∈ vs, t.type ≠ .semicolon) ∧
      ∀ rest, readConcatenatedString (value ++ semicolon :: rest) = (content, vs ++ semicolon :: rest) := by
  have hgo : ∀ value : List Token, (∀ t ∈ value, t.type ≠ .semicolon) → ∀ result, ∃ content vs,
      (∀ t ∈ vs, t.type ≠ .semicolon) ∧ ∀ rest, readConcatenatedString.go result (value ++ semicolon :: rest) =
        (content, vs ++ semicolon :: rest) := by
    intro value
    induction value with
    | nil => exact fun _ result => ⟨result, [], nofun, fun rest => rfl⟩
    | cons t ts ih =>
      intro h result
      have ih := ih fun t ht => h t (List.mem_cons_of_mem _ ht)
      by_cases hs : t.type = .stringLiteral
      · obtain ⟨content, vs, hvs, he⟩ := ih (result ++ t.value)
        exact ⟨content, vs, hvs, fun rest => by rw [List.cons_append, readConcatenatedString.go, if_pos hs, he]⟩
      · by_cases ha : t.type = .ampersand
        · obtain ⟨content, vs, hvs, he⟩ := ih result
          exact ⟨content, vs, hvs, fun rest => by
            rw [List.cons_append, readConcatenatedString.go, if_neg hs, if_pos ha, he]⟩
        · exact ⟨result, t :: ts, h, fun rest => by
            rw [List.cons_append, readConcatenatedString.go, if_neg hs, if_neg ha]⟩
  have hpeek : ∀ rest, peek (value ++ semicolon :: rest) = peek (value ++ [semicolon]) := by
    intro rest
    cases value <;> rfl
  by_cases hs : peek (value ++ [semicolon]) = .stringLiteral
  · obtain ⟨content, vs, hvs, he⟩ := hgo value h []
    exact ⟨content, vs, hvs, fun rest => by rw [readConcatenatedString, hpeek, if_pos hs, he]⟩
  · exact ⟨[], value, h, fun rest => by rw [readConcatenatedString, hpeek, if_neg hs]⟩

theorem skipToSemicolon_value {value : List Token} (h : ∀ t ∈ value, t.type ≠ .semicolon) (rest : List Token) :
    skipToSemicolon (value ++ semicolon :: rest) = rest := by
  induction value with
  | nil => rfl
  | cons t ts ih =>
    rw [List.cons_append, skipToSemicolon, if_neg (h t List.mem_cons_self)]
    exact ih fun t ht => h t (List.mem_cons_of_mem _ ht)

theorem skipToIs_target {target : List Token} (h : ident "IS".toList ∉ target) (rest : List Token) :
    skipToIs (target ++ ident "IS".toList :: rest) = some rest := by
  induction target with
  | nil => rfl
  | cons t ts ih =>
    rw [List.mem_cons, not_or] at h
    have ht : ¬(t.type = .identifier ∧ t.value = "IS".toList) := by
      rintro ⟨htype, hvalue⟩
      exact h.1 (by rw [ident, ← htype, ← hvalue])
    rw [List.cons_append, skipToIs, if_neg ht]
    exact ih h.2

/-- The parser goes on after the semicolon that ends a specification. -/
theorem afterValue_value (a : AttributeSpec) (rest : List Token) :
    afterValue a.name (a.value ++ semicolon :: rest) = rest := by
  obtain ⟨content, vs, hvs, he⟩ := readConcatenatedString_append a.semicolon_ne
  obtain ⟨v, value, hv⟩ := List.exists_cons_of_ne_nil a.value_ne
  unfold afterValue
  split
  · rw [hv]
    exact skipToSemicolon_value (fun t ht => a.semicolon_ne t (hv ▸ List.mem_cons_of_mem v ht)) rest
  · split
    · rw [he]
      exact skipToSemicolon_value hvs rest
    · exact skipToSemicolon_value a.semicolon_ne rest

/-- What a value does depends on its first token and on its string. -/
theorem applyValue_congr {ts us : List Token} (hnext : (next ts).1 = (next us).1)
    (hstring : (readConcatenatedString ts).1 = (readConcatenatedString us).1) (name : Text) (dev : BSDLDevice) :
    applyValue name ts dev = applyValue name us dev := by
  have hlen : (parseInstructionLength ts dev).map Prod.snd = (parseInstructionLength us dev).map Prod.snd := by
    simp only [parseInstructionLength, hnext]
    split
    · cases stoi _ <;> rfl
    · rfl
  simp only [applyValue, hlen, parseInstructionOpcode, parseBoundaryLength, parseBoundaryRegister, parseIdcodeRegister,
    parsePinMap, hnext, hstring, Option.map_map, Function.comp_def]

/-- What a specification does does not depend on what follows it. -/
theorem apply_specified (a : AttributeSpec) (rest : List Token) (dev : BSDLDevice) :
    Statement.apply dev (.attribute a.name (a.value ++ semicolon :: rest)) = a.statement.apply dev := by
  obtain ⟨content, vs, -, he⟩ := readConcatenatedString_append a.semicolon_ne
  refine applyValue_congr ?_ ?_ a.name dev
  · obtain ⟨v, value, hv⟩ := List.exists_cons_of_ne_nil a.value_ne
    rw [hv]; rfl
  · rw [he, he]

/-- The main loop passes over plain tokens. -/
theorem read_plain {ts : List Token} (h : ∀ t ∈ ts, Plain t) (rest : List Token) :
    statements.read (ts ++ rest) = statements.read rest := by
  induction ts with
  | nil => rfl
  | cons t ts ih =>
    obtain ⟨heof, hres⟩ := h t List.mem_cons_self
    have hne : ∀ name ∈ reserved, ¬(t.type = .identifier ∧ t.value = name) := by
      rintro name hm ⟨htype, hvalue⟩
      exact hres name hm (by rw [ident, ← htype, ← hvalue])
    have hskip : nextStatement (t :: (ts ++ rest)) = .skip (ts ++ rest) := by
      show (if t.type = .endOfFile then _ else _) = _
      rw [if_neg heof, if_neg (hne _ (by simp [reserved])), if_neg (hne _ (by simp [reserved])),
        if_neg (hne _ (by simp [reserved]))]
    rw [List.cons_append, Reader.read_of_skip hskip]
    exact ih fun t ht => h t (List.mem_cons_of_mem _ ht)

/-- Parsing a declaration is doing what it says. -/
theorem read_declaration (d : Declaration) (hne : ∀ t ∈ d.tokens, t.type ≠ .endOfFile) (rest : List Token)
    (dev : BSDLDevice) : (statements.read (d.tokens ++ rest)).1.foldlM Statement.apply dev =
      (d.statements ++ (statements.read rest).1).foldlM Statement.apply dev := by
  cases d with
  | other ts hts =>
    have hplain : ∀ t ∈ ts, Plain t := fun t ht => ⟨hne t ht, fun name hn he => hts name hn (he ▸ ht)⟩
    rw [Declaration.tokens, read_plain hplain]
    rfl
  | declared name type htype =>
    have hskip : nextStatement ((Declaration.declared name type htype).tokens ++ rest) = .skip rest := by
      have hrest : (Declaration.declared name type htype).tokens ++ rest =
          ident "ATTRIBUTE".toList :: ident name :: ⟨.colon, [':']⟩ :: (type ++ semicolon :: rest) := by
        simp [Declaration.tokens]
      rw [hrest]
      exact congrArg Step.skip (skipToSemicolon_value htype rest)
    rw [Reader.read_of_skip hskip]
    rfl
  | specified a =>
    have hentry : nextStatement (a.tokens ++ rest) =
        .entry (.attribute a.name (a.value ++ semicolon :: rest)) rest := by
      have hrest : a.tokens ++ rest = ident "ATTRIBUTE".toList :: ident a.name :: ident "OF".toList ::
          (a.target ++ ident "IS".toList :: (a.value ++ semicolon :: rest)) := by
        simp [AttributeSpec.tokens]
      have hvalue : ∀ ts value, skipToIs ts = some value →
          nextStatement (ident "ATTRIBUTE".toList :: ident a.name :: ident "OF".toList :: ts) =
            .entry (.attribute a.name value) (afterValue a.name value) := by
        intro ts value h
        show nextAttribute (ident a.name :: ident "OF".toList :: ts) = _
        simp only [nextAttribute, next, h, ident, ne_eq, not_true_eq_false, and_self, if_true, if_false]
      rw [hrest, hvalue _ _ (skipToIs_target a.is_notMem _), afterValue_value]
    rw [Declaration.tokens, Reader.read_of_entry hentry, List.foldlM_cons, Declaration.statements, List.singleton_append,
      List.foldlM_cons, apply_specified]

theorem read_declarations {ds : List Declaration} (hne : ∀ t ∈ ds.flatMap Declaration.tokens, t.type ≠ .endOfFile)
    (dev : BSDLDevice) : (statements.read (ds.flatMap Declaration.tokens)).1.foldlM Statement.apply dev =
      (ds.flatMap Declaration.statements).foldlM Statement.apply dev := by
  induction ds generalizing dev with
  | nil => rw [List.flatMap_nil, Reader.read_nil]; rfl
  | cons d ds ih =>
    rw [List.flatMap_cons] at hne ⊢
    have ih := ih fun t ht => hne t (List.mem_append_right _ ht)
    rw [read_declaration d fun t ht => hne t (List.mem_append_left _ ht), List.flatMap_cons, List.foldlM_append,
      List.foldlM_append]
    exact congrArg _ (funext ih)

/-- A port clause is one statement, which declares the ports. -/
theorem nextStatement_ports (p : PortClause) (rest : List Token) :
    ∃ decls, nextStatement (p.tokens ++ rest) = .entry (.ports decls) rest ∧ ∀ dev : BSDLDevice,
      Statement.apply dev (.ports decls) = some { dev with pins := declare dev.pins p.declared } := by
  obtain ⟨us, hus⟩ : ∃ us, p.tokens.tail ++ rest = ⟨.lparen, ['(']⟩ :: us := ⟨_, rfl⟩
  have hparse : ∀ dev : BSDLDevice, parsePorts (p.tokens.tail ++ rest) dev =
      (if peek (portDecls.read us).2 = .semicolon then (next (portDecls.read us).2).2 else (portDecls.read us).2,
        (portDecls.read us).1.foldl (fun dev d => addPins d.1 d.2 dev) dev) := by
    intro dev
    have hlist : parsePorts (⟨.lparen, ['(']⟩ :: us) dev =
        (if peek (portList (us.length + 1) us dev).1 = .semicolon then (next (portList (us.length + 1) us dev).1).2
          else (portList (us.length + 1) us dev).1, (portList (us.length + 1) us dev).2) := rfl
    rw [hus, hlist, portList_eq (Nat.le_succ _)]
  refine ⟨(portDecls.read us).1, ?_, fun dev => ?_⟩
  · have hrest := congrArg Prod.fst ((hparse {}).symm.trans (parsePorts_tokens p rest {}))
    have hcons : p.tokens ++ rest = ident "PORT".toList :: ⟨.lparen, ['(']⟩ :: us := congrArg _ hus
    rw [hcons]
    exact congrArg (Step.entry _) hrest
  · exact congrArg (fun x => some x.2) ((hparse dev).symm.trans (parsePorts_tokens p rest dev))

/-- The parser does what the declarations say, on a device that has its name and perhaps its ports. -/
theorem parseString_file {source : Text} {f : BsdlFile} (hs : Spells source f.tokens) :
    ∃ pins, parseString source =
      (f.statements.foldlM Statement.apply { entityName := f.name, pins }).map BSDLDevice.crossReference := by
  have htype := Spells.type_ne hs
  have hdecls : ∀ t ∈ f.declarations.flatMap Declaration.tokens, t.type ≠ .endOfFile := fun t ht =>
    htype t (by simp [BsdlFile.tokens, List.mem_flatMap.mp ht])
  have hentity : ∀ ts, statements.read (ident "ENTITY".toList :: ident f.name :: ident "IS".toList :: ts) =
      (.entity (ident f.name) :: (statements.read (skipToSemicolon ts)).1, (statements.read (skipToSemicolon ts)).2) :=
    fun ts => Reader.read_of_entry rfl
  have hname : Statement.apply {} (.entity (ident f.name)) = some { entityName := f.name } := rfl
  rw [parseString_eq, ← tokens_eq_read, hs.tokens_eq, BsdlFile.tokens, hentity]
  dsimp only
  rw [List.foldlM_cons, hname, Option.bind_eq_bind, Option.bind_some]
  cases hg : f.generic with
  | none =>
    obtain ⟨us, hplain, hskip⟩ := skipToSemicolon_ports f.ports
      (fun t ht => htype t (by simp [BsdlFile.tokens, ht])) (f.declarations.flatMap Declaration.tokens)
    refine ⟨∅, ?_⟩
    rw [Option.map_none, Option.getD_none, List.nil_append, hskip, read_plain hplain]
    exact congrArg _ (read_declarations hdecls _)
  | some g =>
    obtain ⟨us, hplain, -, hskip⟩ := skipToSemicolon_generic g
      (fun t ht => htype t (by simp [BsdlFile.tokens, hg, ht])) (f.ports.tokens ++ f.declarations.flatMap Declaration.tokens)
    obtain ⟨decls, hports, hpins⟩ := nextStatement_ports f.ports (f.declarations.flatMap Declaration.tokens)
    refine ⟨declare ∅ f.ports.declared, ?_⟩
    rw [Option.map_some, Option.getD_some, hskip, read_plain hplain, Reader.read_of_entry hports]
    dsimp only
    rw [List.foldlM_cons, hpins, Option.bind_eq_bind, Option.bind_some]
    exact congrArg _ (read_declarations hdecls _)

/-- The statements are those of the attribute specifications. -/
theorem mem_statements {ds : List Declaration} {s : Statement} :
    s ∈ ds.flatMap Declaration.statements ↔ ∃ a, .specified a ∈ ds ∧ s = a.statement := by
  rw [List.mem_flatMap]
  constructor
  · rintro ⟨d, hd, hs⟩
    cases d with
    | other ts hts => cases hs
    | declared name type htype => cases hs
    | specified a => exact ⟨a, hd, List.mem_singleton.mp hs⟩
  · rintro ⟨a, ha, rfl⟩
    exact ⟨_, ha, List.mem_singleton_self _⟩

/-- What every specification keeps the declarations keep. -/
theorem declarations_keep {P : BSDLDevice → Prop} {ds : List Declaration}
    (h : ∀ a, .specified a ∈ ds → ∀ {dev dev'}, P dev → a.statement.apply dev = some dev' → P dev') {dev dev' : BSDLDevice}
    (hp : P dev) (he : (ds.flatMap Declaration.statements).foldlM Statement.apply dev = some dev') : P dev' := by
  refine foldlM_keeps (fun s hs dev dev' hp ha => ?_) hp he
  obtain ⟨a, hmem, rfl⟩ := mem_statements.mp hs
  exact h a hmem hp ha

/-- A specification's value stands in the file. -/
theorem value_subset {f : BsdlFile} {a : AttributeSpec} (ha : .specified a ∈ f.declarations) :
    a.value ++ [semicolon] ⊆ f.tokens := by
  intro t ht
  have hmem : t ∈ f.declarations.flatMap Declaration.tokens := by
    refine List.mem_flatMap.mpr ⟨_, ha, ?_⟩
    exact List.mem_cons_of_mem _ (List.mem_cons_of_mem _ (List.mem_cons_of_mem _
      (List.mem_append_right _ (List.mem_cons_of_mem _ ht))))
  simp [BsdlFile.tokens, List.mem_flatMap.mp hmem]

/-- A declaration fails, whatever the device is, if and only if it throws. -/
theorem apply_statements_eq_none {source : Text} {f : BsdlFile} (hs : Spells source f.tokens) {s : Statement}
    (hm : s ∈ f.statements) (dev : BSDLDevice) : s.apply dev = none ↔ s.Throws := by
  have hnum := tokens_numeral source
  rw [hs.tokens_eq] at hnum
  obtain ⟨a, ha, rfl⟩ := mem_statements.mp hm
  exact a.statement.apply_eq_none hnum (value_subset ha) dev

/-- The parser returns a device if and only if no declaration throws. -/
theorem parseString_file_eq_none {source : Text} {f : BsdlFile} (hs : Spells source f.tokens) :
    parseString source = none ↔ ∃ s ∈ f.statements, s.Throws := by
  obtain ⟨pins, he⟩ := parseString_file hs
  rw [he, Option.map_eq_none_iff]
  exact foldlM_eq_none (fun dev s hm => apply_statements_eq_none hs hm dev) _

/-! ### A file of an entity `D` -/

/-- `D : entity` ends at the `is` after it. -/
theorem is_notMem_target : ident "IS".toList ∉ [ident ['D'], ⟨.colon, [':']⟩, ident "ENTITY".toList] := by decide

/-- `end D;` has no reserved word in it. -/
theorem not_reserved_end : ∀ name ∈ reserved, ident name ∉ [ident "END".toList, ident ['D'], semicolon] := by decide

/-- Nor is the name of its port one. -/
theorem not_reserved_tdi : "TDI".toList ∉ reserved := by decide

end BSDLParser

end OwlTap.Bsdl
