import OwlTap.Bsdl.Parser

/-!
# Port clauses

The port clause of an entity as BSDL has it, and what the port-list parser makes of it:
every port, with its mode (`parsePorts_tokens`). Nothing that the parser does outside
port clauses changes the ports or their modes (`parseLoop_sameModes`).
-/

namespace OwlTap.Bsdl

/-! ### The grammar -/

/-- An identifier token. -/
def ident (name : Text) : Token := ⟨.identifier, name⟩

/-- The words that begin the parts of an entity; they are reserved, and name nothing. -/
def reserved : List Text := ["ENTITY".toList, "PORT".toList, "ATTRIBUTE".toList]

/-- A port name, perhaps with a subscript. -/
structure PortName where
  /-- The identifier. -/
  name : Text
  /-- The subscript, an integer. -/
  index : Option Text
  /-- The identifier is not a reserved word. -/
  not_reserved : name ∉ reserved

namespace PortName

/-- The tokens of the subscript. -/
def indexTokens (n : PortName) : List Token :=
  match n.index with
  | none => []
  | some i => [⟨.lparen, ['(']⟩, ⟨.integer, i⟩, ⟨.rparen, [')']⟩]

/-- The tokens of the name. -/
def tokens (n : PortName) : List Token := ident n.name :: n.indexTokens

/-- The name as it is written. -/
def text (n : PortName) : Text :=
  match n.index with
  | none => n.name
  | some i => n.name ++ ['('] ++ i ++ [')']

end PortName

/-- The type of a port. -/
inductive PortType where
  /-- `bit`. -/
  | bit
  /-- `bit_vector (left to right)` or `bit_vector (left downto right)`. -/
  | bitVector (left : Text) (downto : Bool) (right : Text)

/-- The tokens of a type. -/
def PortType.tokens : PortType → List Token
  | bit => [ident "BIT".toList]
  | bitVector left downto right =>
    [ident "BIT_VECTOR".toList, ⟨.lparen, ['(']⟩, ⟨.integer, left⟩,
      ident (if downto then "DOWNTO".toList else "TO".toList), ⟨.integer, right⟩, ⟨.rparen, [')']⟩]

/-- The token of a mode. -/
def PinDirection.token : PinDirection → Token
  | .in => ident "IN".toList
  | .out => ident "OUT".toList
  | .inout => ident "INOUT".toList
  | .buffer => ident "BUFFER".toList
  | .linkage => ident "LINKAGE".toList

/-- `name, ..., name : mode type`. -/
structure PortSpec where
  /-- The first name. -/
  first : PortName
  /-- The others. -/
  others : List PortName
  /-- The mode. -/
  mode : PinDirection
  /-- The type. -/
  type : PortType

namespace PortSpec

/-- The tokens of a specification. -/
def tokens (s : PortSpec) : List Token :=
  s.first.tokens ++ ((s.others.flatMap fun n => ⟨.comma, [',']⟩ :: n.tokens) ++
    ⟨.colon, [':']⟩ :: s.mode.token :: s.type.tokens)

/-- The names that it declares. -/
def names (s : PortSpec) : List Text := s.first.text :: s.others.map PortName.text

end PortSpec

/-- `port ( spec ; ... ; spec );`. -/
structure PortClause where
  /-- The first specification. -/
  first : PortSpec
  /-- The others. -/
  others : List PortSpec

namespace PortClause

/-- The tokens between the parentheses. -/
def listTokens (p : PortClause) : List Token :=
  p.first.tokens ++ p.others.flatMap fun s => ⟨.semicolon, [';']⟩ :: s.tokens

/-- The tokens of the clause. -/
def tokens (p : PortClause) : List Token :=
  ident "PORT".toList :: ⟨.lparen, ['(']⟩ :: (p.listTokens ++ [⟨.rparen, [')']⟩, ⟨.semicolon, [';']⟩])

/-- The ports that the clause declares, with their modes. -/
def declared (p : PortClause) : List (Text × PinDirection) :=
  (p.first :: p.others).flatMap fun s => s.names.map (·, s.mode)

end PortClause

/-- `generic ( ... );`: no reserved word that begins another part stands in it. -/
structure GenericClause where
  /-- The tokens between the parentheses. -/
  body : List Token
  /-- None of them is a reserved word. -/
  not_reserved : ∀ name ∈ reserved, ident name ∉ body

/-- The tokens of the clause. -/
def GenericClause.tokens (g : GenericClause) : List Token :=
  ident "GENERIC".toList :: ⟨.lparen, ['(']⟩ :: (g.body ++ [⟨.rparen, [')']⟩, ⟨.semicolon, [';']⟩])

/-- `entity NAME is`, perhaps a generic clause, a port clause, and the rest of the file. -/
structure EntityDecl where
  /-- The entity's name. -/
  name : Text
  /-- The generic clause. -/
  generic : Option GenericClause
  /-- The port clause. -/
  ports : PortClause
  /-- The rest of the file. -/
  rest : List Token
  /-- No port is declared twice. -/
  nodup : (ports.declared.map Prod.fst).Nodup
  /-- There is no other port clause. -/
  one_clause : ident "PORT".toList ∉ rest

namespace EntityDecl

/-- The tokens of the generic clause, if there is one. -/
def genericTokens (e : EntityDecl) : List Token := (e.generic.map GenericClause.tokens).getD []

/-- The tokens of the file. -/
def tokens (e : EntityDecl) : List Token :=
  ident "ENTITY".toList :: ident e.name :: ident "IS".toList :: (e.genericTokens ++ (e.ports.tokens ++ e.rest))

end EntityDecl

/-! ### Parsing a clause -/

namespace BSDLParser

theorem readName_tokens (n : PortName) {ts : List Token} (h : peek ts ≠ .lparen) :
    readName n.name (n.indexTokens ++ ts) = (n.text, ts) := by
  obtain ⟨name, _ | i, hn⟩ := n
  · exact if_neg h
  · simp [readName, PortName.indexTokens, PortName.text, peek, next, readIndex]

theorem readNames_cons (fuel : ℕ) (v name : Text) (ts : List Token) :
    readNames (fuel + 1) (⟨.comma, v⟩ :: ident name :: ts) =
      ((readName name ts).1 :: (readNames fuel (readName name ts).2).1, (readNames fuel (readName name ts).2).2) :=
  rfl

theorem readNames_tokens (ns : List PortName) {fuel : ℕ} (hf : ns.length ≤ fuel) {ts : List Token}
    (hl : peek ts ≠ .lparen) (hc : peek ts ≠ .comma) :
    readNames fuel ((ns.flatMap fun n => ⟨.comma, [',']⟩ :: n.tokens) ++ ts) = (ns.map PortName.text, ts) := by
  induction ns generalizing fuel with
  | nil =>
    cases fuel with
    | zero => rfl
    | succ fuel => exact if_neg hc
  | cons n ns ih =>
    obtain ⟨fuel, rfl⟩ : ∃ k, fuel = k + 1 := ⟨fuel - 1, by simp at hf; omega⟩
    have hpeek : peek ((ns.flatMap fun n => ⟨.comma, [',']⟩ :: n.tokens) ++ ts) ≠ .lparen := by
      cases ns with
      | nil => exact hl
      | cons m ns => exact nofun
    rw [List.flatMap_cons, List.append_assoc, List.cons_append, PortName.tokens, List.cons_append, readNames_cons,
      readName_tokens n hpeek, ih (Nat.le_of_succ_le_succ hf), List.map_cons]

theorem direction_token (m : PinDirection) : direction m.token = m := by cases m <;> decide

/-- A type is skipped up to the token that ends it. -/
theorem skipType_tokens (t : PortType) {close : Token} (h : close.type = .semicolon ∨ close.type = .rparen)
    (ts : List Token) : skipType 0 (t.tokens ++ close :: ts) = (close.type, ts) := by
  have hclose : skipType 0 (close :: ts) = (close.type, ts) := by
    rcases h with h | h <;> simp [skipType, h]
  cases t <;> simpa [PortType.tokens, ident, skipType] using hclose

theorem length_le_flatMap_cons (ns : List PortName) :
    ns.length ≤ (ns.flatMap fun n => (⟨.comma, [',']⟩ : Token) :: n.tokens).length := by
  induction ns with
  | nil => exact le_refl _
  | cons n ns ih =>
    rw [List.flatMap_cons, List.length_append, List.length_cons, List.length_cons]
    omega

/-- A list of names, its mode and its type, up to the token that ends it. -/
theorem portList_ident {fuel : ℕ} {name pinName : Text} {extra : List Text} {m : Token} {closing : TokenType}
    {ts ts₁ ts₂ ts₃ : List Token} {v : Text} (dev : BSDLDevice) (h₁ : readName name ts = (pinName, ts₁))
    (h₂ : readNames ts₁.length ts₁ = (extra, ⟨.colon, v⟩ :: m :: ts₂)) (h₃ : skipType 0 ts₂ = (closing, ts₃)) :
    portList (fuel + 1) (ident name :: ts) dev =
      if closing = .rparen then (ts₃, addPins (direction m) (pinName :: extra) dev)
      else portList fuel ts₃ (addPins (direction m) (pinName :: extra) dev) := by
  have e : portList (fuel + 1) (ident name :: ts) dev =
      let first := readName name ts
      let others := readNames first.2.length first.2
      let colon := next others.2
      if colon.1.type ≠ .colon then portList fuel colon.2 dev
      else
        let mode := next colon.2
        let dev := addPins (direction mode.1) (first.1 :: others.1) dev
        let closing := skipType 0 mode.2
        if closing.1 = .rparen then (closing.2, dev) else portList fuel closing.2 dev := rfl
  rw [e, h₁]
  simp only [h₂, next, ne_eq, not_true_eq_false, if_false, h₃]

/-- A specification adds its ports. -/
theorem portList_spec (s : PortSpec) {close : Token} (h : close.type = .semicolon ∨ close.type = .rparen)
    (fuel : ℕ) (ts : List Token) (dev : BSDLDevice) :
    portList (fuel + 1) (s.tokens ++ close :: ts) dev =
      if close.type = .rparen then (ts, addPins s.mode s.names dev)
      else portList fuel ts (addPins s.mode s.names dev) := by
  have e : s.tokens ++ close :: ts = ident s.first.name :: (s.first.indexTokens ++
      ((s.others.flatMap fun n => ⟨.comma, [',']⟩ :: n.tokens) ++
        (⟨.colon, [':']⟩ :: s.mode.token :: (s.type.tokens ++ close :: ts)))) := by
    simp [PortSpec.tokens, PortName.tokens]
  have hpeek : peek ((s.others.flatMap fun n => ⟨.comma, [',']⟩ :: n.tokens) ++
      (⟨.colon, [':']⟩ :: s.mode.token :: (s.type.tokens ++ close :: ts))) ≠ .lparen := by
    cases s.others with
    | nil => exact nofun
    | cons m ns => exact nofun
  have hlen := le_trans (length_le_flatMap_cons s.others) (Nat.le_add_right _
    (⟨.colon, [':']⟩ :: s.mode.token :: (s.type.tokens ++ close :: ts)).length)
  rw [e, portList_ident dev (readName_tokens s.first hpeek)
    (readNames_tokens s.others (by rwa [List.length_append]) nofun nofun) (skipType_tokens s.type h ts),
    direction_token, PortSpec.names]

/-- The ports that a list of declarations adds. -/
def declare (pins : AList fun _ : Text => PinInfo) (ds : List (Text × PinDirection)) : AList fun _ : Text => PinInfo :=
  ds.foldl (fun pins d => pins.insert d.1 { name := d.1, direction := d.2 }) pins

theorem addPins_eq (s : PortSpec) (dev : BSDLDevice) :
    addPins s.mode s.names dev = { dev with pins := declare dev.pins (s.names.map (·, s.mode)) } := by
  rw [addPins, declare, List.foldl_map]

/-- The specifications after the first, and the parenthesis that ends the list. -/
theorem portList_others (specs : List PortSpec) {fuel : ℕ} (hf : specs.length < fuel) (s : PortSpec)
    (ts : List Token) (dev : BSDLDevice) :
    portList fuel (s.tokens ++ ((specs.flatMap fun s => ⟨.semicolon, [';']⟩ :: s.tokens) ++ ⟨.rparen, [')']⟩ :: ts)) dev =
      (ts, { dev with pins := declare dev.pins ((s :: specs).flatMap fun s => s.names.map (·, s.mode)) }) := by
  induction specs generalizing fuel s dev with
  | nil =>
    obtain ⟨fuel, rfl⟩ : ∃ k, fuel = k + 1 := ⟨fuel - 1, by omega⟩
    rw [List.flatMap_nil, List.nil_append, portList_spec s (.inr rfl), if_pos rfl, addPins_eq]
    simp
  | cons s' specs ih =>
    obtain ⟨fuel, rfl⟩ : ∃ k, fuel = k + 1 := ⟨fuel - 1, by omega⟩
    rw [List.flatMap_cons, List.cons_append, List.cons_append, portList_spec s (.inl rfl), if_neg nofun,
      List.append_assoc, ih (by simpa using hf), addPins_eq]
    simp [declare, List.flatMap_cons]

/-- A port clause declares its ports, and is consumed. -/
theorem parsePorts_tokens (p : PortClause) (rest : List Token) (dev : BSDLDevice) :
    parsePorts (p.tokens.tail ++ rest) dev = (rest, { dev with pins := declare dev.pins p.declared }) := by
  have e : p.tokens.tail ++ rest = ⟨.lparen, ['(']⟩ :: (p.first.tokens ++
      ((p.others.flatMap fun s => ⟨.semicolon, [';']⟩ :: s.tokens) ++
        ⟨.rparen, [')']⟩ :: ⟨.semicolon, [';']⟩ :: rest)) := by
    simp [PortClause.tokens, PortClause.listTokens]
  have hparse : ∀ ts : List Token, parsePorts (⟨.lparen, ['(']⟩ :: ts) dev =
      (if peek (portList (ts.length + 1) ts dev).1 = .semicolon then (next (portList (ts.length + 1) ts dev).1).2
        else (portList (ts.length + 1) ts dev).1, (portList (ts.length + 1) ts dev).2) := fun _ => rfl
  have hlen : p.others.length ≤ (p.others.flatMap fun s => (⟨.semicolon, [';']⟩ : Token) :: s.tokens).length := by
    induction p.others with
    | nil => exact le_refl _
    | cons s ss ih =>
      rw [List.flatMap_cons, List.length_append, List.length_cons, List.length_cons]
      omega
  rw [e, hparse, portList_others p.others (by simp only [List.length_append]; omega)]
  rfl

/-- A name that is not declared is not touched. -/
theorem lookup_declare_of_notMem {ds : List (Text × PinDirection)} {n : Text} (h : n ∉ ds.map Prod.fst)
    (pins : AList fun _ : Text => PinInfo) : (declare pins ds).lookup n = pins.lookup n := by
  induction ds generalizing pins with
  | nil => rfl
  | cons d ds ih =>
    rw [List.map_cons, List.mem_cons, not_or] at h
    exact (ih h.2 _).trans (AList.lookup_insert_ne h.1)

/-- Names that are declared once are there with their modes. -/
theorem lookup_declare {ds : List (Text × PinDirection)} (hn : (ds.map Prod.fst).Nodup)
    (pins : AList fun _ : Text => PinInfo) {d : Text × PinDirection} (hd : d ∈ ds) :
    (declare pins ds).lookup d.1 = some { name := d.1, direction := d.2 } := by
  induction ds generalizing pins with
  | nil => cases hd
  | cons d' ds ih =>
    obtain ⟨hd', hn⟩ := List.nodup_cons.mp hn
    rcases List.mem_cons.mp hd with rfl | hd
    · exact (lookup_declare_of_notMem hd' _).trans (AList.lookup_insert _)
    · exact ih hn _ hd

/-! ### The rest of the text -/

/-- Two devices have the same ports, with the same modes. -/
def SameModes (a b : AList fun _ : Text => PinInfo) : Prop :=
  ∀ n, (a.lookup n).map PinInfo.direction = (b.lookup n).map PinInfo.direction

theorem SameModes.refl (a : AList fun _ : Text => PinInfo) : SameModes a a := fun _ => rfl

theorem SameModes.trans {a b c : AList fun _ : Text => PinInfo} (h₁ : SameModes a b) (h₂ : SameModes b c) :
    SameModes a c := fun n => (h₁ n).trans (h₂ n)

/-- An entry is replaced by one with the same mode. -/
theorem SameModes.insert {pins : AList fun _ : Text => PinInfo} {name : Text} {pin pin' : PinInfo}
    (h : pins.lookup name = some pin) (hd : pin'.direction = pin.direction) :
    SameModes pins (pins.insert name pin') := by
  intro n
  by_cases hn : n = name
  · subst hn
    rw [AList.lookup_insert, h, Option.map_some, Option.map_some, hd]
  · rw [AList.lookup_insert_ne hn]

theorem sameModes_linkCell (pins : AList fun _ : Text => PinInfo) (cell : BoundaryCell) :
    SameModes pins (BSDLDevice.linkCell pins cell) := by
  rw [BSDLDevice.linkCell]
  by_cases hp : cell.hasPin = true
  · rw [if_pos hp]
    cases h : pins.lookup cell.pinName with
    | none => exact .refl _
    | some pin => exact .insert h rfl
  · rw [if_neg hp]
    exact .refl _

theorem sameModes_crossReference (dev : BSDLDevice) : SameModes dev.pins dev.crossReference.pins := by
  have hfold : ∀ (cells : List BoundaryCell) pins, SameModes pins (cells.foldl BSDLDevice.linkCell pins) := by
    intro cells
    induction cells with
    | nil => exact SameModes.refl
    | cons cell cells ih => exact fun pins => (sameModes_linkCell pins cell).trans (ih _)
  exact hfold _ _

theorem sameModes_mapPin (name num : Text) (dev : BSDLDevice) : SameModes dev.pins (mapPin name num dev).pins := by
  rw [mapPin]
  cases h : dev.pins.lookup name with
  | none => exact .refl _
  | some pin =>
    cases stoi num with
    | none => exact .refl _
    | some n => exact .insert h rfl

theorem sameModes_pinMap (fuel : ℕ) (content : Text) (dev : BSDLDevice) :
    SameModes dev.pins (pinMap fuel content dev).pins := by
  induction fuel generalizing content dev with
  | zero => exact .refl _
  | succ fuel ih =>
    simp only [pinMap]
    split
    · exact .refl _
    · split
      · exact ih _ _
      · split
        · exact (sameModes_mapPin _ _ _).trans (ih _ _)
        · exact ih _ _

theorem pins_opcodes {fuel : ℕ} {content : Text} {dev dev' : BSDLDevice} (h : opcodes fuel content dev = some dev') :
    dev'.pins = dev.pins := by
  induction fuel generalizing content dev with
  | zero => cases h; rfl
  | succ fuel ih =>
    simp only [opcodes] at h
    split at h
    · cases h; rfl
    · split at h
      · exact ih h
      · obtain ⟨op, -, h⟩ := Option.bind_eq_some_iff.mp h
        have := ih h
        exact this

theorem pins_storeCell (cell : BoundaryCell) (pos : ℕ) (dev : BSDLDevice) : (storeCell cell pos dev).pins = dev.pins := by
  rw [storeCell]
  split
  · rfl
  · split <;> rfl

theorem pins_cells {fuel : ℕ} {content : Text} {dev dev' : BSDLDevice} (h : cells fuel content dev = some dev') :
    dev'.pins = dev.pins := by
  induction fuel generalizing content dev with
  | zero => cases h; rfl
  | succ fuel ih =>
    simp only [cells] at h
    split at h
    · cases h; rfl
    · split at h
      · exact ih h
      · obtain ⟨n, -, h⟩ := Option.bind_eq_some_iff.mp h
        split at h
        · cases h; rfl
        · exact (ih h).trans (pins_storeCell _ _ _)

theorem skipToSemicolon_suffix (ts : List Token) : skipToSemicolon ts <:+ ts := by
  induction ts with
  | nil => exact List.suffix_rfl
  | cons t ts ih =>
    rw [skipToSemicolon]
    split
    · exact List.suffix_cons t ts
    · exact ih.trans (List.suffix_cons t ts)

theorem next_suffix (ts : List Token) : (next ts).2 <:+ ts := by
  cases ts with
  | nil => exact List.suffix_rfl
  | cons t ts => exact List.suffix_cons t ts

theorem skipToIs_suffix {ts ts' : List Token} (h : skipToIs ts = some ts') : ts' <:+ ts := by
  induction ts with
  | nil => cases h
  | cons t ts ih =>
    rw [skipToIs] at h
    split at h
    · cases h; exact List.suffix_cons t _
    · exact (ih h).trans (List.suffix_cons t ts)

theorem readConcatenatedString_suffix (ts : List Token) : (readConcatenatedString ts).2 <:+ ts := by
  have hgo : ∀ ts result, (readConcatenatedString.go result ts).2 <:+ ts := by
    intro ts
    induction ts with
    | nil => exact fun _ => List.suffix_rfl
    | cons t ts ih =>
      intro result
      rw [readConcatenatedString.go]
      split
      · exact (ih _).trans (List.suffix_cons t ts)
      · split
        · exact (ih _).trans (List.suffix_cons t ts)
        · exact List.suffix_rfl
  rw [readConcatenatedString]
  split
  · exact hgo ts []
  · exact List.suffix_rfl

/-- Something is read from the front that adds no port and changes no mode. -/
def Reads (x y : List Token × BSDLDevice) : Prop := y.1 <:+ x.1 ∧ SameModes x.2.pins y.2.pins

theorem skipToSemicolon_next_suffix (ts : List Token) : skipToSemicolon (next ts).2 <:+ ts :=
  (skipToSemicolon_suffix _).trans (next_suffix ts)

theorem skipToSemicolon_string_suffix (ts : List Token) : skipToSemicolon (readConcatenatedString ts).2 <:+ ts :=
  (skipToSemicolon_suffix _).trans (readConcatenatedString_suffix ts)

theorem parseInstructionLength_reads {ts : List Token} {dev : BSDLDevice} {y : List Token × BSDLDevice}
    (h : parseInstructionLength ts dev = some y) : Reads (ts, dev) y := by
  simp only [parseInstructionLength] at h
  split at h
  · obtain ⟨n, -, rfl⟩ := Option.map_eq_some_iff.mp h
    exact ⟨skipToSemicolon_next_suffix ts, .refl _⟩
  · cases h
    exact ⟨skipToSemicolon_next_suffix ts, .refl _⟩

theorem parseInstructionOpcode_reads {ts : List Token} {dev : BSDLDevice} {y : List Token × BSDLDevice}
    (h : parseInstructionOpcode ts dev = some y) : Reads (ts, dev) y := by
  obtain ⟨dev', h', rfl⟩ := Option.map_eq_some_iff.mp h
  refine ⟨skipToSemicolon_string_suffix ts, ?_⟩
  rw [pins_opcodes h']
  exact .refl _

theorem parseBoundaryLength_reads (ts : List Token) (dev : BSDLDevice) :
    Reads (ts, dev) (parseBoundaryLength ts dev) := by
  refine ⟨skipToSemicolon_next_suffix ts, ?_⟩
  simp only [parseBoundaryLength]
  split <;> exact .refl _

theorem parseBoundaryRegister_reads {ts : List Token} {dev : BSDLDevice} {y : List Token × BSDLDevice}
    (h : parseBoundaryRegister ts dev = some y) : Reads (ts, dev) y := by
  obtain ⟨dev', h', rfl⟩ := Option.map_eq_some_iff.mp h
  refine ⟨skipToSemicolon_string_suffix ts, ?_⟩
  rw [pins_cells h']
  split <;> exact .refl _

theorem parseIdcodeRegister_reads (ts : List Token) (dev : BSDLDevice) :
    Reads (ts, dev) (parseIdcodeRegister ts dev) := by
  refine ⟨skipToSemicolon_string_suffix ts, ?_⟩
  simp only [parseIdcodeRegister]
  split <;> exact .refl _

theorem parsePinMap_reads (ts : List Token) (dev : BSDLDevice) : Reads (ts, dev) (parsePinMap ts dev) :=
  ⟨skipToSemicolon_string_suffix ts, sameModes_pinMap _ _ _⟩

theorem parseAttribute_reads {ts : List Token} {dev : BSDLDevice} {y : List Token × BSDLDevice}
    (h : parseAttribute ts dev = some y) : Reads (ts, dev) y := by
  have htwo : (next (next ts).2).2 <:+ ts := (next_suffix _).trans (next_suffix ts)
  simp only [parseAttribute] at h
  split at h
  · cases h; exact ⟨next_suffix ts, .refl _⟩
  split at h
  · cases his : skipToIs (next (next ts).2).2 with
    | none =>
      rw [his] at h
      cases h
      exact ⟨List.nil_suffix, .refl _⟩
    | some us =>
      have hus : us <:+ ts := (skipToIs_suffix his).trans htwo
      have hreads : Reads (us, dev) y := by
        rw [his] at h
        simp only at h
        repeat' split at h
        · exact parseInstructionLength_reads h
        · exact parseInstructionOpcode_reads h
        · cases h; exact parseBoundaryLength_reads us dev
        · exact parseBoundaryRegister_reads h
        · cases h; exact parseIdcodeRegister_reads us dev
        · cases h; exact parsePinMap_reads us dev
        · cases h; exact ⟨skipToSemicolon_suffix us, .refl _⟩
      exact ⟨hreads.1.trans hus, hreads.2⟩
  · cases h
    exact ⟨(skipToSemicolon_suffix _).trans htwo, .refl _⟩

theorem parseEntity_reads (ts : List Token) (dev : BSDLDevice) : Reads (ts, dev) (parseEntity ts dev) := by
  refine ⟨skipToSemicolon_next_suffix ts, ?_⟩
  simp only [parseEntity]
  split <;> exact .refl _

/-- One pass of the main loop. -/
theorem parseLoop_cons (fuel : ℕ) (t : Token) (ts : List Token) (dev : BSDLDevice) :
    parseLoop (fuel + 1) (t :: ts) dev =
      if t.type = .endOfFile then some dev
      else if t.type = .identifier ∧ t.value = "ENTITY".toList then
        parseLoop fuel (parseEntity ts dev).1 (parseEntity ts dev).2
      else if t.type = .identifier ∧ t.value = "PORT".toList then
        parseLoop fuel (parsePorts ts dev).1 (parsePorts ts dev).2
      else if t.type = .identifier ∧ t.value = "ATTRIBUTE".toList then
        (parseAttribute ts dev).bind fun x => parseLoop fuel x.1 x.2
      else parseLoop fuel ts dev := rfl

/-- Text without a port clause adds no port and changes no mode. -/
theorem parseLoop_sameModes {fuel : ℕ} {ts : List Token} {dev dev' : BSDLDevice}
    (hp : ident "PORT".toList ∉ ts) (h : parseLoop fuel ts dev = some dev') : SameModes dev.pins dev'.pins := by
  induction fuel generalizing ts dev with
  | zero => cases h; exact .refl _
  | succ fuel ih =>
    cases ts with
    | nil => cases h; exact .refl _
    | cons t ts =>
      have hts : ident "PORT".toList ∉ ts := fun hm => hp (List.mem_cons_of_mem t hm)
      have hread : ∀ {y : List Token × BSDLDevice}, Reads (ts, dev) y → parseLoop fuel y.1 y.2 = some dev' →
          SameModes dev.pins dev'.pins := fun hr h => hr.2.trans (ih (fun hm => hts (hr.1.subset hm)) h)
      have hport : ¬(t.type = .identifier ∧ t.value = "PORT".toList) := by
        obtain ⟨type, value⟩ := t
        rintro ⟨rfl, rfl⟩
        exact hp List.mem_cons_self
      rw [parseLoop_cons, if_neg hport] at h
      by_cases h₀ : t.type = .endOfFile
      · rw [if_pos h₀] at h
        cases h; exact .refl _
      by_cases h₁ : t.type = .identifier ∧ t.value = "ENTITY".toList
      · rw [if_neg h₀, if_pos h₁] at h
        exact hread (parseEntity_reads ts dev) h
      by_cases h₂ : t.type = .identifier ∧ t.value = "ATTRIBUTE".toList
      · rw [if_neg h₀, if_neg h₁, if_pos h₂] at h
        obtain ⟨y, ha, h⟩ := Option.bind_eq_some_iff.mp h
        exact hread (parseAttribute_reads ha) h
      · rw [if_neg h₀, if_neg h₁, if_neg h₂] at h
        exact ih hts h

/-! ### The entity -/

/-- A token that the main loop passes over. -/
def Plain (t : Token) : Prop := t.type ≠ .endOfFile ∧ ∀ name ∈ reserved, t ≠ ident name

/-- The main loop passes over plain tokens. -/
theorem parseLoop_plain {ts : List Token} (h : ∀ t ∈ ts, Plain t) (fuel : ℕ) (rest : List Token) (dev : BSDLDevice) :
    parseLoop (ts.length + fuel) (ts ++ rest) dev = parseLoop fuel rest dev := by
  induction ts with
  | nil => rw [List.length_nil, Nat.zero_add, List.nil_append]
  | cons t ts ih =>
    obtain ⟨heof, hres⟩ := h t List.mem_cons_self
    have hne : ∀ name ∈ reserved, ¬(t.type = .identifier ∧ t.value = name) := by
      intro name hm he
      obtain ⟨type, value⟩ := t
      obtain ⟨rfl, rfl⟩ := he
      exact hres _ hm rfl
    have ih := ih fun t ht => h t (List.mem_cons_of_mem _ ht)
    rw [List.length_cons, Nat.add_right_comm, List.cons_append, parseLoop_cons, if_neg heof,
      if_neg (hne _ (by simp [reserved])), if_neg (hne _ (by simp [reserved])), if_neg (hne _ (by simp [reserved])), ih]

/-- Skipping to a semicolon skips at most to the one given. -/
theorem skipToSemicolon_append (ts rest : List Token) {v : Text} :
    ∃ us, us <:+ ts ++ [⟨.semicolon, v⟩] ∧ us.length ≤ ts.length ∧
      skipToSemicolon (ts ++ ⟨.semicolon, v⟩ :: rest) = us ++ rest := by
  induction ts with
  | nil => exact ⟨[], List.nil_suffix, le_refl _, rfl⟩
  | cons t ts ih =>
    by_cases ht : t.type = .semicolon
    · refine ⟨ts ++ [⟨.semicolon, v⟩], List.suffix_cons t _, by simp, ?_⟩
      rw [List.cons_append, skipToSemicolon, if_pos ht, List.append_assoc]; rfl
    · obtain ⟨us, hs, hl, he⟩ := ih
      refine ⟨us, hs.trans (List.suffix_cons t _), by rw [List.length_cons]; omega, ?_⟩
      rw [List.cons_append, skipToSemicolon, if_neg ht, he]

theorem parseEntity_header (name : Text) (ts : List Token) (dev : BSDLDevice) :
    parseEntity (ident name :: ident "IS".toList :: ts) dev = (skipToSemicolon ts, { dev with entityName := name }) :=
  rfl

/-- No name of a port clause is a reserved word. -/
theorem reserved_notMem_tokens (p : PortClause) {word : Text} (hw : word ∈ reserved) : ident word ∉ p.tokens.tail := by
  have hne : ∀ {name : Text}, ident word = ident name → name ∉ reserved → False := by
    intro name he hn
    have : word = name := congrArg Token.value he
    exact hn (this ▸ hw)
  have hname : ∀ n : PortName, ident word ∉ n.tokens := by
    rintro ⟨name, index, hn⟩ hm
    rcases List.mem_cons.mp hm with he | hm
    · exact hne he hn
    · cases index <;> simp [PortName.indexTokens, ident] at hm
  have htype : ∀ t : PortType, ident word ∉ t.tokens := by
    rintro (_ | ⟨left, downto, right⟩) hm
    · exact hne (List.mem_singleton.mp hm) (by decide)
    · simp only [PortType.tokens, List.mem_cons, List.not_mem_nil, or_false] at hm
      rcases hm with hm | hm | hm | hm | hm | hm
      · exact hne hm (by decide)
      · cases hm
      · cases hm
      · cases downto <;> exact hne hm (by decide)
      · cases hm
      · cases hm
  have hspec : ∀ s : PortSpec, ident word ∉ s.tokens := by
    intro s hm
    simp only [PortSpec.tokens, List.mem_append, List.mem_flatMap, List.mem_cons] at hm
    rcases hm with hm | ⟨n, -, hm | hm⟩ | hm | hm | hm
    · exact hname _ hm
    · cases hm
    · exact hname _ hm
    · cases hm
    · cases hmode : s.mode <;> rw [hmode] at hm <;> exact hne hm (by decide)
    · exact htype _ hm
  intro hm
  simp only [PortClause.tokens, PortClause.listTokens, List.tail_cons, List.mem_cons, List.mem_append,
    List.mem_flatMap, List.not_mem_nil, or_false] at hm
  rcases hm with hm | (hm | ⟨s, -, hm | hm⟩) | hm | hm
  · cases hm
  · exact hspec _ hm
  · cases hm
  · exact hspec _ hm
  · cases hm
  · cases hm

/-- No token that can be written is END_OF_FILE. -/
theorem Spells.type_ne {source : Text} {ts : List Token} (h : Spells source ts) :
    ∀ t ∈ ts, t.type ≠ .endOfFile := by
  induction h with
  | nil | comment => exact nofun
  | cons _ hw _ _ ih =>
    intro t ht
    rcases List.mem_cons.mp ht with rfl | ht
    · cases hw <;> simp
    · exact ih t ht

/-- What the skip past the header leaves of a generic clause is passed over. -/
theorem skipToSemicolon_generic (g : GenericClause) (hne : ∀ t ∈ g.tokens, t.type ≠ .endOfFile) (rest : List Token) :
    ∃ us, (∀ t ∈ us, Plain t) ∧ us.length < g.tokens.length ∧ skipToSemicolon (g.tokens ++ rest) = us ++ rest := by
  have hg : g.tokens = ident "GENERIC".toList :: ⟨.lparen, ['(']⟩ :: (g.body ++ [⟨.rparen, [')']⟩]) ++
      [⟨.semicolon, [';']⟩] := by
    simp [GenericClause.tokens]
  obtain ⟨us, hsuf, hlen, hskip⟩ := skipToSemicolon_append (v := [';'])
    (ident "GENERIC".toList :: ⟨.lparen, ['(']⟩ :: (g.body ++ [⟨.rparen, [')']⟩])) rest
  rw [← hg] at hsuf
  refine ⟨us, fun t ht => ⟨hne t (hsuf.subset ht), fun name hname => ?_⟩, ?_, ?_⟩
  · rintro rfl
    have hm := hsuf.subset ht
    simp only [GenericClause.tokens, List.mem_cons, List.mem_append, List.not_mem_nil, or_false] at hm
    rcases hm with hm | hm | hm | hm | hm
    · have : name = "GENERIC".toList := congrArg Token.value hm
      rw [this] at hname
      exact absurd hname (by decide)
    · cases hm
    · exact g.not_reserved name hname hm
    · cases hm
    · cases hm
  · rw [hg, List.length_append]
    exact Nat.lt_succ_of_le hlen
  · rw [hg, List.append_assoc]
    exact hskip

/-- Without a generic clause, the skip past the header goes into the port clause, and what it leaves of
that is passed over. -/
theorem skipToSemicolon_ports (p : PortClause) (hne : ∀ t ∈ p.tokens, t.type ≠ .endOfFile) (rest : List Token) :
    ∃ us, (∀ t ∈ us, Plain t) ∧ skipToSemicolon (p.tokens ++ rest) = us ++ rest := by
  have hp : p.tokens.tail = ⟨.lparen, ['(']⟩ :: (p.listTokens ++ [⟨.rparen, [')']⟩]) ++ [⟨.semicolon, [';']⟩] := by
    simp [PortClause.tokens]
  obtain ⟨us, hsuf, -, hskip⟩ := skipToSemicolon_append (v := [';'])
    (⟨.lparen, ['(']⟩ :: (p.listTokens ++ [⟨.rparen, [')']⟩])) rest
  rw [← hp] at hsuf
  refine ⟨us, fun t ht => ⟨hne t (List.mem_cons_of_mem _ (hsuf.subset ht)), fun word hw he => ?_⟩, ?_⟩
  · exact reserved_notMem_tokens p hw (he ▸ hsuf.subset ht)
  · have hcons : p.tokens = ident "PORT".toList :: p.tokens.tail := rfl
    rw [hcons, hp, List.cons_append, skipToSemicolon, if_neg nofun, List.append_assoc]
    exact hskip

/-- With a generic clause before it, the port clause is parsed: every port is there, with its mode. -/
theorem lookup_of_generic {source : Text} {e : EntityDecl} (hs : Spells source e.tokens) {g : GenericClause}
    (hg : e.generic = some g) {dev : BSDLDevice} (ha : parseString source = some dev) {d : Text × PinDirection}
    (hd : d ∈ e.ports.declared) : ∃ pin, dev.pins.lookup d.1 = some pin ∧ pin.direction = d.2 := by
  obtain ⟨dev₁, h, rfl⟩ := Option.map_eq_some_iff.mp ha
  rw [hs.tokens_eq] at h
  have hgen : e.genericTokens = g.tokens := by rw [EntityDecl.genericTokens, hg]; rfl
  have htype : ∀ t ∈ g.tokens, t.type ≠ .endOfFile := by
    refine fun t ht => Spells.type_ne hs t ?_
    simp [EntityDecl.tokens, hgen, ht]
  obtain ⟨us, hplain, hlen, hskip⟩ := skipToSemicolon_generic g htype (e.ports.tokens ++ e.rest)
  obtain ⟨k, hk⟩ : ∃ k, (ident e.name :: ident "IS".toList :: (g.tokens ++ (e.ports.tokens ++ e.rest))).length =
      us.length + (k + 1) := by
    refine ⟨(ident e.name :: ident "IS".toList :: (g.tokens ++ (e.ports.tokens ++ e.rest))).length - us.length - 1, ?_⟩
    simp only [List.length_cons, List.length_append]
    omega
  have hport : e.ports.tokens ++ e.rest = ident "PORT".toList :: (e.ports.tokens.tail ++ e.rest) := rfl
  rw [EntityDecl.tokens, hgen, List.length_cons, parseLoop_cons, if_neg nofun, if_pos ⟨rfl, rfl⟩, parseEntity_header,
    hk, hskip, parseLoop_plain hplain, hport, parseLoop_cons, if_neg nofun,
    if_neg (by decide), if_pos ⟨rfl, rfl⟩, parsePorts_tokens] at h
  have hmodes := (parseLoop_sameModes e.one_clause h).trans (sameModes_crossReference dev₁) d.1
  rw [lookup_declare e.nodup _ hd, Option.map_some] at hmodes
  exact (Option.map_eq_some_iff.mp hmodes.symm)

/-- Without a generic clause, the skip past the entity's header takes the port clause with it: no
port is there. -/
theorem lookup_of_no_generic {source : Text} {e : EntityDecl} (hs : Spells source e.tokens)
    (hg : e.generic = none) {dev : BSDLDevice} (ha : parseString source = some dev) (n : Text) :
    dev.pins.lookup n = none := by
  obtain ⟨dev₁, h, rfl⟩ := Option.map_eq_some_iff.mp ha
  rw [hs.tokens_eq] at h
  have hgen : e.genericTokens = [] := by rw [EntityDecl.genericTokens, hg]; rfl
  have htype : ∀ t ∈ e.ports.tokens, t.type ≠ .endOfFile := by
    refine fun t ht => Spells.type_ne hs t ?_
    simp [EntityDecl.tokens, ht]
  obtain ⟨us, hplain, hskip⟩ := skipToSemicolon_ports e.ports htype e.rest
  rw [EntityDecl.tokens, hgen, List.nil_append, List.length_cons, parseLoop_cons, if_neg nofun, if_pos ⟨rfl, rfl⟩,
    parseEntity_header, hskip] at h
  have hnone : ident "PORT".toList ∉ us ++ e.rest := by
    intro hm
    rcases List.mem_append.mp hm with hm | hm
    · exact (hplain _ hm).2 _ (by decide) rfl
    · exact e.one_clause hm
  have hmodes := (parseLoop_sameModes hnone h).trans (sameModes_crossReference dev₁) n
  exact Option.map_eq_none_iff.mp hmodes.symm

end BSDLParser

end OwlTap.Bsdl
