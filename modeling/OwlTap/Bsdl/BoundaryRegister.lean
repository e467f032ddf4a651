import OwlTap.Bsdl.File

/-!
# The boundary register

`BOUNDARY_REGISTER` lists the cells, each with its number and its fields: the type, the port, the
function, the safe value, and for a cell that another one controls the number of that one, the value
that disables, and what the pin does then. The parser splits the fields at commas and ends the cell at
the first closing parenthesis, also when that belongs to the subscript of a port, as `MIO(0)` has it.
`register_read_iff` says which registers are read as they are meant.
-/

namespace OwlTap.Bsdl

/-! ### The register -/

/-- The function of a cell, in the words of the standard. -/
inductive FunctionWord where
  /-- One that the parser knows. -/
  | known (function : CellFunction)
  /-- A control cell that is set at reset. -/
  | controlr
  /-- An input that drives nothing. -/
  | observeOnly

namespace FunctionWord

/-- The word. -/
def text : FunctionWord → Text
  | known .input => "INPUT".toList
  | known .output2 => "OUTPUT2".toList
  | known .output3 => "OUTPUT3".toList
  | known .control => "CONTROL".toList
  | known .bidir => "BIDIR".toList
  | known .clock => "CLOCK".toList
  | known .internal => "INTERNAL".toList
  | controlr => "CONTROLR".toList
  | observeOnly => "OBSERVE_ONLY".toList

/-- What it stands for, if the parser has it. -/
def function? : FunctionWord → Option CellFunction
  | known function => some function
  | _ => none

end FunctionWord

/-- What a disabled pin does, in the words of the standard. -/
inductive ResultWord where
  | z | pull0 | pull1 | keeper | weak0 | weak1

namespace ResultWord

/-- The word. -/
def text : ResultWord → Text
  | z => "Z".toList
  | pull0 => "PULL0".toList
  | pull1 => "PULL1".toList
  | keeper => "KEEPER".toList
  | weak0 => "WEAK0".toList
  | weak1 => "WEAK1".toList

/-- What it stands for, if the parser has it. -/
def result? : ResultWord → Option DisableResult
  | z => some .highZ
  | pull0 => some .pull0
  | pull1 => some .pull1
  | keeper => some .keeper
  | _ => none

end ResultWord

/-- A whole number, as it is written. -/
abbrev NumberText := { s : Text // BSDLParser.Numeral s }

namespace NumberText

/-- The number. -/
def toNat (n : NumberText) : ℕ := BSDLParser.digits n.1

end NumberText

/-- The port of a cell. -/
inductive CellPort where
  /-- `*`: no port. -/
  | none
  /-- A plain identifier. -/
  | plain (name : Text)
  /-- An identifier with a subscript. -/
  | subscripted (name : Text) (index : NumberText)

namespace CellPort

/-- The name, as the port clause has it. -/
def text : CellPort → Text
  | none => ['*']
  | plain name => name
  | subscripted name index => name ++ ['('] ++ index.1 ++ [')']

/-- The ways to write it. -/
def Spelled : CellPort → Text → Prop
  | none, s => s = ['*']
  | plain name, s => Written name s
  | subscripted name index, s => ∃ t a b c, Written name t ∧ Blank a ∧ Blank b ∧ Blank c ∧
      s = t ++ (a ++ '(' :: (b ++ (index.1 ++ (c ++ [')']))))

/-- Is there a subscript? -/
def isSubscripted : CellPort → Bool
  | subscripted _ _ => true
  | _ => false

end CellPort

/-- How a cell is disabled: the number of its control cell, the value that disables, and what the pin does
then; the last of these may be left out. -/
inductive DisableSpec where
  | none
  | control (cell : NumberText)
  | value (cell : NumberText) (value : Bool)
  | result (cell : NumberText) (value : Bool) (result : ResultWord)

namespace DisableSpec

/-- A bit as it is written. -/
def bitText (b : Bool) : Text := if b then ['1'] else ['0']

/-- The texts of its fields; empty for those that are left out. -/
def texts : DisableSpec → Text × Text × Text
  | none => ([], [], [])
  | control cell => (cell.1, [], [])
  | value cell v => (cell.1, bitText v, [])
  | result cell v r => (cell.1, bitText v, r.text)

/-- How its fields are written. -/
def fields : DisableSpec → List (Text → Prop)
  | none => []
  | control cell => [Written cell.1]
  | value cell v => [Written cell.1, Written (bitText v)]
  | result cell v r => [Written cell.1, Written (bitText v), Written r.text]

/-- The control cell. -/
def control? : DisableSpec → Option NumberText
  | none => .none
  | control cell | value cell _ | result cell _ _ => some cell

/-- The value that disables. -/
def value? : DisableSpec → Option Bool
  | none | control _ => .none
  | value _ v | result _ v _ => some v

/-- What the pin does, if the parser has it. -/
def result? : DisableSpec → Option DisableResult
  | result _ _ r => r.result?
  | _ => some .none

end DisableSpec

/-- A cell of the register, as it is described. -/
structure CellSpec where
  /-- Its number. -/
  number : NumberText
  /-- Its type. -/
  cellType : Text
  /-- Its port. -/
  port : CellPort
  /-- Its function. -/
  function : FunctionWord
  /-- Its safe value; `none` for X. -/
  safe : Option Bool
  /-- How it is disabled. -/
  disable : DisableSpec

/-- A bit in a cell: -1 where nothing is said. -/
def bitValue : Option Bool → ℤ
  | none => -1
  | some false => 0
  | some true => 1

namespace CellSpec

/-- Its index in the register. -/
def index (c : CellSpec) : ℕ := c.number.toNat

/-- The safe value as it is written. -/
def safeText (c : CellSpec) : Text := (c.safe.map DisableSpec.bitText).getD ['X']

/-- How its fields are written. -/
def fields (c : CellSpec) : List (Text → Prop) :=
  Written c.cellType :: c.port.Spelled :: Written c.function.text :: Written c.safeText :: c.disable.fields

/-- The ways to write the cell: `number ( field , ... , field )`. -/
def Spelled (c : CellSpec) (s : Text) : Prop :=
  ∃ gap list, Blank gap ∧ Separated (fun field t => field t) c.fields list ∧
    s = c.number.1 ++ (gap ++ '(' :: (list ++ [')']))

/-- The cell that is described; none if its function or its disable result is not one that a cell can
have. -/
def cell? (c : CellSpec) : Option BoundaryCell :=
  c.function.function?.bind fun function =>
    c.disable.result?.map fun disableResult =>
      { position := c.index
        cellType := c.cellType
        pinName := c.port.text
        function
        safeValue := bitValue c.safe
        disabledBy := (c.disable.control?.map fun n => (n.toNat : ℤ)).getD (-1)
        disableValue := bitValue c.disable.value?
        disableResult }

end CellSpec

/-- A file with a boundary register. -/
structure RegisterFile extends BsdlFile where
  /-- The declarations before the register. -/
  before : List Declaration
  /-- The specification of the register. -/
  registerSpec : AttributeSpec
  /-- The declarations after the register. -/
  after : List Declaration
  /-- These are the declarations. -/
  declarations_eq : declarations = before ++ .specified registerSpec :: after
  /-- It specifies the register. -/
  registerSpec_name : registerSpec.name = "BOUNDARY_REGISTER".toList
  /-- It is the only one. -/
  registerSpec_only : ∀ a, .specified a ∈ before ++ after → a.name ≠ "BOUNDARY_REGISTER".toList
  /-- The pieces of its string. -/
  pieces : List Text
  /-- There is one at least. -/
  pieces_ne : pieces ≠ []
  /-- They are its value. -/
  registerSpec_value : registerSpec.value = joined pieces
  /-- The cells, in the order of the string. -/
  cells : List CellSpec
  /-- The string describes them. -/
  spelled : Separated CellSpec.Spelled cells pieces.flatten
  /-- No number is there twice. -/
  nodup : (cells.map CellSpec.index).Nodup
  /-- A boundary length, if the file says one, is greater than every number. -/
  lengths : ∀ a, .specified a ∈ before ++ after → a.name = "BOUNDARY_LENGTH".toList →
    ∃ n : NumberText, a.value = [⟨.integer, n.1⟩] ∧ ∀ c ∈ cells, c.index < n.toNat

/-- What the parser asks of a cell. -/
structure CellSpec.Fits (c : CellSpec) : Prop where
  /-- The port has no subscript. -/
  not_subscripted : c.port.isSubscripted = false
  /-- The parser has the function. -/
  function_known : c.function.function?.isSome
  /-- It has the disable result. -/
  result_known : c.disable.result?.isSome
  /-- The number is within the limit. -/
  index_lt : c.index < BSDLParser.kMaxBsrBits
  /-- The number of the control cell is one that fits. -/
  control_le : ∀ n, c.disable.control? = some n → n.toNat ≤ 2147483647

namespace BSDLParser

/-- The device has exactly these cells: each is at its index, and the other places are empty. -/
structure Shows (cells : List CellSpec) (dev : BSDLDevice) : Prop where
  /-- The cells. -/
  cell : ∀ c ∈ cells, ∃ cell, c.cell? = some cell ∧ dev.boundaryCells[c.index]? = some cell
  /-- The other places. -/
  other : ∀ (i : ℕ) (cell : BoundaryCell), dev.boundaryCells[i]? = some cell → (∃ c ∈ cells, c.index = i) ∨ cell = {}

/-! ### Fields -/

/-- A field without the blanks, in uppercase. -/
def strip (s : Text) : Text := (s.filter fun c => ¬(c = ' ' ∨ c = '\t' ∨ c = '\n' ∨ c = '\r')).map Char.toUpper

/-- The text of a field goes on to a comma or a closing parenthesis. -/
def IsField (s : Text) : Prop := ∀ c ∈ s, ¬(c = ',' ∨ c = ')')

theorem cut_field {s : Text} (h : IsField s) {x : Char} (hx : x = ',' ∨ x = ')') (rest : Text) :
    (s ++ x :: rest).takeWhile (fun c => ¬(c = ',' ∨ c = ')')) = s ∧
      (s ++ x :: rest).dropWhile (fun c => ¬(c = ',' ∨ c = ')')) = x :: rest :=
  takeWhile_append_of_stop (fun c hc => decide_eq_true (h c hc)) fun c hc => by
    obtain rfl := Option.some.inj hc
    exact fun h => of_decide_eq_true h hx

/-- A comma that ends a field is skipped. -/
theorem readField_comma {s : Text} (h : IsField s) (rest : Text) : readField (s ++ ',' :: rest) = (strip s, rest) := by
  obtain ⟨htake, hdrop⟩ := cut_field h (.inl rfl) rest
  simp only [readField, htake, hdrop]
  rfl

/-- The closing parenthesis stays. -/
theorem readField_close {s : Text} (h : IsField s) (rest : Text) :
    readField (s ++ ')' :: rest) = (strip s, ')' :: rest) := by
  obtain ⟨htake, hdrop⟩ := cut_field h (.inr rfl) rest
  simp only [readField, htake, hdrop]
  rfl

theorem readOptional_field {s : Text} (h : IsField s) (hne : s ≠ []) (rest : Text) :
    readOptional (s ++ rest) = readField (s ++ rest) := by
  obtain ⟨c, s, rfl⟩ := List.exists_cons_of_ne_nil hne
  refine if_pos ⟨List.cons_ne_nil _ _, fun he => ?_⟩
  exact h c List.mem_cons_self (.inr (Option.some.inj he))

theorem readOptional_close (rest : Text) : readOptional (')' :: rest) = ([], ')' :: rest) := rfl

/-- The text is a field with the given value. -/
structure FieldIs (value s : Text) : Prop where
  /-- The value. -/
  strip_eq : strip s = value
  /-- No comma and no parenthesis ends it early. -/
  isField : IsField s
  /-- There is something in it. -/
  ne_nil : s ≠ []

theorem strip_append (s t : Text) : strip (s ++ t) = strip s ++ strip t := by
  rw [strip, List.filter_append, List.map_append]
  rfl

theorem strip_blank {b : Text} (h : Blank b) : strip b = [] := by
  rw [strip, List.filter_eq_nil_iff.mpr, List.map_nil]
  intro c hc
  rcases h c hc with rfl | rfl <;> decide

/-- Blanks around a field say nothing. -/
theorem FieldIs.pad {value s b c : Text} (h : FieldIs value s) (hb : Blank b) (hc : Blank c) :
    FieldIs value (b ++ (s ++ c)) where
  strip_eq := by rw [strip_append, strip_append, strip_blank hb, strip_blank hc, List.append_nil, h.strip_eq]; rfl
  isField x hx := by
    have hblank : ∀ {b : Text}, Blank b → x ∈ b → ¬(x = ',' ∨ x = ')') := fun hb hx => by
      rcases hb x hx with rfl | rfl <;> decide
    simp only [List.mem_append] at hx
    rcases hx with hx | hx | hx
    · exact hblank hb hx
    · exact h.isField x hx
    · exact hblank hc hx
  ne_nil he := h.ne_nil (List.append_eq_nil_iff.mp (List.append_eq_nil_iff.mp he).2).1

theorem fieldIs_written {name s : Text} (h : Written name s) : FieldIs name s where
  strip_eq := by
    have hne : ∀ x, ¬isIdent x = true → ∀ c ∈ s, c ≠ x := fun x hx c hc e => hx (e ▸ h.2.1 c hc)
    rw [strip, List.filter_eq_self.mpr, h.2.2]
    intro c hc
    simp [hne ' ' (by decide) c hc, hne '\t' (by decide) c hc, hne '\n' (by decide) c hc, hne '\r' (by decide) c hc]
  isField c hc := by
    rintro (rfl | rfl) <;> exact absurd (h.2.1 _ hc) (by decide)
  ne_nil := h.1

/-- A port without a subscript is a field. -/
theorem fieldIs_port {port : CellPort} (hp : port.isSubscripted = false) {s : Text} (h : port.Spelled s) :
    FieldIs port.text s := by
  cases port with
  | none =>
    obtain rfl := h
    exact ⟨rfl, by simp [IsField], List.cons_ne_nil _ _⟩
  | plain name => exact fieldIs_written h
  | subscripted name index => cases hp

/-- What the parser makes of the fields of a cell. -/
def cellOf (cellType pinName function safe : Text) (disable : Text × Text × Text) : BoundaryCell where
  cellType
  pinName
  function := parseCellFunction function
  safeValue := if safe = ['0'] then 0 else if safe = ['1'] then 1 else -1
  disabledBy := if disable.1 ≠ [] ∧ disable.1 ≠ ['X'] then (stoi disable.1).getD (-1) else -1
  disableValue := if disable.2.1 = ['0'] then 0 else if disable.2.1 = ['1'] then 1 else -1
  disableResult := parseDisableResult disable.2.2

/-- What the parser makes of a cell. -/
def asRead (c : CellSpec) : BoundaryCell :=
  cellOf c.cellType c.port.text c.function.text c.safeText c.disable.texts

/-- The fields of a cell are read up to the parenthesis that closes it. -/
theorem readCell_fields {c : CellSpec} (hp : c.port.isSubscripted = false) {list : Text}
    (h : Separated (fun field t => field t) c.fields list) (rest : Text) :
    readCell (list ++ ')' :: rest) = (asRead c, rest) := by
  obtain ⟨fs, hfs, rfl⟩ := h.exists_join (List.cons_ne_nil _ _)
  have hpad : ∀ {P : Text → Prop} {value f : Text}, (∀ t, P t → FieldIs value t) →
      (∃ b t c, Blank b ∧ P t ∧ Blank c ∧ f = b ++ (t ++ c)) → FieldIs value f := by
    rintro P value f hP ⟨b, t, c, hb, ht, hc, rfl⟩
    exact (hP t ht).pad hb hc
  have hwritten : ∀ {name : Text}, ∀ t, Written name t → FieldIs name t := fun t => fieldIs_written
  simp only [CellSpec.fields, List.forall₂_cons_left_iff] at hfs
  obtain ⟨f₁, _, h₁, ⟨f₂, _, h₂, ⟨f₃, _, h₃, ⟨f₄, es, h₄, hes, rfl⟩, rfl⟩, rfl⟩, rfl⟩ := hfs
  have h₁ := hpad hwritten h₁
  have h₂ := hpad (fun t => fieldIs_port hp) h₂
  have h₃ := hpad hwritten h₃
  have h₄ := hpad hwritten h₄
  have htail : ∀ es : Text, readCell (f₁ ++ ',' :: (f₂ ++ ',' :: (f₃ ++ ',' :: es))) =
      let safe := readField es
      let disabledBy := readOptional safe.2
      let disableVal := readOptional disabledBy.2
      let disableResult := readOptional disableVal.2
      (cellOf c.cellType c.port.text c.function.text safe.1 (disabledBy.1, disableVal.1, disableResult.1),
        (disableResult.2.dropWhile (· ≠ ')')).tail) := by
    intro es
    simp only [readCell, readField_comma h₁.isField, readField_comma h₂.isField, readField_comma h₃.isField,
      h₁.strip_eq, h₂.strip_eq, h₃.strip_eq]
    rfl
  have hclose : ((')' :: rest).dropWhile (· ≠ ')')).tail = rest := rfl
  rw [asRead]
  cases hd : c.disable with
  | none =>
    rw [hd] at hes
    cases hes
    have happ : commaJoin [f₁, f₂, f₃, f₄] ++ ')' :: rest = f₁ ++ ',' :: (f₂ ++ ',' :: (f₃ ++ ',' :: (f₄ ++ ')' :: rest))) := by
      simp [commaJoin]
    simp only [happ, htail, readField_close h₄.isField, readOptional_close, hclose, h₄.strip_eq]
    rfl
  | control cell =>
    rw [hd] at hes
    simp only [DisableSpec.fields, List.forall₂_cons_left_iff, List.forall₂_nil_left_iff] at hes
    obtain ⟨f₅, _, h₅, rfl, rfl⟩ := hes
    have h₅ := hpad hwritten h₅
    have happ : commaJoin [f₁, f₂, f₃, f₄, f₅] ++ ')' :: rest =
        f₁ ++ ',' :: (f₂ ++ ',' :: (f₃ ++ ',' :: (f₄ ++ ',' :: (f₅ ++ ')' :: rest)))) := by
      simp [commaJoin]
    simp only [happ, htail, readField_comma h₄.isField, readOptional_field h₅.isField h₅.ne_nil, readField_close h₅.isField,
      readOptional_close, hclose, h₄.strip_eq, h₅.strip_eq]
    rfl
  | value cell v =>
    rw [hd] at hes
    simp only [DisableSpec.fields, List.forall₂_cons_left_iff, List.forall₂_nil_left_iff] at hes
    obtain ⟨f₅, _, h₅, ⟨f₆, _, h₆, rfl, rfl⟩, rfl⟩ := hes
    have h₅ := hpad hwritten h₅
    have h₆ := hpad hwritten h₆
    have happ : commaJoin [f₁, f₂, f₃, f₄, f₅, f₆] ++ ')' :: rest =
        f₁ ++ ',' :: (f₂ ++ ',' :: (f₃ ++ ',' :: (f₄ ++ ',' :: (f₅ ++ ',' :: (f₆ ++ ')' :: rest))))) := by
      simp [commaJoin]
    simp only [happ, htail, readField_comma h₄.isField, readOptional_field h₅.isField h₅.ne_nil, readField_comma h₅.isField,
      readOptional_field h₆.isField h₆.ne_nil, readField_close h₆.isField, readOptional_close, hclose, h₄.strip_eq,
      h₅.strip_eq, h₆.strip_eq]
    rfl
  | result cell v r =>
    rw [hd] at hes
    simp only [DisableSpec.fields, List.forall₂_cons_left_iff, List.forall₂_nil_left_iff] at hes
    obtain ⟨f₅, _, h₅, ⟨f₆, _, h₆, ⟨f₇, _, h₇, rfl, rfl⟩, rfl⟩, rfl⟩ := hes
    have h₅ := hpad hwritten h₅
    have h₆ := hpad hwritten h₆
    have h₇ := hpad hwritten h₇
    have happ : commaJoin [f₁, f₂, f₃, f₄, f₅, f₆, f₇] ++ ')' :: rest =
        f₁ ++ ',' :: (f₂ ++ ',' :: (f₃ ++ ',' :: (f₄ ++ ',' :: (f₅ ++ ',' :: (f₆ ++ ',' :: (f₇ ++ ')' :: rest)))))) := by
      simp [commaJoin]
    simp only [happ, htail, readField_comma h₄.isField, readOptional_field h₅.isField h₅.ne_nil, readField_comma h₅.isField,
      readOptional_field h₆.isField h₆.ne_nil, readField_comma h₆.isField, readOptional_field h₇.isField h₇.ne_nil,
      readField_close h₇.isField, hclose, h₄.strip_eq, h₅.strip_eq, h₆.strip_eq, h₇.strip_eq]
    rfl

/-- A cell without a subscript is one entry. -/
theorem cellEntries_read {c : CellSpec} (hp : c.port.isSubscripted = false) {s : Text} (hs : c.Spelled s) (rest : Text) :
    cellEntries.read (s ++ rest) =
      (⟨c.number.1, some (asRead c)⟩ :: (cellEntries.read rest).1, (cellEntries.read rest).2) := by
  obtain ⟨gap, list, hgap, hlist, rfl⟩ := hs
  obtain ⟨hne, hdigits⟩ := c.number.2
  have happ : c.number.1 ++ (gap ++ '(' :: (list ++ [')'])) ++ rest =
      c.number.1 ++ (gap ++ '(' :: (list ++ ')' :: rest)) := by simp
  have hsep : (c.number.1 ++ (gap ++ '(' :: (list ++ ')' :: rest))).dropWhile isSeparator =
      c.number.1 ++ (gap ++ '(' :: (list ++ ')' :: rest)) := by
    obtain ⟨d, ds, hd⟩ := List.exists_cons_of_ne_nil hne
    have hdigit : d.isDigit := hdigits d (hd ▸ List.mem_cons_self)
    rw [hd]
    refine List.dropWhile_cons_of_neg fun h => ?_
    rcases of_decide_eq_true h with rfl | rfl | rfl | rfl | rfl <;> exact absurd hdigit (by decide)
  have hstop : ∀ d ∈ (gap ++ '(' :: (list ++ ')' :: rest)).head?, ¬Char.isDigit d = true := by
    intro d hd
    cases gap with
    | nil => obtain rfl := Option.some.inj hd; decide
    | cons e gap =>
      obtain rfl := Option.some.inj hd
      rcases hgap e List.mem_cons_self with rfl | rfl <;> decide
  obtain ⟨htake, hdrop⟩ := takeWhile_append_of_stop hdigits hstop
  obtain ⟨-, hopen⟩ := cut_at (x := '(') (fun d hd => by rcases hgap d hd with rfl | rfl <;> decide) (list ++ ')' :: rest)
  have hnil : c.number.1 ++ (gap ++ '(' :: (list ++ ')' :: rest)) ≠ [] := fun h => hne (List.append_eq_nil_iff.mp h).1
  have hnext : cellEntries.next (c.number.1 ++ (gap ++ '(' :: (list ++ ')' :: rest))) =
      .entry ⟨c.number.1, some (asRead c)⟩ rest := by
    simp only [cellEntries, hsep, if_neg hnil, htake, if_neg hne, hdrop, hopen, reduceCtorEq, if_false, List.tail_cons,
      readCell_fields hp hlist]
  rw [happ, Reader.read_of_entry hnext]

/-- A cell that the parser has the words for is read as it is described. -/
theorem asRead_eq {c : CellSpec} {cell : BoundaryCell} (h : c.cell? = some cell)
    (hcontrol : ∀ n, c.disable.control? = some n → n.toNat ≤ 2147483647) :
    { asRead c with position := c.index } = cell := by
  obtain ⟨f, hf, h⟩ := Option.bind_eq_some_iff.mp h
  obtain ⟨r, hr, rfl⟩ := Option.map_eq_some_iff.mp h
  have hfunction : parseCellFunction c.function.text = f := by
    cases hw : c.function with
    | known g =>
      rw [hw] at hf
      cases hf
      cases f <;> decide
    | controlr => rw [hw] at hf; cases hf
    | observeOnly => rw [hw] at hf; cases hf
  have hsafe : (if c.safeText = ['0'] then 0 else if c.safeText = ['1'] then 1 else -1) = bitValue c.safe := by
    rw [CellSpec.safeText]
    cases c.safe with
    | none => rfl
    | some b => cases b <;> rfl
  have hnumber : ∀ n : NumberText, n.toNat ≤ 2147483647 →
      (if n.1 ≠ [] ∧ n.1 ≠ ['X'] then (stoi n.1).getD (-1) else -1) = (n.toNat : ℤ) := by
    intro n hn
    have hx : n.1 ≠ ['X'] := fun h => absurd (n.2.2 'X' (h ▸ List.mem_cons_self)) (by decide)
    have hle : digits n.1 ≤ 2147483647 := hn
    rw [if_pos ⟨n.2.1, hx⟩, stoi_digits n.2.1 n.2.2, if_pos hle]
    rfl
  have hbit : ∀ b : Bool, (if DisableSpec.bitText b = ['0'] then 0 else if DisableSpec.bitText b = ['1'] then 1 else -1) =
      bitValue (some b) := fun b => by cases b <;> rfl
  have hresult : ∀ {w : ResultWord}, w.result? = some r → parseDisableResult w.text = r := by
    intro w hw
    cases w <;> cases hw <;> decide
  have hcell : ∀ {b b' v v' : ℤ} {r r' : DisableResult}, b = b' → v = v' → r = r' →
      BoundaryCell.mk c.index c.cellType c.port.text f (bitValue c.safe) b v r =
        BoundaryCell.mk c.index c.cellType c.port.text f (bitValue c.safe) b' v' r' := by
    rintro b _ v _ r _ rfl rfl rfl
    rfl
  simp only [asRead, cellOf, hfunction, hsafe]
  cases hd : c.disable with
  | none =>
    rw [hd] at hr
    cases hr
    rfl
  | control n =>
    rw [hd] at hr hcontrol
    cases hr
    exact hcell (hnumber n (hcontrol n rfl)) rfl rfl
  | value n v =>
    rw [hd] at hr hcontrol
    cases hr
    exact hcell (hnumber n (hcontrol n rfl)) (hbit v) rfl
  | result n v w =>
    rw [hd] at hr hcontrol
    exact hcell (hnumber n (hcontrol n rfl)) (hbit v) (hresult hr)

/-! ### What no cell that is read has -/

/-- The cell can come out of a string: its port has no closing parenthesis, and its control cell is a
number that fits. -/
def Readable (cell : BoundaryCell) : Prop := ')' ∉ cell.pinName ∧ cell.disabledBy ≤ 2147483647

theorem stoi_le {s : Text} {n : ℤ} (h : stoi s = some n) : n ≤ 2147483647 := by
  obtain ⟨hfits, he⟩ := Option.ite_none_right_eq_some.mp h
  exact Option.some.inj he ▸ hfits.2.2

theorem readField_notMem (content : Text) : ')' ∉ (readField content).1 := by
  intro h
  obtain ⟨c, hc, he⟩ := List.mem_map.mp h
  obtain rfl := (toUpper_eq_iff (by decide)).mp he
  have := List.mem_takeWhile_imp (List.mem_of_mem_filter hc)
  exact absurd this (by decide)

theorem readCell_readable (content : Text) (position : ℤ) : Readable { (readCell content).1 with position } := by
  refine ⟨readField_notMem _, ?_⟩
  simp only [readCell]
  split
  · cases h : stoi _ with
    | none => exact show (-1 : ℤ) ≤ _ by decide
    | some n => exact stoi_le h
  · decide

theorem cellEntries_readable (content : Text) :
    ∀ e ∈ (cellEntries.read content).1, ∀ cell ∈ e.cell, ∀ position, Readable { cell with position } := by
  refine cellEntries.forall_read (Q := fun _ => True) (fun _ h => ?_) (fun _ _ => trivial)
    (fun _ h => ⟨?_, trivial⟩) trivial
  all_goals
    simp only [cellEntries] at h
    split at h
    · cases h
    split at h
    · cases h
    split at h <;> cases h
  · intro cell hc
    cases hc
  · intro cell hc position
    obtain rfl := Option.some.inj hc
    exact readCell_readable _ _

/-- Every cell of the device can come out of a string. -/
def AllReadable (dev : BSDLDevice) : Prop := ∀ cell ∈ dev.boundaryCells, Readable cell

theorem AllReadable.resize {dev : BSDLDevice} (h : AllReadable dev) (len n : ℕ) :
    AllReadable { dev with boundaryLength := len, boundaryCells := resizeCells dev.boundaryCells n } := by
  intro cell hm
  obtain ⟨i, hi, rfl⟩ := List.mem_iff_getElem.mp hm
  rcases mem_resizeCells (List.getElem?_eq_getElem hi) with hc | hc
  · exact h _ (List.mem_of_getElem? hc)
  · rw [hc]
    exact ⟨List.not_mem_nil, by decide⟩

theorem AllReadable.storeCell {dev : BSDLDevice} (h : AllReadable dev) {cell : BoundaryCell} (hc : Readable cell)
    (pos : ℕ) : AllReadable (storeCell cell pos dev) := by
  have hset : ∀ {dev : BSDLDevice}, AllReadable dev → AllReadable { dev with boundaryCells := dev.boundaryCells.set pos cell } :=
    fun h cell' hm => (List.mem_or_eq_of_mem_set hm).elim (h cell') (· ▸ hc)
  unfold BSDLParser.storeCell
  split
  · exact hset h
  split
  · exact hset (h.resize (pos + 1) (pos + 1))
  · exact h

theorem AllReadable.storeEntries {entries : List CellEntry}
    (he : ∀ e ∈ entries, ∀ cell ∈ e.cell, ∀ position, Readable { cell with position }) {dev dev' : BSDLDevice}
    (h : AllReadable dev) (hs : entries.foldlM storeEntry dev = some dev') : AllReadable dev' := by
  induction entries generalizing dev with
  | nil => cases hs; exact h
  | cons e entries ih =>
    rw [List.foldlM_cons] at hs
    obtain ⟨dev₁, h₁, hs⟩ := Option.bind_eq_some_iff.mp hs
    obtain ⟨pos, -, rfl⟩ := Option.map_eq_some_iff.mp h₁
    refine ih (fun e he' => he e (List.mem_cons_of_mem _ he')) ?_ hs
    cases hc : e.cell with
    | none => exact h
    | some cell => exact h.storeCell (he e List.mem_cons_self cell hc _) _

/-! ### The statements -/

/-- A specification of another attribute leaves the cells as they are. -/
theorem boundaryCells_apply {a : AttributeSpec} (hlength : a.name ≠ "BOUNDARY_LENGTH".toList)
    (hregister : a.name ≠ "BOUNDARY_REGISTER".toList) {dev dev' : BSDLDevice} (h : a.statement.apply dev = some dev') :
    dev'.boundaryCells = dev.boundaryCells := by
  have heff : Effect dev a.name dev' := applyValue_effect h
  generalize a.name = name at hlength hregister heff
  cases heff with
  | boundaryLength => exact absurd rfl hlength
  | boundaryRegister => exact absurd rfl hregister
  | _ => rfl

/-- A boundary length that is accepted resizes the register. -/
theorem apply_boundaryLength {a : AttributeSpec} (hname : a.name = "BOUNDARY_LENGTH".toList) {dev dev' : BSDLDevice}
    (h : a.statement.apply dev = some dev') :
    dev' = dev ∨ ∃ t len, a.value.head? = some t ∧ len = ((stoi t.value).getD 0).toNat ∧ 0 < len ∧
      dev' = { dev with boundaryLength := len, boundaryCells := resizeCells dev.boundaryCells len } := by
  have h : applyValue a.name (a.value ++ [semicolon]) dev = some dev' := h
  rw [hname] at h
  have h : (parseBoundaryLength (a.value ++ [semicolon]) dev).2 = dev' := Option.some.inj h
  obtain ⟨t, ts, ht⟩ := List.exists_cons_of_ne_nil a.value_ne
  rw [ht, List.cons_append] at h
  rw [ht]
  have hif : (parseBoundaryLength (t :: (ts ++ [semicolon])) dev).2 =
      if t.type = .integer ∧ 0 < ((stoi t.value).getD 0).toNat ∧ ((stoi t.value).getD 0).toNat ≤ kMaxBsrBits then
        { dev with
          boundaryLength := ((stoi t.value).getD 0).toNat
          boundaryCells := resizeCells dev.boundaryCells ((stoi t.value).getD 0).toNat }
      else dev := rfl
  rw [hif] at h
  split at h
  next hok => exact .inr ⟨t, _, rfl, rfl, hok.2.1, h.symm⟩
  · exact .inl h.symm

/-- The register is done entry by entry, when there is room for it. -/
theorem apply_boundaryRegister {a : AttributeSpec} (hname : a.name = "BOUNDARY_REGISTER".toList) (dev : BSDLDevice) :
    a.statement.apply dev =
      (cellEntries.read (readConcatenatedString (a.value ++ [semicolon])).1).1.foldlM storeEntry
        (if dev.boundaryCells = [] ∧ 0 < dev.boundaryLength then
          { dev with boundaryCells := resizeCells dev.boundaryCells dev.boundaryLength }
        else dev) := by
  show applyValue a.name (a.value ++ [semicolon]) dev = _
  rw [hname]
  show (parseBoundaryRegister (a.value ++ [semicolon]) dev).map Prod.snd = _
  rw [parseBoundaryRegister]
  dsimp only
  rw [cells_eq (le_refl _), Option.map_map]
  exact Option.map_id'

theorem AllReadable.apply {a : AttributeSpec} {dev dev' : BSDLDevice} (h : AllReadable dev)
    (ha : a.statement.apply dev = some dev') : AllReadable dev' := by
  by_cases hlength : a.name = "BOUNDARY_LENGTH".toList
  · rcases apply_boundaryLength hlength ha with rfl | ⟨t, len, -, -, -, rfl⟩
    · exact h
    · exact h.resize len len
  by_cases hregister : a.name = "BOUNDARY_REGISTER".toList
  · rw [apply_boundaryRegister hregister] at ha
    refine AllReadable.storeEntries (cellEntries_readable _) ?_ ha
    split
    · exact h.resize _ _
    · exact h
  · intro cell hc
    rw [boundaryCells_apply hlength hregister ha] at hc
    exact h cell hc

/-- Every cell of a device that is parsed can come out of a string. -/
theorem allReadable_file {source : Text} {f : BsdlFile} (hs : Spells source f.tokens) {dev : BSDLDevice}
    (hd : parseString source = some dev) : AllReadable dev := by
  obtain ⟨pins, he⟩ := parseString_file hs
  rw [he] at hd
  obtain ⟨dev₁, h₁, rfl⟩ := Option.map_eq_some_iff.mp hd
  have hall : AllReadable dev₁ := declarations_keep (fun a _ _ _ hp ha => hp.apply ha) (fun _ hc => by cases hc) h₁
  exact hall

/-! ### Storing the cells -/

theorem getElem?_resizeCells (cells : List BoundaryCell) (n i : ℕ) :
    (resizeCells cells n)[i]? = if i < n then some (cells[i]?.getD {}) else none := by
  split
  next hi =>
    rw [resizeCells, List.getElem?_append, List.length_take]
    by_cases hc : i < cells.length
    · rw [if_pos (by omega), List.getElem?_take_of_lt hi, List.getElem?_eq_getElem hc]
      rfl
    · rw [if_neg (by omega), List.getElem?_replicate, if_pos (by omega), List.getElem?_eq_none (by omega)]
      rfl
  next hi => exact List.getElem?_eq_none (by rw [length_resizeCells]; omega)

theorem Shows.resize {cells : List CellSpec} {dev : BSDLDevice} (h : Shows cells dev) {n : ℕ}
    (hn : ∀ c ∈ cells, c.index < n) (len : ℕ) :
    Shows cells { dev with boundaryLength := len, boundaryCells := resizeCells dev.boundaryCells n } where
  cell c hc := by
    obtain ⟨cell, hcell, hat⟩ := h.cell c hc
    refine ⟨cell, hcell, ?_⟩
    rw [getElem?_resizeCells, if_pos (hn c hc), hat]
    rfl
  other i cell hi := by
    rw [getElem?_resizeCells] at hi
    split at hi
    · cases hc : dev.boundaryCells[i]? with
      | none => rw [hc] at hi; exact .inr (Option.some.inj hi).symm
      | some cell' =>
        rw [hc] at hi
        obtain rfl := Option.some.inj hi
        exact h.other i _ hc
    · cases hi

/-- A cell with a new number is added. -/
theorem Shows.storeCell {cells : List CellSpec} {dev : BSDLDevice} (h : Shows cells dev) {c : CellSpec}
    {cell : BoundaryCell} (hc : c.cell? = some cell) (hnew : ∀ d ∈ cells, d.index ≠ c.index)
    (hmax : c.index < kMaxBsrBits) : Shows (cells ++ [c]) (storeCell cell c.index dev) := by
  have hset : ∀ {dev : BSDLDevice}, Shows cells dev → c.index < dev.boundaryCells.length →
      Shows (cells ++ [c]) { dev with boundaryCells := dev.boundaryCells.set c.index cell } := by
    intro dev h hlt
    refine ⟨fun d hd => ?_, fun i cell' hi => ?_⟩
    · rcases List.mem_append.mp hd with hd | hd
      · obtain ⟨cell', hcell, hat⟩ := h.cell d hd
        refine ⟨cell', hcell, ?_⟩
        rw [List.getElem?_set_ne (hnew d hd).symm]
        exact hat
      · obtain rfl := List.mem_singleton.mp hd
        exact ⟨cell, hc, List.getElem?_set_self hlt⟩
    · by_cases he : c.index = i
      · exact .inl ⟨c, List.mem_append_right _ (List.mem_singleton_self c), he⟩
      · rw [List.getElem?_set_ne he] at hi
        exact (h.other i cell' hi).imp_left fun ⟨d, hd, hdi⟩ => ⟨d, List.mem_append_left _ hd, hdi⟩
  unfold BSDLParser.storeCell
  split
  next hlt => exact hset h hlt
  next hge =>
    have hold : ∀ d ∈ cells, d.index < c.index + 1 := by
      intro d hd
      obtain ⟨cell', -, hat⟩ := h.cell d hd
      have := (List.getElem?_eq_some_iff.mp hat).1
      omega
    exact hset (h.resize hold (c.index + 1)) (by rw [length_resizeCells]; exact Nat.lt_succ_self _)

/-- Cells that fit are added one after the other. -/
theorem Shows.storeEntries {done rest : List CellSpec} {dev : BSDLDevice} (h : Shows done dev) (hfits : ∀ c ∈ rest, c.Fits)
    (hn : ((done ++ rest).map CellSpec.index).Nodup) :
    ∃ dev', (rest.flatMap fun c => [CellEntry.mk c.number.1 (some (asRead c))]).foldlM storeEntry dev = some dev' ∧
      Shows (done ++ rest) dev' := by
  induction rest generalizing done dev with
  | nil =>
    rw [List.append_nil]
    exact ⟨dev, rfl, h⟩
  | cons c rest ih =>
    have hc := hfits c List.mem_cons_self
    obtain ⟨function, hf⟩ := Option.isSome_iff_exists.mp hc.function_known
    obtain ⟨result, hr⟩ := Option.isSome_iff_exists.mp hc.result_known
    obtain ⟨cell, hcell⟩ : ∃ cell, c.cell? = some cell := ⟨_, by rw [CellSpec.cell?, hf, hr]; rfl⟩
    have hnew : ∀ d ∈ done, d.index ≠ c.index := by
      intro d hd he
      rw [List.map_append, List.nodup_append] at hn
      exact hn.2.2 _ (List.mem_map_of_mem hd) _ (List.mem_map_of_mem List.mem_cons_self) he
    have hpos : stoi c.number.1 = some (c.index : ℤ) := by
      have hle : digits c.number.1 ≤ 2147483647 := by
        have hlt : digits c.number.1 < 65536 := hc.index_lt
        omega
      rw [stoi_digits c.number.2.1 c.number.2.2, if_pos hle]
      rfl
    have hstep : storeEntry dev ⟨c.number.1, some (asRead c)⟩ = some (BSDLParser.storeCell cell c.index dev) := by
      rw [storeEntry, hpos, Option.map_some, ← asRead_eq hcell hc.control_le]
      rfl
    rw [List.flatMap_cons, List.singleton_append, List.foldlM_cons, hstep]
    have hcons : done ++ c :: rest = done ++ [c] ++ rest := by simp
    rw [hcons] at hn ⊢
    exact ih (h.storeCell hcell hnew hc.index_lt) (fun d hd => hfits d (List.mem_cons_of_mem _ hd)) hn

/-- What the parser has after the declarations before the register: no cell. -/
theorem shows_before {f : RegisterFile} {dev dev' : BSDLDevice} (hdev : dev.boundaryCells = [])
    (h : (f.before.flatMap Declaration.statements).foldlM Statement.apply dev = some dev') : Shows [] dev' := by
  refine declarations_keep (fun a ha dev dev' hp happly => ?_) ⟨nofun, fun i cell hi => ?_⟩ h
  · by_cases hlength : a.name = "BOUNDARY_LENGTH".toList
    · rcases apply_boundaryLength hlength happly with rfl | ⟨t, len, -, -, -, rfl⟩
      · exact hp
      · exact hp.resize nofun len
    · have := boundaryCells_apply hlength (f.registerSpec_only a (List.mem_append_left _ ha)) happly
      exact ⟨nofun, fun i cell hi => hp.other i cell (this ▸ hi)⟩
  · rw [hdev] at hi
    cases hi

/-- The declarations after the register keep the cells. -/
theorem shows_after {f : RegisterFile} {dev dev' : BSDLDevice} (hdev : Shows f.cells dev)
    (h : (f.after.flatMap Declaration.statements).foldlM Statement.apply dev = some dev') : Shows f.cells dev' := by
  refine declarations_keep (fun a ha dev dev' hp happly => ?_) hdev h
  have hmem := List.mem_append_right f.before ha
  by_cases hlength : a.name = "BOUNDARY_LENGTH".toList
  · rcases apply_boundaryLength hlength happly with rfl | ⟨t, len, ht, hlen, hpos, rfl⟩
    · exact hp
    · obtain ⟨n, hvalue, hn⟩ := f.lengths a hmem hlength
      rw [hvalue] at ht
      obtain rfl := Option.some.inj ht
      rw [stoi_digits n.2.1 n.2.2] at hlen
      split at hlen
      · exact hp.resize (fun c hc => hlen ▸ hn c hc) len
      · rw [hlen] at hpos
        exact absurd hpos (by decide)
  · have := boundaryCells_apply hlength (f.registerSpec_only a hmem) happly
    exact ⟨fun c hc => by rw [this]; exact hp.cell c hc, fun i cell hi => hp.other i cell (this ▸ hi)⟩

/-- The register's string is split into its cells. -/
theorem entries_register (f : RegisterFile) (hports : ∀ c ∈ f.cells, c.port.isSubscripted = false) :
    (cellEntries.read (readConcatenatedString (f.registerSpec.value ++ [semicolon])).1).1 =
      f.cells.flatMap fun c => [CellEntry.mk c.number.1 (some (asRead c))] := by
  have hsep : ∀ c ∈ [' ', '\t', ','], ∀ cs, cellEntries.read (c :: cs) = cellEntries.read cs := by
    intro c hc cs
    refine Reader.read_congr ?_
    have hdrop : (c :: cs).dropWhile isSeparator = cs.dropWhile isSeparator := by
      refine List.dropWhile_cons_of_pos ?_
      simp only [List.mem_cons, List.not_mem_nil, or_false] at hc
      rcases hc with rfl | rfl | rfl <;> rfl
    simp only [cellEntries, hdrop]
  have hread := f.spelled.read_eq (f := fun c : CellSpec => [CellEntry.mk c.number.1 (some (asRead c))]) hsep
    fun c hc s hs rest => cellEntries_read (hports c hc) hs rest
  rw [f.registerSpec_value, readConcatenatedString_joined f.pieces_ne, hread]

/-- A register whose cells fit is stored. -/
theorem apply_register (f : RegisterFile) (hfits : ∀ c ∈ f.cells, c.Fits) {dev : BSDLDevice} (hdev : Shows [] dev) :
    ∃ dev', f.registerSpec.statement.apply dev = some dev' ∧ Shows f.cells dev' := by
  rw [apply_boundaryRegister f.registerSpec_name, entries_register f fun c hc => (hfits c hc).not_subscripted]
  have hroom : Shows [] (if dev.boundaryCells = [] ∧ 0 < dev.boundaryLength then
      { dev with boundaryCells := resizeCells dev.boundaryCells dev.boundaryLength } else dev) := by
    split
    · exact hdev.resize nofun _
    · exact hdev
  exact hroom.storeEntries hfits f.nodup

/-- The register is read as it is described if and only if no other declaration throws and every cell fits:
no port has a subscript, the parser has the words for the function and for the disable result, and the
numbers are within their limits. -/
theorem register_read_iff {source : Text} {f : RegisterFile} (hs : Spells source f.tokens) :
    (∃ dev, parseString source = some dev ∧ Shows f.cells dev) ↔
      (∀ a, .specified a ∈ f.before ++ f.after → ¬a.statement.Throws) ∧ ∀ c ∈ f.cells, c.Fits := by
  have hdecl : ∀ a, .specified a ∈ f.before ++ f.after → .specified a ∈ f.declarations := by
    intro a ha
    rw [f.declarations_eq]
    rcases List.mem_append.mp ha with ha | ha
    · exact List.mem_append_left _ ha
    · exact List.mem_append_right _ (List.mem_cons_of_mem _ ha)
  constructor
  · rintro ⟨dev, hd, hshows⟩
    refine ⟨fun a ha hthrows => ?_, fun c hc => ?_⟩
    · rw [(parseString_file_eq_none hs).mpr ⟨_, mem_statements.mpr ⟨a, hdecl a ha, rfl⟩, hthrows⟩] at hd
      cases hd
    · obtain ⟨cell, hcell, hat⟩ := hshows.cell c hc
      obtain ⟨hname, hcontrol⟩ := allReadable_file hs hd cell (List.mem_of_getElem? hat)
      obtain ⟨function, hf, hcell⟩ := Option.bind_eq_some_iff.mp hcell
      obtain ⟨result, hr, rfl⟩ := Option.map_eq_some_iff.mp hcell
      have hplaced : Placed dev := placed_empty.changes (parseString_changes hd)
      refine ⟨?_, Option.isSome_iff_exists.mpr ⟨_, hf⟩, Option.isSome_iff_exists.mpr ⟨_, hr⟩, ?_, fun n hn => ?_⟩
      · cases hport : c.port with
        | subscripted name index =>
          refine absurd ?_ hname
          simp [hport, CellPort.text]
        | _ => rfl
      · have hlt := (List.getElem?_eq_some_iff.mp hat).1
        rw [hplaced.length_eq] at hlt
        exact lt_of_lt_of_le hlt hplaced.length_le
      · dsimp only at hcontrol
        rw [hn] at hcontrol
        exact Int.ofNat_le.mp hcontrol
  · rintro ⟨hothers, hfits⟩
    have hregister : ¬f.registerSpec.statement.Throws := by
      have hempty : Shows [] ({} : BSDLDevice) := ⟨nofun, nofun⟩
      obtain ⟨dev', hd, -⟩ := apply_register f hfits hempty
      have hmem : .specified f.registerSpec ∈ f.declarations := by simp [f.declarations_eq]
      intro hthrows
      rw [(apply_statements_eq_none hs (mem_statements.mpr ⟨_, hmem, rfl⟩) {}).mpr hthrows] at hd
      cases hd
    have hsome : parseString source ≠ none := by
      intro h
      obtain ⟨s, hm, hthrows⟩ := (parseString_file_eq_none hs).mp h
      obtain ⟨a, ha, rfl⟩ := mem_statements.mp hm
      rw [f.declarations_eq, List.mem_append, List.mem_cons] at ha
      rcases ha with ha | ha | ha
      · exact hothers a (List.mem_append_left _ ha) hthrows
      · obtain rfl := Declaration.specified.inj ha
        exact hregister hthrows
      · exact hothers a (List.mem_append_right _ ha) hthrows
    obtain ⟨dev, hd⟩ := Option.ne_none_iff_exists'.mp hsome
    refine ⟨dev, hd, ?_⟩
    obtain ⟨pins, he⟩ := parseString_file hs
    rw [he] at hd
    obtain ⟨dev₃, h₃, rfl⟩ := Option.map_eq_some_iff.mp hd
    rw [BsdlFile.statements, f.declarations_eq, List.flatMap_append, List.foldlM_append] at h₃
    obtain ⟨dev₁, h₁, h₃⟩ := Option.bind_eq_some_iff.mp h₃
    rw [List.flatMap_cons, Declaration.statements, List.singleton_append, List.foldlM_cons] at h₃
    obtain ⟨dev₂, h₂, h₃⟩ := Option.bind_eq_some_iff.mp h₃
    obtain ⟨dev₂', h₂', hcells⟩ := apply_register f hfits (shows_before rfl h₁)
    obtain rfl := Option.some.inj (h₂.symm.trans h₂')
    have hall := shows_after hcells h₃
    exact ⟨hall.cell, hall.other⟩

/-! ### A register that is not read as it is meant -/

/-- The number 0. -/
def zero : NumberText := ⟨['0'], by decide, by decide⟩

/-- The number 2. -/
def two : NumberText := ⟨['2'], by decide, by decide⟩

/-- `attribute BOUNDARY_REGISTER of D : entity is "0 (BC_1, MIO(0), OUTPUT3, X), " & "2 (BC_1, B, INPUT, X)";`. -/
def mioRegister : AttributeSpec :=
  ⟨"BOUNDARY_REGISTER".toList, [ident ['D'], ⟨.colon, [':']⟩, ident "ENTITY".toList],
    joined ["0 (BC_1, MIO(0), OUTPUT3, X), ".toList, "2 (BC_1, B, INPUT, X)".toList], is_notMem_target, by decide, by decide⟩

/-- A file with a cell at a subscripted port, and one after it. -/
def subscriptedPort : RegisterFile where
  name := ['D']
  generic := none
  ports := ⟨⟨⟨"MIO".toList, some ['0'], by decide⟩, [], .inout, .bit⟩, [⟨⟨['B'], none, by decide⟩, [], .in, .bit⟩]⟩
  before := []
  registerSpec := mioRegister
  after := [.other [ident "END".toList, ident ['D'], semicolon] not_reserved_end]
  declarations := [.specified mioRegister, .other [ident "END".toList, ident ['D'], semicolon] not_reserved_end]
  declarations_eq := rfl
  registerSpec_name := rfl
  registerSpec_only a ha := by simp at ha
  pieces := ["0 (BC_1, MIO(0), OUTPUT3, X), ".toList, "2 (BC_1, B, INPUT, X)".toList]
  pieces_ne := by decide
  registerSpec_value := rfl
  cells :=
    [⟨zero, "BC_1".toList, .subscripted "MIO".toList zero, .known .output3, none, .none⟩,
      ⟨two, "BC_1".toList, .plain ['B'], .known .input, none, .none⟩]
  spelled := by
    have hnone : Blank [] := by simp [Blank]
    have hblank : Blank [' '] := by simp [Blank]
    have hword : ∀ s : Text, s ≠ [] → s.all isIdent → s.map Char.toUpper = s → Written s s := fun s hne hall hup =>
      ⟨hne, List.all_eq_true.mp hall, hup⟩
    have hport : CellPort.Spelled (.subscripted "MIO".toList zero) "MIO(0)".toList :=
      ⟨"MIO".toList, [], [], [], hword _ (by decide) (by decide) (by decide), hnone, hnone, hnone, by decide⟩
    have hfields : ∀ (port function : Text) (P Q : Text → Prop), P port → Q function →
        Separated (fun (field : Text → Prop) t => field t) [Written "BC_1".toList, P, Q, Written ['X']]
          ("BC_1".toList ++ ',' :: ([' '] ++ (port ++ ',' :: ([' '] ++ (function ++ ',' :: " X".toList))))) := by
      intro port function P Q hp hq
      exact .cons (b := []) (s := "BC_1".toList) (c := []) hnone (hword _ (by decide) (by decide) (by decide)) hnone
        (.cons (b := [' ']) (s := port) (c := []) hblank hp hnone
          (.cons (b := [' ']) (s := function) (c := []) hblank hq hnone
            (.one (b := [' ']) (s := ['X']) (c := []) hblank (hword _ (by decide) (by decide) (by decide)) hnone)))
    have h₁ : CellSpec.Spelled ⟨zero, "BC_1".toList, .subscripted "MIO".toList zero, .known .output3, none, .none⟩
        "0 (BC_1, MIO(0), OUTPUT3, X)".toList :=
      ⟨[' '], _, hblank, hfields _ "OUTPUT3".toList _ _ hport (hword _ (by decide) (by decide) (by decide)), by decide⟩
    have h₂ : CellSpec.Spelled ⟨two, "BC_1".toList, .plain ['B'], .known .input, none, .none⟩
        "2 (BC_1, B, INPUT, X)".toList :=
      ⟨[' '], _, hblank, hfields ['B'] "INPUT".toList _ _ (hword _ (by decide) (by decide) (by decide))
        (hword _ (by decide) (by decide) (by decide)), by decide⟩
    exact .cons (b := []) (c := []) hnone h₁ hnone (.one (b := [' ']) (c := []) hblank h₂ hnone)
  nodup := by decide
  lengths a ha := by simp at ha

theorem subscriptedPort_spells : Spells (spaced subscriptedPort.tokens) subscriptedPort.tokens :=
  spells_spaced (by decide)

/-- The port loses its parenthesis, and the other cell goes to the index 3, for the digit of `OUTPUT3`. -/
theorem subscriptedPort_not_read : Spells (spaced subscriptedPort.tokens) subscriptedPort.tokens ∧
    (parseString (spaced subscriptedPort.tokens)).map (fun dev => dev.boundaryCells.map BoundaryCell.pinName) =
      some ["MIO(0".toList, [], [], ['B']] ∧
    ¬∃ dev, parseString (spaced subscriptedPort.tokens) = some dev ∧ Shows subscriptedPort.cells dev := by
  refine ⟨subscriptedPort_spells, by decide +kernel, ?_⟩
  rintro ⟨dev, hd, hshows⟩
  obtain ⟨cell, hcell, hat⟩ := hshows.cell _ List.mem_cons_self
  cases hcell
  have hname := (allReadable_file subscriptedPort_spells hd _ (List.mem_of_getElem? hat)).1
  exact absurd hname (by decide)

theorem subscriptedPort_iff :
    (∃ dev, parseString (spaced subscriptedPort.tokens) = some dev ∧ Shows subscriptedPort.cells dev) ↔
      (∀ a, .specified a ∈ subscriptedPort.before ++ subscriptedPort.after → ¬a.statement.Throws) ∧
        ∀ c ∈ subscriptedPort.cells, c.Fits :=
  register_read_iff subscriptedPort_spells

end BSDLParser

end OwlTap.Bsdl
