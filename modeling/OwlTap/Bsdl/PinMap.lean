import OwlTap.Bsdl.File

/-!
# Package pins

The map from ports to the pins of a package stands in a constant of the type `PIN_MAP_STRING`; the
attribute `PIN_MAP` names the generic that names the constant. The parser knows no constants: it looks
for a string in the attribute, and so the device has no package pins (`packagePinMap_exact_iff`).
-/

namespace OwlTap.Bsdl

/-! ### The constant -/

/-- An entry of a pin map. -/
inductive PinEntry where
  /-- `PORT : PIN`. -/
  | scalar (port pin : Text)
  /-- `PORT : ( PIN , ... , PIN )`. -/
  | vector (port : Text) (pins : List Text)

namespace PinEntry

/-- The port of the entry. -/
def port : PinEntry → Text
  | scalar port _ => port
  | vector port _ => port

/-- The pin of a scalar port. -/
def scalar? : PinEntry → Option (Text × Text)
  | scalar port pin => some (port, pin)
  | vector _ _ => none

/-- The ways to write an entry. -/
inductive Spelled : PinEntry → Text → Prop where
  | scalar {port pin s t b c : Text} : Written port s → Written pin t → Blank b → Blank c →
      Spelled (.scalar port pin) (s ++ (b ++ ':' :: (c ++ t)))
  | vector {port s list b c : Text} {pins : List Text} : Written port s → Separated Written pins list →
      Blank b → Blank c → Spelled (.vector port pins) (s ++ (b ++ ':' :: (c ++ '(' :: (list ++ [')']))))

end PinEntry

/-- `constant NAME : PIN_MAP_STRING := "..." & ... & "...";`. -/
structure PinMapConstant where
  /-- The name of the package. -/
  name : Text
  /-- The name is not a reserved word. -/
  not_reserved : name ∉ reserved
  /-- The pieces of the string. -/
  pieces : List Text
  /-- There is one at least. -/
  pieces_ne : pieces ≠ []
  /-- What the string says. -/
  entries : List PinEntry
  /-- The string says it. -/
  spelled : Separated PinEntry.Spelled entries pieces.flatten
  /-- No port is mapped twice. -/
  nodup : (entries.map PinEntry.port).Nodup

namespace PinMapConstant

/-- The tokens of the constant. -/
def tokens (c : PinMapConstant) : List Token :=
  ident "CONSTANT".toList :: ident c.name :: ⟨.colon, [':']⟩ :: ident "PIN_MAP_STRING".toList ::
    ⟨.assign, [':', '=']⟩ :: (joined c.pieces ++ [semicolon])

/-- The scalar ports, each with its pin. -/
def scalars (c : PinMapConstant) : List (Text × Text) := c.entries.filterMap PinEntry.scalar?

/-- The constant as a declaration: no reserved word stands in it. -/
def declaration (c : PinMapConstant) : Declaration :=
  .other c.tokens fun word hw hm => by
    have hne : ∀ {name : Text}, ident word = ident name → word = name := congrArg Token.value
    simp only [tokens, List.mem_cons, List.mem_append, List.not_mem_nil, or_false] at hm
    rcases hm with hm | hm | hm | hm | hm | hm | hm
    · rw [hne hm] at hw; exact absurd hw (by decide)
    · exact c.not_reserved (hne hm ▸ hw)
    · cases hm
    · rw [hne hm] at hw; exact absurd hw (by decide)
    · cases hm
    · exact joined_type hm rfl
    · cases hm

end PinMapConstant

/-- A file with a pin map. -/
structure PinMapFile extends BsdlFile where
  /-- The pin map. -/
  constant : PinMapConstant
  /-- It is one of the declarations. -/
  constant_mem : constant.declaration ∈ declarations
  /-- The attribute `PIN_MAP` names a pin map, and is no string. -/
  pin_map_named : ∀ a, .specified a ∈ declarations → a.name = "PIN_MAP".toList ∨ a.name = "PIN_MAP_STRING".toList →
    ∀ t ∈ a.value, t.type ≠ .stringLiteral

namespace BSDLParser

/-- Without a string the attribute maps no pin. -/
theorem applyValue_named {name : Text} {value : List Token} (hname : name = "PIN_MAP".toList ∨ name = "PIN_MAP_STRING".toList)
    (hvalue : ∀ t ∈ value, t.type ≠ .stringLiteral) (dev : BSDLDevice) : applyValue name value dev = some dev := by
  have hpeek : peek value ≠ .stringLiteral := by
    cases value with
    | nil => exact nofun
    | cons t ts => exact hvalue t List.mem_cons_self
  have hempty : (parsePinMap value dev).2 = dev := by
    rw [parsePinMap, readConcatenatedString, if_neg hpeek]
    rfl
  unfold applyValue
  rcases hname with rfl | rfl
  · exact congrArg some hempty
  · exact congrArg some hempty

/-- No declaration of such a file maps a pin. -/
theorem packagePinMap_empty {source : Text} {f : PinMapFile} (hs : Spells source f.tokens) {dev : BSDLDevice}
    (hd : parseString source = some dev) : dev.packagePinMap = ∅ := by
  obtain ⟨pins, he⟩ := parseString_file hs
  rw [he] at hd
  obtain ⟨dev₁, h₁, rfl⟩ := Option.map_eq_some_iff.mp hd
  have hempty : dev₁.packagePinMap = ∅ := by
    refine declarations_keep (P := fun dev => dev.packagePinMap = ∅) (fun a hmem dev dev' hp ha => ?_) rfl h₁
    by_cases hname : a.name = "PIN_MAP".toList ∨ a.name = "PIN_MAP_STRING".toList
    · have hvalue : ∀ t ∈ a.value ++ [semicolon], t.type ≠ .stringLiteral := by
        intro t ht
        rcases List.mem_append.mp ht with ht | ht
        · exact f.pin_map_named a hmem hname t ht
        · obtain rfl := List.mem_singleton.mp ht
          exact nofun
      have ha : applyValue a.name (a.value ++ [semicolon]) dev = some dev' := ha
      rw [applyValue_named hname hvalue] at ha
      cases ha
      exact hp
    · have heff : Effect dev a.name dev' := applyValue_effect ha
      generalize a.name = name at hname heff
      cases heff with
      | pinMap _ _ h => exact absurd h hname
      | _ => exact hp
  exact hempty

/-- The device has exactly the package pins that the constant gives to scalar ports if and only if it
gives none. -/
theorem packagePinMap_exact_iff {source : Text} {f : PinMapFile} (hs : Spells source f.tokens) {dev : BSDLDevice}
    (hd : parseString source = some dev) :
    (∀ port pin, dev.packagePinMap.lookup port = some pin ↔ (port, pin) ∈ f.constant.scalars) ↔
      f.constant.scalars = [] := by
  rw [packagePinMap_empty hs hd]
  constructor
  · intro h
    refine List.eq_nil_iff_forall_not_mem.mpr fun e he => ?_
    have := (h e.1 e.2).mpr he
    rw [AList.lookup_empty] at this
    cases this
  · intro h port pin
    rw [AList.lookup_empty, h]
    exact ⟨nofun, fun hm => absurd hm List.not_mem_nil⟩

/-- `constant P : PIN_MAP_STRING := "TDI : " & "1";`. -/
def scalarConstant : PinMapConstant where
  name := ['P']
  not_reserved := by decide
  pieces := ["TDI : ".toList, ['1']]
  pieces_ne := by decide
  entries := [.scalar "TDI".toList ['1']]
  spelled := by
    have hblank : Blank [' '] := by simp [Blank]
    have hport : Written "TDI".toList "TDI".toList := ⟨by decide, by decide, by decide⟩
    have hpin : Written ['1'] ['1'] := ⟨by decide, by decide, by decide⟩
    have hentry : PinEntry.Spelled (.scalar "TDI".toList ['1']) "TDI : 1".toList :=
      .scalar (b := [' ']) (c := [' ']) hport hpin hblank hblank
    exact .one (b := []) (c := []) (by simp [Blank]) hentry (by simp [Blank])
  nodup := by decide

/-- A file that maps the port `TDI` to pin 1. -/
def scalarMap : PinMapFile where
  name := ['D']
  generic := none
  ports := ⟨⟨⟨"TDI".toList, none, not_reserved_tdi⟩, [], .in, .bit⟩, []⟩
  declarations :=
    [.specified ⟨"PIN_MAP".toList, [ident ['D'], ⟨.colon, [':']⟩, ident "ENTITY".toList],
      [ident "PHYSICAL_PIN_MAP".toList], is_notMem_target, by decide, by decide⟩,
    scalarConstant.declaration,
    .other [ident "END".toList, ident ['D'], semicolon] not_reserved_end]
  constant := scalarConstant
  constant_mem := by simp
  pin_map_named a ha _ := by
    simp only [PinMapConstant.declaration, List.mem_cons, List.not_mem_nil, or_false, reduceCtorEq,
      Declaration.specified.injEq] at ha
    subst ha
    decide

/-- The file, with a blank before each token. -/
theorem scalarMap_spells : Spells (spaced scalarMap.tokens) scalarMap.tokens := spells_spaced (by decide)

theorem scalarMap_parses : ∃ dev, parseString (spaced scalarMap.tokens) = some dev :=
  Option.isSome_iff_exists.mp (by decide +kernel)

theorem scalarMap_exact_iff : ∃ dev, parseString (spaced scalarMap.tokens) = some dev ∧
    ((∀ port pin, dev.packagePinMap.lookup port = some pin ↔ (port, pin) ∈ scalarMap.constant.scalars) ↔
      scalarMap.constant.scalars = []) := by
  obtain ⟨dev, hd⟩ := scalarMap_parses
  exact ⟨dev, hd, packagePinMap_exact_iff scalarMap_spells hd⟩

/-- The pin is not in the device. -/
theorem scalarMap_lost : Spells (spaced scalarMap.tokens) scalarMap.tokens ∧
    ("TDI".toList, ['1']) ∈ scalarMap.constant.scalars ∧
    ∃ dev, parseString (spaced scalarMap.tokens) = some dev ∧ dev.packagePinMap.lookup "TDI".toList = none := by
  obtain ⟨dev, hd⟩ := scalarMap_parses
  refine ⟨scalarMap_spells, by decide, dev, hd, ?_⟩
  rw [packagePinMap_empty scalarMap_spells hd]
  rfl

end BSDLParser

end OwlTap.Bsdl
