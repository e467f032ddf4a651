import OwlTap.Base.Json

/-!
# Parameters and their schemas

`validateParams` checks the parameters of a tool against a part of JSON Schema: the type, the
required members, the types of the members, and the same again in members that are objects. What
passes is what `Conforms` describes, at any depth (`validateParams_eq_none_iff`).
-/

namespace OwlTap

namespace Json

def isString : Json → Bool
  | str _ => true
  | _ => false

def isNumberInteger : Json → Bool
  | int _ => true
  | _ => false

def isBoolean : Json → Bool
  | bool _ => true
  | _ => false

def isNull : Json → Bool
  | null => true
  | _ => false

end Json

namespace Mcp

/-- Map a JSON Schema type name to a predicate; an unknown type passes through. -/
def checkType (typeName : String) (v : Json) : Bool :=
  if typeName = "string" then v.isString
  else if typeName = "integer" then v.isNumberInteger
  else if typeName = "number" then v.isNumberInteger
  else if typeName = "boolean" then v.isBoolean
  else if typeName = "null" then v.isNull
  else if typeName = "array" then v.isArray
  else if typeName = "object" then v.isObject
  else true

/-- The first required field that is missing, unless the schema lists none. -/
def missingField (schema params : Json) : Option String :=
  match schema.get? "required" with
  | some (.arr fields) =>
    fields.findSome? fun field =>
      match field with
      | .str name => if params.contains name then none else some ("missing required parameter: " ++ name)
      | _ => none
  | _ => none

/-- The type that a schema asks for. -/
def typeOf (schema : Json) : Option String :=
  match schema.get? "type" with
  | some (.str type) => some type
  | _ => none

/-- The members of a schema's properties. -/
def propertiesOf (schema : Json) : List (String × Json) :=
  match schema.get? "properties" with
  | some (.obj properties) => properties
  | _ => []

theorem sizeOf_lt_of_mem_lookup {key : String} {v : Json} {members : List (String × Json)}
    (h : members.lookup key = some v) : sizeOf v < sizeOf members := by
  induction members with
  | nil => cases h
  | cons member members ih =>
    obtain ⟨k, w⟩ := member
    rw [List.lookup_cons] at h
    simp only [List.cons.sizeOf_spec, Prod.mk.sizeOf_spec]
    split at h
    · obtain rfl := Option.some.inj h
      omega
    · have := ih h
      omega

/-- A property is smaller than the schema that has it. -/
theorem sizeOf_lt_of_mem_properties {schema : Json} {p : String × Json} (h : p ∈ propertiesOf schema) :
    sizeOf p.2 < sizeOf schema := by
  rw [propertiesOf] at h
  split at h
  next properties hget =>
    cases schema with
    | obj members =>
      have hlt := sizeOf_lt_of_mem_lookup hget
      have hp := List.sizeOf_lt_of_mem h
      have hpair : sizeOf p.2 < sizeOf p := by
        cases p
        simp only [Prod.mk.sizeOf_spec]
        omega
      simp only [Json.obj.sizeOf_spec] at hlt ⊢
      omega
    | _ => cases hget
  · cases h

/-- The error of parameters that are not of the type that the schema asks for. -/
def typeMismatch (schema params : Json) : Option String :=
  (typeOf schema).bind fun type =>
    if type ≠ "object" ∧ ¬checkType type params then some ("params: expected type " ++ type) else none

/-- The error of a parameter that is not of the type that its schema asks for. -/
def propertyMismatch (name : String) (schema v : Json) : Option String :=
  (typeOf schema).bind fun type =>
    if checkType type v then none else some ("parameter '" ++ name ++ "': expected type " ++ type)

/-- Validate parameters against a JSON Schema subset: the text of the first error. -/
def validateParams (schema params : Json) : Option String :=
  if ¬schema.isObject then none
  else
    typeMismatch schema params <|> (if params.isObject then none else some "params must be an object") <|>
      missingField schema params <|> (propertiesOf schema).attach.findSome? fun p =>
        match params.get? p.1.1 with
        | none => none
        | some v =>
          if p.1.2.isObject then
            propertyMismatch p.1.1 p.1.2 v <|> if v.isObject then validateParams p.1.2 v else none
          else none
termination_by sizeOf schema
decreasing_by exact sizeOf_lt_of_mem_properties p.2

/-! ### What conforms to a schema -/

/-- What a schema describes. -/
inductive Conforms : (schema params : Json) → Prop where
  /-- A schema that is no object describes everything. -/
  | any {schema : Json} (params : Json) (h : schema.isObject = false) : Conforms schema params
  /-- The members are there that are required, and those that have a schema conform to it. -/
  | object {schema params : Json} (hschema : schema.isObject = true) (hparams : params.isObject = true)
      (htype : ∀ type, typeOf schema = some type → checkType type params = true)
      (hrequired : ∀ fields name, schema.get? "required" = some (.arr fields) → .str name ∈ fields →
        params.contains name = true)
      (hproperties : ∀ p ∈ propertiesOf schema, ∀ v, params.get? p.1 = some v → p.2.isObject = true →
        ∀ type, typeOf p.2 = some type → checkType type v = true)
      (hnested : ∀ p ∈ propertiesOf schema, ∀ v, params.get? p.1 = some v → p.2.isObject = true →
        v.isObject = true → Conforms p.2 v) : Conforms schema params

theorem missingField_eq_none_iff {schema params : Json} : missingField schema params = none ↔
    ∀ fields name, schema.get? "required" = some (.arr fields) → .str name ∈ fields → params.contains name = true := by
  rw [missingField]
  split
  next fields hget =>
    rw [hget, List.findSome?_eq_none_iff]
    constructor
    · rintro h fields' name hfields hname
      obtain rfl := Json.arr.inj (Option.some.inj hfields)
      have := h _ hname
      simp only at this
      split at this
      next hcontains => exact hcontains
      · cases this
    · intro h field hfield
      split
      next name => rw [if_pos (h fields name rfl hfield)]
      · rfl
  next hno => exact ⟨fun _ fields name hfields => absurd hfields (hno fields), fun _ => rfl⟩

theorem propertyMismatch_eq_none_iff {name : String} {schema v : Json} : propertyMismatch name schema v = none ↔
    ∀ type, typeOf schema = some type → checkType type v = true := by
  rw [propertyMismatch, Option.bind_eq_none_iff]
  refine forall₂_congr fun type _ => ?_
  rw [ite_eq_left_iff]
  exact ⟨fun h => not_not.mp fun hno => absurd (h hno) (by simp), fun h hno => absurd h hno⟩

/-- Only a type other than that of an object can be wrong in an object. -/
theorem typeMismatch_eq_none_iff {schema params : Json} (h : params.isObject = true) :
    typeMismatch schema params = none ↔ ∀ type, typeOf schema = some type → checkType type params = true := by
  rw [typeMismatch, Option.bind_eq_none_iff]
  refine forall₂_congr fun type _ => ?_
  rw [ite_eq_right_iff]
  constructor
  · intro hno
    by_cases htype : type = "object"
    · rw [htype]
      exact h
    · by_contra hcheck
      exact absurd (hno ⟨htype, hcheck⟩) (by simp)
  · rintro hcheck ⟨-, hno⟩
    exact absurd hcheck hno

/-- **Parameters pass if and only if they conform to the schema**, at any depth. -/
theorem validateParams_eq_none_iff {schema params : Json} : validateParams schema params = none ↔ Conforms schema params := by
  induction hn : sizeOf schema using Nat.strongRecOn generalizing schema params with
  | ind n ih =>
  subst hn
  rw [validateParams]
  by_cases hschema : schema.isObject = true
  · rw [if_neg (not_not.mpr hschema)]
    simp only [Option.orElse_eq_none]
    constructor
    · rintro ⟨htype, hparams, hmissing, hprops⟩
      have hparams : params.isObject = true := by
        by_contra hno
        rw [if_neg hno] at hparams
        cases hparams
      have hprop : ∀ p ∈ propertiesOf schema, ∀ v, params.get? p.1 = some v → p.2.isObject = true →
          propertyMismatch p.1 p.2 v = none ∧ (if v.isObject then validateParams p.2 v else none) = none := by
        intro p hp v hv hobject
        have := List.findSome?_eq_none_iff.mp hprops ⟨p, hp⟩ (List.mem_attach _ _)
        simp only [hv, if_pos hobject, Option.orElse_eq_none] at this
        exact this
      refine .object hschema hparams ((typeMismatch_eq_none_iff hparams).mp htype)
        (missingField_eq_none_iff.mp hmissing) (fun p hp v hv hobject => ?_) fun p hp v hv hobject hnested => ?_
      · exact propertyMismatch_eq_none_iff.mp (hprop p hp v hv hobject).1
      · have := (hprop p hp v hv hobject).2
        rw [if_pos hnested] at this
        exact (ih _ (sizeOf_lt_of_mem_properties hp) rfl).mp this
    · intro h
      cases h with
      | any _ hfalse => exact absurd hschema (by rw [hfalse]; decide)
      | object _ hparams htype hrequired hproperties hnested =>
        refine ⟨(typeMismatch_eq_none_iff hparams).mpr htype, if_pos hparams, missingField_eq_none_iff.mpr hrequired,
          List.findSome?_eq_none_iff.mpr fun p _ => ?_⟩
        split
        · rfl
        next v hv =>
          split
          next hobject =>
            rw [Option.orElse_eq_none]
            refine ⟨propertyMismatch_eq_none_iff.mpr (hproperties p.1 p.2 v hv hobject), ?_⟩
            split
            next hv' => exact (ih _ (sizeOf_lt_of_mem_properties p.2) rfl).mpr (hnested p.1 p.2 v hv hobject hv')
            · rfl
          · rfl
  · have hfalse : schema.isObject = false := Bool.eq_false_iff.mpr hschema
    rw [if_pos hschema]
    exact ⟨fun _ => .any params hfalse, fun _ => rfl⟩

end Mcp

end OwlTap
