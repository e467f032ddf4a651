import Mathlib.Data.List.AList
import Mathlib.Data.List.Induction
import OwlTap.Mcp.JsonSchema

/-!
# The registry of tools

The registry keeps the tools in the order in which their names came first, and finds a tool by its
name through an index of their places. A tool registered again replaces the earlier one in its place
(`spec?_registerAll`, `names_registerAll`).
-/

namespace OwlTap.Mcp

open OwlTap

/-- What a handler throws. -/
inductive Exception where
  | invalidArgument (what : String)
  | runtimeError (what : String)
  /-- Any other `std::exception`. -/
  | standard (what : String)
  /-- Anything else. -/
  | unknown
  deriving DecidableEq

/-- Metadata and handler for one tool, which acts on what there is behind it. -/
structure ToolSpec (σ : Type) where
  name : String
  description : String
  /-- JSON Schema object. -/
  inputSchema : Json
  handler : (params : Json) → σ → Except Exception Json × σ

/-- The registry: each tool is where the index says, and nowhere else. -/
structure ToolRegistry (σ : Type) where
  tools : List (ToolSpec σ) := []
  index : AList fun _ : String => ℕ := ∅
  /-- The index is right. -/
  lookup_iff : ∀ name i, index.lookup name = some i ↔ (tools[i]?).map ToolSpec.name = some name := by
    intro name i
    simp

namespace ToolRegistry

variable {σ : Type}

/-- The tools and the index after a registration. -/
def registered (r : ToolRegistry σ) (spec : ToolSpec σ) : List (ToolSpec σ) × AList fun _ : String => ℕ :=
  match r.index.lookup spec.name with
  | some place => (r.tools.set place spec, r.index)
  | none => (r.tools ++ [spec], r.index.insert spec.name r.tools.length)

/-- A name that is in the index is that of the tool at its place. -/
theorem registered_of_some {r : ToolRegistry σ} {spec : ToolSpec σ} {place : ℕ}
    (h : r.index.lookup spec.name = some place) : r.registered spec = (r.tools.set place spec, r.index) := by
  rw [registered, h]

/-- A name that is not there yet is added behind. -/
theorem registered_of_none {r : ToolRegistry σ} {spec : ToolSpec σ} (h : r.index.lookup spec.name = none) :
    r.registered spec = (r.tools ++ [spec], r.index.insert spec.name r.tools.length) := by
  rw [registered, h]

theorem name_at {r : ToolRegistry σ} {name : String} {place : ℕ} (h : r.index.lookup name = some place) :
    place < r.tools.length ∧ (r.tools[place]?).map ToolSpec.name = some name := by
  have hname := (r.lookup_iff name place).mp h
  obtain ⟨old, hold, -⟩ := Option.map_eq_some_iff.mp hname
  exact ⟨(List.getElem?_eq_some_iff.mp hold).1, hname⟩

/-- The index is right after a registration. -/
theorem lookup_registered (r : ToolRegistry σ) (spec : ToolSpec σ) (name : String) (i : ℕ) :
    (r.registered spec).2.lookup name = some i ↔ ((r.registered spec).1[i]?).map ToolSpec.name = some name := by
  cases h : r.index.lookup spec.name with
  | some place =>
    obtain ⟨hlt, hname⟩ := name_at h
    rw [registered_of_some h, r.lookup_iff, List.getElem?_set]
    by_cases hi : place = i
    · subst hi
      rw [if_pos rfl, if_pos hlt, Option.map_some, hname]
    · rw [if_neg hi]
  | none =>
    have hnone : ∀ i, ¬(r.tools[i]?).map ToolSpec.name = some spec.name := fun i hi => by
      rw [← r.lookup_iff, h] at hi
      cases hi
    have hlen : (r.tools ++ [spec]).length = r.tools.length + 1 := List.length_append
    rw [registered_of_none h]
    by_cases hname : name = spec.name
    · subst hname
      rw [AList.lookup_insert]
      rcases Nat.lt_trichotomy i r.tools.length with hlt | rfl | hgt
      · rw [List.getElem?_append_left hlt]
        exact ⟨fun hi => absurd (Option.some.inj hi) (Nat.ne_of_gt hlt), fun hi => absurd hi (hnone i)⟩
      · rw [List.getElem?_concat_length]
        exact ⟨fun _ => rfl, fun _ => rfl⟩
      · rw [List.getElem?_eq_none (hlen ▸ hgt)]
        exact ⟨fun hi => absurd (Option.some.inj hi) (Nat.ne_of_lt hgt), fun hi => by cases hi⟩
    · rw [AList.lookup_insert_ne hname, r.lookup_iff]
      rcases Nat.lt_trichotomy i r.tools.length with hlt | rfl | hgt
      · rw [List.getElem?_append_left hlt]
      · rw [List.getElem?_concat_length, List.getElem?_eq_none (Nat.le_refl _)]
        exact ⟨fun hi => (by cases hi), fun hi => absurd (Option.some.inj hi).symm hname⟩
      · rw [List.getElem?_eq_none (Nat.le_of_lt hgt), List.getElem?_eq_none (hlen ▸ hgt)]

/-- Register a tool. Replaces any existing registration with the same name. -/
def registerTool (r : ToolRegistry σ) (spec : ToolSpec σ) : ToolRegistry σ :=
  ⟨(r.registered spec).1, (r.registered spec).2, r.lookup_registered spec⟩

/-- The tool with a name. -/
def spec? (r : ToolRegistry σ) (name : String) : Option (ToolSpec σ) := (r.index.lookup name).bind (r.tools[·]?)

/-- Produce the tools/list result payload. -/
def listTools (r : ToolRegistry σ) : Json :=
  .obj [("tools", .arr (r.tools.map fun t =>
    .obj [("name", .str t.name), ("description", .str t.description), ("inputSchema", t.inputSchema)]))]

/-- Parameters that have been left out are an empty object. -/
def effectiveParams (params : Json) : Json := if params.isNull then .obj [] else params

/-- Invoke a tool and return the raw handler result. -/
def callToolRaw (r : ToolRegistry σ) (name : String) (params : Json) (s : σ) : Except Exception Json × σ :=
  match r.spec? name with
  | none => (.error (.runtimeError ("unknown tool: " ++ name)), s)
  | some spec =>
    match validateParams spec.inputSchema (effectiveParams params) with
    | some err => (.error (.invalidArgument err), s)
    | none => spec.handler (effectiveParams params) s

/-- Invoke a tool, and wrap the result as a content array. -/
def callTool (dump : Json → String) (r : ToolRegistry σ) (name : String) (params : Json) (s : σ) :
    Except Exception Json × σ :=
  let (result, s) := r.callToolRaw name params s
  (result.map fun result => .arr [.obj [("type", .str "text"), ("text", .str (dump result))]], s)

def hasTool (r : ToolRegistry σ) (name : String) : Bool := (r.index.lookup name).isSome

/-! ### Registrations -/

/-- A registry with these tools, registered in order. -/
def registerAll (specs : List (ToolSpec σ)) : ToolRegistry σ := specs.foldl registerTool {}

/-- What the index finds is a tool of that name. -/
theorem spec?_eq_some_iff {r : ToolRegistry σ} {name : String} {spec : ToolSpec σ} :
    r.spec? name = some spec ↔ spec ∈ r.tools ∧ spec.name = name := by
  rw [spec?, Option.bind_eq_some_iff]
  constructor
  · rintro ⟨i, hi, hspec⟩
    rw [r.lookup_iff, hspec] at hi
    exact ⟨List.mem_of_getElem? hspec, Option.some.inj hi⟩
  · rintro ⟨hmem, rfl⟩
    obtain ⟨i, hi⟩ := List.mem_iff_getElem?.mp hmem
    exact ⟨i, (r.lookup_iff _ _).mpr (by rw [hi]; rfl), hi⟩

theorem hasTool_iff {r : ToolRegistry σ} {name : String} : r.hasTool name = true ↔ ∃ spec, r.spec? name = some spec := by
  rw [hasTool, Option.isSome_iff_exists]
  constructor
  · rintro ⟨i, hi⟩
    obtain ⟨spec, hspec, -⟩ := Option.map_eq_some_iff.mp ((r.lookup_iff _ _).mp hi)
    exact ⟨spec, by rw [spec?, hi]; exact hspec⟩
  · rintro ⟨spec, hspec⟩
    obtain ⟨i, hi, -⟩ := Option.bind_eq_some_iff.mp hspec
    exact ⟨i, hi⟩

/-- A tool is found under its name, and the others as before. -/
theorem spec?_registerTool (r : ToolRegistry σ) (spec : ToolSpec σ) (name : String) :
    (r.registerTool spec).spec? name = if spec.name = name then some spec else r.spec? name := by
  have hspec? : (r.registerTool spec).spec? name =
      ((r.registered spec).2.lookup name).bind fun i => (r.registered spec).1[i]? := rfl
  rw [hspec?]
  cases h : r.index.lookup spec.name with
  | some place =>
    obtain ⟨hlt, hname⟩ := name_at h
    rw [registered_of_some h]
    by_cases hsame : spec.name = name
    · subst hsame
      rw [if_pos rfl, h, Option.bind_some, List.getElem?_set_self hlt]
    · rw [if_neg hsame, spec?]
      refine Option.bind_congr fun i hi => List.getElem?_set_ne ?_
      rintro rfl
      rw [r.lookup_iff, hname] at hi
      exact hsame (Option.some.inj hi)
  | none =>
    rw [registered_of_none h]
    by_cases hsame : spec.name = name
    · subst hsame
      rw [if_pos rfl, AList.lookup_insert, Option.bind_some, List.getElem?_concat_length]
    · rw [if_neg hsame, spec?, AList.lookup_insert_ne (Ne.symm hsame)]
      exact Option.bind_congr fun i hi => List.getElem?_append_left (name_at hi).1

/-- A name comes once, where it came first. -/
theorem names_registerTool (r : ToolRegistry σ) (spec : ToolSpec σ) : (r.registerTool spec).tools.map ToolSpec.name =
    if spec.name ∈ r.tools.map ToolSpec.name then r.tools.map ToolSpec.name
    else r.tools.map ToolSpec.name ++ [spec.name] := by
  have htools : (r.registerTool spec).tools = (r.registered spec).1 := rfl
  rw [htools]
  cases h : r.index.lookup spec.name with
  | some place =>
    have hname := (name_at h).2
    rw [← List.getElem?_map] at hname
    rw [registered_of_some h, if_pos (List.mem_of_getElem? hname), List.map_set]
    obtain ⟨hlt, hat⟩ := List.getElem?_eq_some_iff.mp hname
    rw [← hat, List.set_getElem_self]
  | none =>
    rw [registered_of_none h, if_neg, List.map_append]
    · rfl
    · intro hmem
      obtain ⟨i, hi⟩ := List.mem_iff_getElem?.mp hmem
      rw [List.getElem?_map, ← r.lookup_iff, h] at hi
      cases hi

/-- The tool that was registered last under a name is the one that is found. -/
theorem spec?_registerAll (specs : List (ToolSpec σ)) (name : String) :
    (registerAll specs).spec? name = specs.reverse.find? fun spec => spec.name = name := by
  induction specs using List.reverseRecOn with
  | nil => rfl
  | append_singleton specs spec ih =>
    rw [registerAll, List.foldl_append, List.foldl_cons, List.foldl_nil, ← registerAll, spec?_registerTool, ih,
      List.reverse_append, List.reverse_singleton, List.singleton_append, List.find?_cons]
    split
    next h => rw [decide_eq_true h]
    next h => rw [decide_eq_false h]

/-- The names of the tools, each once, in the order in which they came first. -/
theorem names_registerAll (specs : List (ToolSpec σ)) :
    (registerAll specs).tools.map ToolSpec.name = (specs.map ToolSpec.name).eraseDups := by
  induction specs using List.reverseRecOn with
  | nil => rfl
  | append_singleton specs spec ih =>
    rw [registerAll, List.foldl_append, List.foldl_cons, List.foldl_nil, ← registerAll, names_registerTool, ih,
      List.map_append, List.eraseDups_append, List.map_singleton]
    by_cases h : spec.name ∈ specs.map ToolSpec.name
    · have hnone : [spec.name].removeAll (specs.map ToolSpec.name) = [] := by
        rw [List.removeAll, List.filter_singleton]
        simp [h]
      rw [if_pos (List.mem_eraseDups.mpr h), hnone]
      exact (List.append_nil _).symm
    · have hsame : [spec.name].removeAll (specs.map ToolSpec.name) = [spec.name] := by
        rw [List.removeAll, List.filter_singleton]
        simp [h]
      rw [if_neg fun hmem => h (List.mem_eraseDups.mp hmem), hsame]
      rfl

end ToolRegistry

end OwlTap.Mcp
