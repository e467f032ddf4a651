import Mathlib.Algebra.Order.Ring.Int

/-!
# JSON values

Values without floating-point numbers. An object is its members, of which the first with a key is
the one that counts. The typed reads are those of the JSON library that the programs use, which
throws when a value has another type.
-/

namespace OwlTap

/-- A JSON value. -/
inductive Json where
  | null
  | bool (b : Bool)
  | int (n : Int)
  | str (s : String)
  | arr (items : List Json)
  | obj (members : List (String × Json))

namespace Json

/-! ### Equality -/

mutual

/-- Whether two values are the same. -/
def decEq : (a b : Json) → Decidable (a = b)
  | null, null => .isTrue rfl
  | bool a, bool b => decidable_of_iff (a = b) (by rw [bool.injEq])
  | int a, int b => decidable_of_iff (a = b) (by rw [int.injEq])
  | str a, str b => decidable_of_iff (a = b) (by rw [str.injEq])
  | arr a, arr b =>
    match decEqItems a b with
    | .isTrue h => .isTrue (h ▸ rfl)
    | .isFalse h => .isFalse fun e => h (arr.inj e)
  | obj a, obj b =>
    match decEqMembers a b with
    | .isTrue h => .isTrue (h ▸ rfl)
    | .isFalse h => .isFalse fun e => h (obj.inj e)
  | null, bool _ | null, int _ | null, str _ | null, arr _ | null, obj _ => .isFalse nofun
  | bool _, null | bool _, int _ | bool _, str _ | bool _, arr _ | bool _, obj _ => .isFalse nofun
  | int _, null | int _, bool _ | int _, str _ | int _, arr _ | int _, obj _ => .isFalse nofun
  | str _, null | str _, bool _ | str _, int _ | str _, arr _ | str _, obj _ => .isFalse nofun
  | arr _, null | arr _, bool _ | arr _, int _ | arr _, str _ | arr _, obj _ => .isFalse nofun
  | obj _, null | obj _, bool _ | obj _, int _ | obj _, str _ | obj _, arr _ => .isFalse nofun

/-- Whether the items of two arrays are the same. -/
def decEqItems : (a b : List Json) → Decidable (a = b)
  | [], [] => .isTrue rfl
  | [], _ :: _ => .isFalse nofun
  | _ :: _, [] => .isFalse nofun
  | v :: a, w :: b =>
    match decEq v w, decEqItems a b with
    | .isTrue h, .isTrue h' => .isTrue (h ▸ h' ▸ rfl)
    | .isFalse h, _ => .isFalse fun e => h (List.cons.inj e).1
    | _, .isFalse h => .isFalse fun e => h (List.cons.inj e).2

/-- Whether the members of two objects are the same. -/
def decEqMembers : (a b : List (String × Json)) → Decidable (a = b)
  | [], [] => .isTrue rfl
  | [], _ :: _ => .isFalse nofun
  | _ :: _, [] => .isFalse nofun
  | (k, v) :: a, (l, w) :: b =>
    if hk : k = l then
      match decEq v w, decEqMembers a b with
      | .isTrue h, .isTrue h' => .isTrue (hk ▸ h ▸ h' ▸ rfl)
      | .isFalse h, _ => .isFalse fun e => h (Prod.mk.inj (List.cons.inj e).1).2
      | _, .isFalse h => .isFalse fun e => h (List.cons.inj e).2
    else .isFalse fun e => hk (Prod.mk.inj (List.cons.inj e).1).1

end

instance : DecidableEq Json := decEq

instance : Inhabited Json := ⟨null⟩

/-! ### Access -/

/-- The member of an object with a key. -/
def get? (key : String) : Json → Option Json
  | obj members => members.lookup key
  | _ => none

/-- The items of an array. -/
def items : Json → List Json
  | arr items => items
  | _ => []

/-- Whether an object has a key. -/
def contains (key : String) (j : Json) : Bool := (j.get? key).isSome

def isArray : Json → Bool
  | arr _ => true
  | _ => false

def isObject : Json → Bool
  | obj _ => true
  | _ => false

/-! ### Typed reads -/

/-- The name of a value's type. -/
def typeName : Json → String
  | null => "null"
  | bool _ => "boolean"
  | int _ => "number"
  | str _ => "string"
  | arr _ => "array"
  | obj _ => "object"

/-- The text of a type error. -/
def typeError (type : String) (j : Json) : String :=
  "[json.exception.type_error.302] type must be " ++ type ++ ", but is " ++ j.typeName

/-- A number; a Boolean is one as well. -/
def number : Json → Except String ℤ
  | int n => .ok n
  | bool b => .ok (if b then 1 else 0)
  | j => .error (typeError "number" j)

/-- `get<int>()`. -/
def getInt (j : Json) : Except String ℤ := j.number.map fun n => (BitVec.ofInt 32 n).toInt

/-- `get<uint32_t>()`. -/
def getUInt32 (j : Json) : Except String (BitVec 32) := j.number.map (BitVec.ofInt 32)

/-- `get<bool>()`. -/
def getBool : Json → Except String Bool
  | bool b => .ok b
  | j => .error (typeError "boolean" j)

/-- `get<std::string>()`. -/
def getString : Json → Except String String
  | str s => .ok s
  | j => .error (typeError "string" j)

variable {α : Type}

/-- `value(key, default)`: the member with a key, or a default when the object has none. -/
def value (read : Json → Except String α) (key : String) (default : α) : Json → Except String α
  | obj members => (members.lookup key).elim (.ok default) read
  | j => .error ("[json.exception.type_error.306] cannot use value() with " ++ j.typeName)

end Json

end OwlTap
