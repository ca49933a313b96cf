import Mathlib.Data.List.Nodup

/-!
# JSON values

JSON values as the server's library keeps them: an object is a list of fields in insertion order,
replacing the value of a present field keeps its place, and a new field goes to the end. Numbers
are a decimal mantissa and exponent.

`Json.get?` and `Json.pointer` are the two ways the source reads a value, and `Fields.insert` is
the one way it writes into an object.
-/

/-- A JSON value; object fields are in insertion order. -/
inductive Json
  | null
  | bool (b : Bool)
  | num (mantissa exponent : Int)
  | str (s : String)
  | arr (items : List Json)
  | obj (fields : List (String × Json))

namespace Json

/-- An integer literal. -/
def ofInt (n : Int) : Json := .num n 0

mutual

/-- Structural equality; nested occurrences go through `decEqItems` and `decEqFields`. -/
def decEq : (a b : Json) → Decidable (a = b)
  | .null, .null => isTrue rfl
  | .bool a, .bool b => decidable_of_iff (a = b) (by simp)
  | .num m e, .num m' e' => decidable_of_iff (m = m' ∧ e = e') (by simp)
  | .str a, .str b => decidable_of_iff (a = b) (by simp)
  | .arr a, .arr b => match decEqItems a b with
    | isTrue h => isTrue (by rw [h])
    | isFalse h => isFalse (by simpa using h)
  | .obj a, .obj b => match decEqFields a b with
    | isTrue h => isTrue (by rw [h])
    | isFalse h => isFalse (by simpa using h)
  | .null, .bool _ | .null, .num _ _ | .null, .str _ | .null, .arr _ | .null, .obj _
  | .bool _, .null | .bool _, .num _ _ | .bool _, .str _ | .bool _, .arr _ | .bool _, .obj _
  | .num _ _, .null | .num _ _, .bool _ | .num _ _, .str _ | .num _ _, .arr _ | .num _ _, .obj _
  | .str _, .null | .str _, .bool _ | .str _, .num _ _ | .str _, .arr _ | .str _, .obj _
  | .arr _, .null | .arr _, .bool _ | .arr _, .num _ _ | .arr _, .str _ | .arr _, .obj _
  | .obj _, .null | .obj _, .bool _ | .obj _, .num _ _ | .obj _, .str _ | .obj _, .arr _ =>
    isFalse (by simp)

/-- Equality of array items. -/
def decEqItems : (a b : List Json) → Decidable (a = b)
  | [], [] => isTrue rfl
  | [], _ :: _ | _ :: _, [] => isFalse (by simp)
  | x :: xs, y :: ys => match decEq x y, decEqItems xs ys with
    | isTrue h, isTrue hs => isTrue (by rw [h, hs])
    | isFalse h, _ => isFalse (by simp [h])
    | _, isFalse h => isFalse (by simp [h])

/-- Equality of object fields, order included. -/
def decEqFields : (a b : List (String × Json)) → Decidable (a = b)
  | [], [] => isTrue rfl
  | [], _ :: _ | _ :: _, [] => isFalse (by simp)
  | (k, x) :: xs, (k', y) :: ys => match decEq x y, decEqFields xs ys with
    | isTrue h, isTrue hs => decidable_of_iff (k = k') (by simp [h, hs])
    | isFalse h, _ => isFalse (by simp [h])
    | _, isFalse h => isFalse (by simp [h])

end

instance : DecidableEq Json := decEq

/-! ### Reading -/

/-- `Value::as_str`. -/
def asStr? : Json → Option String
  | .str s => some s
  | _ => none

/-- `Value::as_bool`. -/
def asBool? : Json → Option Bool
  | .bool b => some b
  | _ => none

/-- `Value::as_array`. -/
def asArray? : Json → Option (List Json)
  | .arr items => some items
  | _ => none

/-- `Value::as_u64`, of an integer literal. -/
def asU64? : Json → Option Nat
  | .num mantissa 0 => if 0 ≤ mantissa then some mantissa.toNat else none
  | _ => none

/-- `Value::as_object`. -/
def asObject? : Json → Option (List (String × Json))
  | .obj fields => some fields
  | _ => none

@[simp] theorem asStr?_str (s : String) : (Json.str s).asStr? = some s := rfl

@[simp] theorem asArray?_arr (items : List Json) : (Json.arr items).asArray? = some items := rfl

@[simp] theorem asObject?_obj (fields : List (String × Json)) :
    (Json.obj fields).asObject? = some fields := rfl

@[simp] theorem asU64?_ofInt (n : Nat) : (ofInt n).asU64? = some n := by simp [ofInt, asU64?]

/-- `Map::get`. -/
def Fields.get? (fields : List (String × Json)) (k : String) : Option Json :=
  (fields.find? fun f ↦ decide (f.1 = k)).map Prod.snd

/-- `Value::get`: a field of an object. -/
def get? (v : Json) (k : String) : Option Json := v.asObject?.bind fun f ↦ Fields.get? f k

/-- `Value::pointer`, for a path of object fields. -/
def pointer (v : Json) (path : List String) : Option Json := path.foldlM get? v

/-- The keys of an object are exactly `ks`, in any order. Keys of an object are distinct. -/
def Fields.keysAre (fields : List (String × Json)) (ks : List String) : Bool :=
  decide (fields.length = ks.length) && ks.all fun k ↦ (Fields.get? fields k).isSome

/-! ### Writing -/

/-- `Map::insert`: a present field is replaced in place, a new one goes to the end. -/
def Fields.insert (k : String) (v : Json) : List (String × Json) → List (String × Json)
  | [] => [(k, v)]
  | (k', v') :: rest => if k' = k then (k, v) :: rest else (k', v') :: Fields.insert k v rest

namespace Fields

variable {fields : List (String × Json)} {k k' : String} {v v' : Json}

@[simp] theorem get?_insert_self : get? (insert k v fields) k = some v := by
  induction fields with
  | nil => simp [insert, get?]
  | cons f fields ih =>
    rw [insert]
    split
    · simp [get?]
    · rename_i hne
      simpa [get?, hne] using ih

@[simp] theorem insert_insert : insert k v (insert k v' fields) = insert k v fields := by
  induction fields with
  | nil => simp [insert]
  | cons f fields ih =>
    by_cases hf : f.1 = k
    · simp [insert, hf]
    · simp [insert, hf, ih]

end Fields

/-! ### A field of a field -/

variable {outer inner : String} {v v' w w' : Json}

end Json
