import Mathlib.Data.List.Basic

/-!
# Support — Json

JSON values.  The fields of an object are in the order of their names, as in a map whose keys are
ordered.
-/

/-- A value. -/
inductive Json where
  | null
  | bool (value : Bool)
  | number (value : Int)
  | float (text : List Char)
  | string (value : List Char)
  | array (items : List Json)
  | object (fields : List (String × Json))

namespace Json

/-- `Value::get` -/
def get (key : String) : Json → Option Json
  | object fields => fields.lookup key
  | _ => none

/-- `Value::as_str` -/
def asStr : Json → Option (List Char)
  | string value => some value
  | _ => none

/-- `Value::as_u64` -/
def asU64 : Json → Option Nat
  | number value => if 0 ≤ value ∧ value.toNat < UInt64.size then some value.toNat else none
  | _ => none

/-- `Map::insert` -/
def insert (key : String) (value : Json) : List (String × Json) → List (String × Json)
  | [] => [(key, value)]
  | (key', value') :: fields =>
    if key = key' then (key, value) :: fields
    else if key < key' then (key, value) :: (key', value') :: fields
    else (key', value') :: insert key value fields

/-- An object of these fields, the later ones of a name in place of the earlier. -/
def ofFields (fields : List (String × Json)) : Json :=
  .object (fields.foldl (fun object field => insert field.1 field.2 object) [])

theorem lookup_insert_self (key : String) (value : Json) (fields : List (String × Json)) :
    (insert key value fields).lookup key = some value := by
  induction fields with
  | nil => simp [insert]
  | cons field fields ih =>
      obtain ⟨key', value'⟩ := field
      rw [insert]
      split_ifs with heq hlt
      · exact List.lookup_cons_self
      · exact List.lookup_cons_self
      · rw [List.lookup_cons, beq_false_of_ne heq]
        exact ih

theorem lookup_insert_of_ne {key key' : String} (h : key' ≠ key) (value : Json)
    (fields : List (String × Json)) :
    (insert key value fields).lookup key' = fields.lookup key' := by
  induction fields with
  | nil => simp [insert, List.lookup_cons, beq_false_of_ne h]
  | cons field fields ih =>
      obtain ⟨key'', value''⟩ := field
      rw [insert]
      split_ifs with heq hlt
      · rw [List.lookup_cons, List.lookup_cons, beq_false_of_ne h, ← heq, beq_false_of_ne h]
      · rw [List.lookup_cons, beq_false_of_ne h]
      · rw [List.lookup_cons, List.lookup_cons, ih]

/-- The fields of an object are those it was made of. -/
theorem get_ofFields (key : String) (fields : List (String × Json)) :
    (ofFields fields).get key = fields.reverse.lookup key := by
  have hfold : ∀ object : List (String × Json),
      (fields.foldl (fun object field => insert field.1 field.2 object) object).lookup key =
        (fields.reverse.lookup key).or (object.lookup key) := by
    induction fields with
    | nil => intro object; rfl
    | cons field fields ih =>
        intro object
        rw [List.foldl_cons, ih, List.reverse_cons, List.lookup_append, Option.or_assoc]
        congr 1
        by_cases hkey : key = field.1
        · rw [hkey, lookup_insert_self, List.lookup_cons_self]
          rfl
        · rw [lookup_insert_of_ne hkey, List.lookup_cons, beq_false_of_ne hkey]
          rfl
  rw [ofFields, get, hfold, List.lookup_nil, Option.or_none]

end Json
