import Mathlib.Data.Rat.Defs

/-! # Decoded JSON values

The Go services keep decoded JSON in `any` values: rule conditions, obligation values and the data handed to the
condition evaluator. `null` is the nil value, and an object is a `map[string]any`, so its fields are compared by key.
Numbers are exact here; nothing below computes with them.
-/

namespace SecurityFabric

inductive Json where
  | null
  | bool (value : Bool)
  | num (value : Rat)
  | str (value : String)
  | arr (items : List Json)
  | obj (fields : List (String × Json))
deriving Repr

namespace Json

mutual
/-- `reflect.DeepEqual` on decoded values. -/
def deepEqual : Json → Json → Bool
  | null, null => true
  | bool x, bool y => x == y
  | num x, num y => x == y
  | str x, str y => x == y
  | arr xs, arr ys => deepEqualItems xs ys
  | obj xs, obj ys => xs.length == ys.length && deepEqualFields xs ys
  | _, _ => false

/-- Arrays agree position by position. -/
def deepEqualItems : List Json → List Json → Bool
  | [], [] => true
  | x :: xs, y :: ys => deepEqual x y && deepEqualItems xs ys
  | _, _ => false

/-- Every field on the left has an equal field of the same key on the right. -/
def deepEqualFields : List (String × Json) → List (String × Json) → Bool
  | [], _ => true
  | (k, x) :: xs, ys => (match ys.lookup k with
    | some y => deepEqual x y
    | none => false) && deepEqualFields xs ys
end

/-- An object with one field, the shape the condition data is built from. -/
def field (k : String) (value : Json) : Json := obj [(k, value)]

end Json

end SecurityFabric
