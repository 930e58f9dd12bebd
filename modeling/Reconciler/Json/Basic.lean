import Reconciler.Json.Binary64

/-!
# JSON values

The trees that entities are written to, compared as and read from. Integers and floats are
different numbers even where they denote the same value, floats compare by value, and an object is
a list of fields.

An object read from text keeps its fields as written, repeated ones included, because some readers
refuse a repeated field. `Json.canonical` is the tree meant by it: fields in increasing order of
their names, the last of equal names kept. Trees that are compared or stored are canonical.
-/

namespace Reconciler

/-- A JSON value. -/
inductive Json where
  | null
  | bool (b : Bool)
  | int (n : Int)
  | float (x : Binary64)
  | str (s : String)
  | arr (items : List Json)
  | obj (fields : List (String × Json))
  deriving Inhabited, Repr

namespace Json

/-! ## Fields in increasing order of their names -/

/-- The value of the first field named `key`. -/
def find? (key : String) : List (String × Json) → Option Json
  | [] => none
  | (k, v) :: rest => if k = key then some v else find? key rest

/-- Put a field in its place among ordered fields, replacing one of the same name. -/
def insertField (key : String) (value : Json) : List (String × Json) → List (String × Json)
  | [] => [(key, value)]
  | (k, v) :: rest =>
    if key < k then (key, value) :: (k, v) :: rest
    else if key = k then (key, value) :: rest
    else (k, v) :: insertField key value rest

/-- Ordered fields of a list of fields; the last of equal names wins. -/
def orderFields (fields : List (String × Json)) : List (String × Json) :=
  fields.foldl (fun acc kv => insertField kv.1 kv.2 acc) []

mutual

/-- The tree meant by a value read from text: every object with its fields in order and no name
twice. -/
def canonical : Json → Json
  | .arr items => .arr (canonicalItems items)
  | .obj fields => .obj (orderFields (canonicalFields fields))
  | .null => .null
  | .bool b => .bool b
  | .int n => .int n
  | .float x => .float x
  | .str s => .str s

/-- `canonical` on every item. -/
def canonicalItems : List Json → List Json
  | [] => []
  | v :: rest => canonical v :: canonicalItems rest

/-- `canonical` on every field's value. -/
def canonicalFields : List (String × Json) → List (String × Json)
  | [] => []
  | (k, v) :: rest => (k, canonical v) :: canonicalFields rest

end

/-! ## How deep a tree is -/

mutual

/-- How many arrays and objects stand inside one another. -/
def height : Json → Nat
  | .arr items => heightItems items + 1
  | .obj fields => heightFields fields + 1
  | .null => 0
  | .bool _ => 0
  | .int _ => 0
  | .float _ => 0
  | .str _ => 0

/-- The greatest height among items. -/
def heightItems : List Json → Nat
  | [] => 0
  | v :: rest => max (height v) (heightItems rest)

/-- The greatest height among fields. -/
def heightFields : List (String × Json) → Nat
  | [] => 0
  | (_, v) :: rest => max (height v) (heightFields rest)

end

/-! ## Equality by value -/

mutual

/-- Equality of canonical trees, floats by value. -/
def same : Json → Json → Bool
  | .null, .null => true
  | .bool a, .bool b => a == b
  | .int a, .int b => a == b
  | .float a, .float b => a.sameValue b
  | .str a, .str b => a == b
  | .arr a, .arr b => sameItems a b
  | .obj a, .obj b => sameFields a b
  | _, _ => false

/-- Equality item by item. -/
def sameItems : List Json → List Json → Bool
  | [], [] => true
  | a :: as, b :: bs => same a b && sameItems as bs
  | _, _ => false

/-- Equality field by field, names and values. -/
def sameFields : List (String × Json) → List (String × Json) → Bool
  | [], [] => true
  | (k, a) :: as, (l, b) :: bs => k == l && same a b && sameFields as bs
  | _, _ => false

end

/-! ## Building and looking up -/

/-- The object with the given fields. -/
def ofFields (fields : List (String × Json)) : Json := .obj (orderFields fields)

/-- The object of the fields that are present. -/
def ofPresent (fields : List (String × Option Json)) : Json :=
  ofFields (fields.filterMap fun (k, v) => v.map (k, ·))

/-- A map as an object. -/
def ofMap (write : α → Json) (m : List (String × α)) : Json :=
  ofFields (m.map fun (k, v) => (k, write v))

/-- A list of texts. -/
def ofStrings (items : List String) : Json := .arr (items.map .str)

/-- The value at a field, `null` where there is none or the value is no object. -/
def field (j : Json) (key : String) : Json :=
  match j with
  | .obj fields => (find? key fields).getD .null
  | _ => .null

/-- Text, if the value is text. -/
def str? : Json → Option String
  | .str s => some s
  | _ => none

/-- A truth value. -/
def bool? : Json → Option Bool
  | .bool b => some b
  | _ => none

/-- A number written without fraction or exponent, within the given bounds. -/
def intWithin? (low high : Int) : Json → Option Int
  | .int n => if low ≤ n ∧ n ≤ high then some n else none
  | _ => none

/-- An integer of 64 bits with a sign. -/
def int64? : Json → Option Int := intWithin? (-9_223_372_036_854_775_808) 9_223_372_036_854_775_807

/-- An integer of 32 bits with a sign. -/
def int32? : Json → Option Int := intWithin? (-2_147_483_648) 2_147_483_647

/-- A natural number of 64 bits. -/
def nat64? (j : Json) : Option Nat := (intWithin? 0 18_446_744_073_709_551_615 j).map Int.toNat

/-- A natural number of 32 bits. -/
def nat32? (j : Json) : Option Nat := (intWithin? 0 4_294_967_295 j).map Int.toNat

/-- A natural number of 16 bits. -/
def nat16? (j : Json) : Option Nat := (intWithin? 0 65_535 j).map Int.toNat

/-- The fields of an object. -/
def fields? : Json → Option (List (String × Json))
  | .obj fields => some fields
  | _ => none

end Json

end Reconciler
