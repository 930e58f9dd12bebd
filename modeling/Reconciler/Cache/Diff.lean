import Reconciler.Json.Basic

/-!
# Where two trees differ

`diffAt` walks two trees together, key by key through objects; arrays and scalars are leaves. A key
that one side lacks counts as `null` there, and a path in the ignore list is not looked at or below.
Since `null` is a leaf, only keys that both sides have need the walk, and it descends with the first
tree alone.
-/

namespace Reconciler

/-- The names of the fields from the root of a tree to a place in it. -/
abbrev Path := List String

namespace Diff

/-- The path itself, if the values there differ and it is not ignored. -/
def leaf (ignored : List Path) (path : Path) (a b : Json) : List Path :=
  if ignored.contains path || Json.same a b then [] else [path]

/-- One-sided differences: fields of the second tree alone. -/
def onlyRight (ignored : List Path) (path : Path) (fields : List (String × Json)) : List Path :=
  fields.flatMap fun (k, w) => leaf ignored (path ++ [k]) .null w

mutual

/-- The paths under `path` at which `a` and `b` differ, in the order of their names. -/
def diffAt (ignored : List Path) (path : Path) : Json → Json → List Path
  | .obj left, .obj right =>
    if ignored.contains path then [] else diffFields ignored path left right
  | .null, b => leaf ignored path .null b
  | .bool x, b => leaf ignored path (.bool x) b
  | .int x, b => leaf ignored path (.int x) b
  | .float x, b => leaf ignored path (.float x) b
  | .str x, b => leaf ignored path (.str x) b
  | .arr x, b => leaf ignored path (.arr x) b
  | .obj left, b => leaf ignored path (.obj left) b

/-- The differences of two objects' fields, both in order. -/
def diffFields (ignored : List Path) (path : Path) :
    List (String × Json) → List (String × Json) → List Path
  | [], right => onlyRight ignored path right
  | (k, v) :: left, right =>
    let before := right.takeWhile fun kv => kv.1 < k
    let rest := right.dropWhile fun kv => kv.1 < k
    onlyRight ignored path before ++
      match rest with
      | (l, w) :: more =>
        if l = k then diffAt ignored (path ++ [k]) v w ++ diffFields ignored path left more
        else leaf ignored (path ++ [k]) v .null ++ diffFields ignored path left rest
      | [] => leaf ignored (path ++ [k]) v .null ++ diffFields ignored path left []

end

end Diff

/-- The paths at which two trees differ, apart from the ignored ones. -/
def diffPaths (ignored : List Path) (a b : Json) : List Path := Diff.diffAt ignored [] a b

/-- The path a dotted text names. -/
def Path.ofDotted (s : String) : Path := (s.toList.splitOn '.').map String.ofList

/-- The path in one text. -/
def Path.dotted (p : Path) : String := ".".intercalate p

end Reconciler
