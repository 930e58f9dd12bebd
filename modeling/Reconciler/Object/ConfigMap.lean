import Reconciler.Object.Lenient

/-!
# ConfigMaps

Bytes are held as the base 64 text that they are written in. That loses nothing, since a text that
is accepted is the only one of its bytes.
-/

namespace Reconciler

/-- A ConfigMap. -/
structure ConfigMap where
  metadata : Metadata := {}
  data : Option (List (String × String)) := none
  /-- Bytes, each value in base 64 as it is written. -/
  binaryData : Option (List (String × String)) := none
  immutable : Option Bool := none
  deriving Inhabited, Repr

namespace ConfigMap

/-- The value of a digit in base 64. -/
def base64Value? (c : Char) : Option Nat :=
  if 'A' ≤ c ∧ c ≤ 'Z' then some (c.toNat - 65)
  else if 'a' ≤ c ∧ c ≤ 'z' then some (c.toNat - 71)
  else if '0' ≤ c ∧ c ≤ '9' then some (c.toNat + 4)
  else if c = '+' then some 62
  else if c = '/' then some 63
  else none

/-- The text is bytes in base 64: groups of four digits, the last one filled up, no bit beyond the
bytes set. Such a text is the only one of its bytes. -/
def isBase64 : List Char → Bool
  | [] => true
  | [a, b, '=', '='] => (base64Value? a).isSome && (base64Value? b).any (· % 16 == 0)
  | [a, b, c, '='] =>
    (base64Value? a).isSome && (base64Value? b).isSome && (base64Value? c).any (· % 4 == 0)
  | a :: b :: c :: d :: rest =>
    (base64Value? a).isSome && (base64Value? b).isSome && (base64Value? c).isSome &&
      (base64Value? d).isSome && isBase64 rest
  | _ => false

/-- Bytes, as their text; `null` is none. -/
def bytes : Json.Reader String :=
  Json.Reader.str.nullable.refine fun s =>
    let s := s.getD ""
    if isBase64 s.toList then some s else none

/-- The shape of a ConfigMap. -/
def shape : Json.Record ConfigMap :=
  typed .configMap [
    .lenient "binaryData" bytes.dict fun c binaryData => { c with binaryData },
    .lenient "data" Json.Reader.str.dict fun c data => { c with data },
    .lenient "immutable" Json.Reader.bool fun c immutable => { c with immutable },
    .lenient "metadata" Metadata.reader fun (c : ConfigMap) metadata =>
      { c with metadata := metadata.getD {} }]

/-- Reads a ConfigMap. -/
def reader : Json.Reader ConfigMap := shape.reader {}

/-- The tree of a ConfigMap, with its version and kind. -/
def toJson (c : ConfigMap) : Json :=
  .ofPresent [
    ("apiVersion", some (.str ResourceType.configMap.apiVersion)),
    ("kind", some (.str ResourceType.configMap.kind)),
    ("metadata", some c.metadata.toJson),
    ("data", c.data.map (Json.ofMap .str)),
    ("binaryData", c.binaryData.map (Json.ofMap .str)),
    ("immutable", c.immutable.map .bool)]

instance : Entity ConfigMap where
  metadata := ConfigMap.metadata
  withMetadata c metadata := { c with metadata }
  encode c := .ok c.toJson
  reader := reader

end ConfigMap

end Reconciler
