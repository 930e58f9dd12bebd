/-!
# Finite binary64 numbers, exactly

A JSON number with a fraction, an exponent or too many digits is held as a finite binary64. The
value is kept as a sign, a mantissa and a binary exponent, so that reading, comparing and writing
one are computations on natural numbers and nothing depends on the machine's float operations.

`Binary64.ofRatio?` rounds a quotient once, to the nearest value and a tie to the even mantissa.
`Binary64.ofDecimal?` reads `digits · 10^exponent` as two numbers, the digits and the power of ten,
and their product or quotient; digits short enough and a small power make that the nearest value.
`Binary64.shortest` goes back: the fewest decimal digits that round to the same value, and of those
the nearest.
-/

namespace Reconciler

/-- `(-1)^negative · mantissa · 2^exponent`. The mantissa has 53 bits unless the exponent is the
least one, `-1074`; zero is written with exponent `0`. -/
structure Binary64 where
  negative : Bool
  mantissa : Nat
  exponent : Int
  deriving DecidableEq, Repr, Inhabited

namespace Binary64

/-- The least binary exponent, that of the subnormal numbers. -/
def leastExponent : Int := -1074

/-- The least mantissa of 53 bits. -/
def hiddenBit : Nat := 4_503_599_627_370_496

/-- The greatest binary exponent of a 53-bit mantissa. -/
def greatestExponent : Int := 971

/-- `num / den` rounded to the nearest natural number, a tie to the even one. -/
def roundHalfEven (num den : Nat) : Nat :=
  let q := num / den
  let twice := 2 * (num % den)
  if twice < den then q
  else if den < twice then q + 1
  else if q % 2 = 0 then q else q + 1

/-- `num · 2^(-e)` over `den`, as a fraction of natural numbers. -/
def scaleDown (num den : Nat) (e : Int) : Nat × Nat :=
  if 0 ≤ e then (num, den * Nat.pow 2 e.toNat) else (num * Nat.pow 2 (-e).toNat, den)

/-- The binary64 nearest to `± num / den`; `none` beyond the greatest finite one. -/
def ofRatio? (negative : Bool) (num den : Nat) : Option Binary64 :=
  if num = 0 then some ⟨negative, 0, 0⟩
  else
    let magnitude : Int := (Nat.log2 num : Int) - Nat.log2 den
    let low := max leastExponent (magnitude - 53)
    let (a, b) := scaleDown num den low
    let e := if a < hiddenBit * 2 * b then low else low + 1
    let (a, b) := scaleDown num den e
    let m := roundHalfEven a b
    if m = 0 then some ⟨negative, 0, 0⟩
    else
      let (m, e) := if m = hiddenBit * 2 then (hiddenBit, e + 1) else (m, e)
      if greatestExponent < e then none else some ⟨negative, m, e⟩

/-! ## Scaling by powers of ten

Each step of a scaling rounds, so a scaled number need not be the one nearest to the exact
product. -/

/-- `± m · 2^e / d`, rounded once; `none` beyond the greatest finite number. -/
def ofParts? (negative : Bool) (m d : Nat) (e : Int) : Option Binary64 :=
  if 0 ≤ e then ofRatio? negative (m * Nat.pow 2 e.toNat) d
  else ofRatio? negative m (d * Nat.pow 2 (-e).toNat)

/-- The product, rounded. -/
def mul? (x y : Binary64) : Option Binary64 :=
  ofParts? (x.negative != y.negative) (x.mantissa * y.mantissa) 1 (x.exponent + y.exponent)

/-- The quotient by a number other than zero, rounded. -/
def div? (x y : Binary64) : Option Binary64 :=
  ofParts? (x.negative != y.negative) x.mantissa y.mantissa (x.exponent - y.exponent)

/-- The greatest power of ten that is finite. -/
def greatestPower : Nat := 308

/-- `10^k`, rounded. -/
def powerOfTen? (k : Nat) : Option Binary64 := ofRatio? false (Nat.pow 10 k) 1

/-- `x · 10^e`, as one product or one quotient where `10^e` or `10^-e` is finite. A smaller power is
divided out in steps; a greater one is beyond every number but zero. -/
def scale? (x : Binary64) (e : Int) : Option Binary64 :=
  if e.natAbs ≤ greatestPower then do
    let power ← powerOfTen? e.natAbs
    if 0 ≤ e then x.mul? power else x.div? power
  else if x.mantissa = 0 then some x
  else if 0 ≤ e then none
  else do
    let step ← powerOfTen? greatestPower
    let y ← x.div? step
    y.scale? (e + greatestPower)
termination_by (-e).toNat
decreasing_by simp only [greatestPower] at *; omega

/-- `± digits · 10^exponent`: the number nearest to the digits, scaled. -/
def ofDecimal? (negative : Bool) (digits : Nat) (exponent : Int) : Option Binary64 := do
  let x ← ofRatio? negative digits 1
  x.scale? exponent

/-- Two numbers are the same value: the zeros of both signs are. -/
def sameValue (x y : Binary64) : Bool :=
  x == y || (x.mantissa == 0 && y.mantissa == 0)

/-! ## The shortest decimal that reads back -/

/-- `x` and the ends of the interval of reals that round to its magnitude, all three over one
denominator: `(low, value, high, denominator)`. -/
def interval (x : Binary64) : Nat × Nat × Nat × Nat :=
  let narrow := x.mantissa = hiddenBit ∧ leastExponent < x.exponent
  let value := 4 * x.mantissa
  let low := if narrow then value - 1 else value - 2
  let high := value + 2
  let e := x.exponent - 2
  if 0 ≤ e then
    let s := Nat.pow 2 e.toNat
    (low * s, value * s, high * s, 1)
  else (low, value, high, Nat.pow 2 (-e).toNat)

/-- The least `k` with `value / den < 10^k`, searched upward from `k`. -/
def decimalPoint (value den : Nat) : Nat → Int → Int
  | 0, k => k
  | fuel + 1, k =>
    let below :=
      if 0 ≤ k then value < den * Nat.pow 10 k.toNat else value * Nat.pow 10 (-k).toNat < den
    if below then k else decimalPoint value den fuel (k + 1)

/-- The `n`-digit decimal nearest to the value among those that round to it, as its digits. -/
def nearestDigits? (low value high den : Nat) (closed : Bool) (unit : Int) : Option Nat :=
  let (up, down) : Nat × Nat :=
    if 0 ≤ unit then (Nat.pow 10 unit.toNat, 1) else (1, Nat.pow 10 (-unit).toNat)
  let inside (c : Nat) : Bool :=
    let p := c * up * den
    let lo := low * down
    let hi := high * down
    if closed then lo ≤ p && p ≤ hi else lo < p && p < hi
  let c := value * down / (den * up)
  let below := value * down - c * up * den
  let above := (c + 1) * up * den - value * down
  match inside c, inside (c + 1) with
  | true, true =>
    some (if below < above then c else if above < below then c + 1
      else if c % 2 = 0 then c else c + 1)
  | true, false => some c
  | false, true => some (c + 1)
  | false, false => none

/-- Digits and decimal exponent without trailing zero digits. -/
def dropZeros : Nat → Nat → Int → Nat × Int
  | 0, d, e => (d, e)
  | fuel + 1, d, e => if d ≠ 0 ∧ d % 10 = 0 then dropZeros fuel (d / 10) (e + 1) else (d, e)

/-- The magnitude as `digits · 10^exponent` with the fewest digits that read back. -/
def shortest (x : Binary64) : Nat × Int :=
  if x.mantissa = 0 then (0, 0)
  else
    let (low, value, high, den) := x.interval
    let k := decimalPoint value den 700 (-330)
    let closed := x.mantissa % 2 == 0
    let hit := (List.range 17).findSome? fun n =>
      let unit := k - (n + 1 : Nat)
      (nearestDigits? low value high den closed unit).map (·, unit)
    match hit with
    | some (d, e) => dropZeros 20 d e
    | none => (0, 0)

/-- The number as JSON text: positional with a fraction from `10^-5` up to `10^16`, and with an
exponent outside. -/
def text (x : Binary64) : String :=
  let sign := if x.negative then "-" else ""
  if x.mantissa = 0 then sign ++ "0.0"
  else
    let (d, e) := x.shortest
    let ds := Nat.toDigits 10 d
    let n : Int := ds.length
    let point := n + e
    let zeros (i : Int) : String := String.ofList (List.replicate i.toNat '0')
    if 0 ≤ e ∧ point ≤ 16 then sign ++ String.ofList ds ++ zeros e ++ ".0"
    else if 0 < point ∧ point ≤ 16 then
      sign ++ String.ofList (ds.take point.toNat) ++ "." ++ String.ofList (ds.drop point.toNat)
    else if -5 < point ∧ point ≤ 0 then sign ++ "0." ++ zeros (-point) ++ String.ofList ds
    else
      let fraction := if ds.length = 1 then "" else "." ++ String.ofList (ds.drop 1)
      sign ++ String.ofList (ds.take 1) ++ fraction ++ "e" ++ toString (point - 1)

end Binary64

end Reconciler
