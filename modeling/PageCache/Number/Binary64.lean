import PageCache.Text

/-! Binary floating-point numbers of 64 bits in exact arithmetic on natural numbers: rounding a
quotient to nearest with ties to even, and the shortest decimal that reads back. -/
namespace PageCache

/-- A number `significand * 2 ^ exponent`, an infinity, or no number. -/
inductive Binary64 where
  | finite (negative : Bool) (significand : Nat) (exponent : Int)
  | infinite (negative : Bool)
  | nan
  deriving DecidableEq, Repr

namespace Binary64

def zero (negative : Bool) : Binary64 := finite negative 0 0

/-- The quotient to the nearest integer, ties to even. -/
def roundDiv (num den : Nat) : Nat :=
  let q := num / den
  let twice := 2 * (num % den)
  if twice > den || (twice == den && q % 2 == 1) then q + 1 else q

/-- Significands lie below `2 ^ 53`. -/
def significandLimit : Nat := 9007199254740992

def scale (num den : Nat) (power : Int) : Nat × Nat :=
  if 0 ≤ power then (num <<< power.toNat, den) else (num, den <<< (-power).toNat)

/-- The number nearest to a quotient of natural numbers; beyond the range, an infinity. -/
def ofRatio (negative : Bool) (num den : Nat) : Binary64 :=
  if num == 0 || den == 0 then zero negative
  else
    let guess : Int := (Nat.log2 num : Int) - (Nat.log2 den : Int) - 53
    let scaled := scale num den (-guess)
    let exponent := if scaled.1 / scaled.2 < significandLimit then guess else guess + 1
    let exponent := if exponent < -1074 then -1074 else exponent
    let (n, d) := scale num den (-exponent)
    let m := roundDiv n d
    let (m, exponent) := if m == significandLimit then (m / 2, exponent + 1) else (m, exponent)
    if exponent > 971 then infinite negative
    else if m == 0 then zero negative else finite negative m exponent

/-- The number nearest to `digits * 10 ^ exponent`. -/
def ofDecimal (negative : Bool) (digits : Nat) (exponent : Int) : Binary64 :=
  let magnitude := (Nat.toDigits 10 digits).length + exponent
  if digits == 0 || magnitude < -400 then zero negative
  else if magnitude > 400 then infinite negative
  else if 0 ≤ exponent then ofRatio negative (digits * Nat.pow 10 exponent.toNat) 1
  else ofRatio negative digits (Nat.pow 10 (-exponent).toNat)

def ratio : Binary64 → Nat × Nat
  | finite _ m e => scale m 1 e
  | _ => (0, 1)

def isNegative : Binary64 → Bool
  | finite negative _ _ | infinite negative => negative
  | nan => false

def isInfinite : Binary64 → Bool
  | infinite _ => true
  | _ => false

def isZero : Binary64 → Bool
  | finite _ m _ => m == 0
  | _ => false

def mul (a b : Binary64) : Binary64 :=
  let (p, q) := a.ratio
  let (r, s) := b.ratio
  ofRatio (a.isNegative != b.isNegative) (p * r) (q * s)

def div (a b : Binary64) : Binary64 :=
  let (p, q) := a.ratio
  let (r, s) := b.ratio
  ofRatio (a.isNegative != b.isNegative) (p * s) (q * r)

/-- Half of the gap to the neighbouring numbers, as quotients over a common denominator: the
significand, one half unit above and the half gap below, all multiplied by four. -/
def interval (m : Nat) (e : Int) : Nat × Nat × Nat :=
  let below := if 2 * m == significandLimit && e > -1074 then 1 else 2
  (4 * m, 2, below)

/-- The shortest decimal significand and exponent that round to the number: of the grids of 1 to 17
digits the first with a point in the interval, and of its points the nearest. -/
def shortestFrom (m : Nat) (e : Int) : Nat → Int → Nat × Int
  | 0, power =>
    let (n, d) := scale m 1 e
    (if 0 ≤ power then roundDiv n (d * Nat.pow 10 power.toNat)
     else roundDiv (n * Nat.pow 10 (-power).toNat) d, power)
  | fuel + 1, power =>
    let (v, up, down) := interval m e
    -- value, bounds and grid unit over the denominator `d`
    let (one, d) := scale 1 4 e
    let value := v * one
    let high := (v + up) * one
    let low := (v - down) * one
    let (unit, s) := if 0 ≤ power then (d * Nat.pow 10 power.toNat, 1) else (d, Nat.pow 10 (-power).toNat)
    let floor := value * s / unit
    let inside (n : Nat) : Bool :=
      if m % 2 == 0 then low * s ≤ n * unit && n * unit ≤ high * s
      else low * s < n * unit && n * unit < high * s
    let lowIn := floor > 0 && inside floor
    let highIn := inside (floor + 1)
    let nearLow := 2 * (value * s - floor * unit) ≤ unit
    if lowIn && (!highIn || nearLow) then (floor, power)
    else if highIn then (floor + 1, power)
    else shortestFrom m e fuel (power - 1)

/-- The number of decimal digits before the point, or its negative complement. -/
def decimalMagnitude (m : Nat) (e : Int) : Int :=
  let (n, d) := scale m 1 e
  if d ≤ n then (Nat.toDigits 10 (n / d)).length
  else 1 - (Nat.toDigits 10 (d / n)).length

/-- The digits of the shortest decimal and the number of them that stand before the point. -/
def shortest (m : Nat) (e : Int) : Text × Int :=
  let (digits, power) := shortestFrom m e 19 (decimalMagnitude m e)
  let text := Text.ofNat digits
  (text.trimEnd (· == '0'), text.length + power)

/-- Digits with a point after the given number of them, padded with zeros, without exponent. -/
def positional (digits : Text) (before : Int) : Text :=
  if before ≤ 0 then "0." ++ List.replicate (-before).toNat '0' ++ digits
  else
    let n := before.toNat
    if digits.length ≤ n then digits ++ List.replicate (n - digits.length) '0'
    else digits.take n ++ "." ++ digits.drop n

/-- The shortest decimal in positional form; a whole number has no point. -/
def toText : Binary64 → Text
  | finite negative m e =>
    let sign : Text := if negative then "-" else ""
    if m == 0 then sign ++ "0"
    else
      let (digits, before) := shortest m e
      sign ++ positional digits before
  | infinite negative => if negative then "-inf" else "inf"
  | nan => "NaN"

def toPointText (x : Binary64) : Text :=
  match x with
  | finite .. => if x.toText.elem '.' then x.toText else x.toText ++ ".0"
  | _ => x.toText

/-- The nearest natural number below `limit + 1`, halves upward; negative numbers give zero. -/
def toNatUpTo (limit : Nat) : Binary64 → Nat
  | finite negative m e =>
    if negative then 0
    else
      let (n, d) := scale m 1 e
      Nat.min limit ((2 * n + d) / (2 * d))
  | infinite negative => if negative then 0 else limit
  | nan => 0

end Binary64
end PageCache
