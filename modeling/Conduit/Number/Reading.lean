import Conduit.Number.Double

/-!
# Reading decimals

Two rules turn decimal digits into a `Double`. `Double.ofDecimal` takes the nearest number.
`Double.ofScaled` rounds the significand first and multiplies or divides it by a rounded power of
ten afterwards, which is cheaper and off by a little for long numbers.
-/

namespace Conduit

namespace Double

/-- The number nearest to `± c · 10 ^ e`. Exponents far outside the range are settled without
computing the power. -/
def ofDecimal (negative : Bool) (c : Nat) (e : Int) : Double :=
  if c = 0 then ofMagnitude negative 0 else
  let leading : Int := (Nat.toDigits 10 c).length + e
  if 320 < leading then infinity negative
  else if leading < -340 then ofMagnitude negative 0
  else ofRatio negative (c * Nat.pow 10 e.toNat) (Nat.pow 10 (-e).toNat)

/-- The power of ten up to the greatest finite one. -/
def powerOfTen (n : Nat) : Double := ofRatio false (Nat.pow 10 n) 1

/-- Brings `x` times `10 ^ e` into range: one product, or quotients by at most `10 ^ 308` each.
`none` is a number out of range. -/
def scaleByTen : Nat → Double → Int → Option Double
  | 0, x, _ => some x
  | fuel + 1, x, e =>
    if e.natAbs ≤ 308 then
      if 0 ≤ e then
        let y := x * powerOfTen e.natAbs
        if y.isInfinite then none else some y
      else some (x / powerOfTen e.natAbs)
    else if x.isZero then some x
    else if 0 ≤ e then none
    else scaleByTen fuel (x / powerOfTen 308) (e + 308)

/-- `± c · 10 ^ e`, the significand rounded before it is scaled. Three quotients by `10 ^ 308`
leave zero, so the loop is short. -/
def ofScaled (negative : Bool) (c : Nat) (e : Int) : Option Double :=
  (scaleByTen 8 (ofNat c) e).map fun x => ofMagnitude negative x.magnitude

end Double

/-! ## Plain decimal text -/

namespace Number

/-- The value of decimal digits read after `start`. -/
def digitsValue (start : Nat) (digits : List Char) : Nat :=
  digits.foldl (fun n c => 10 * n + (c.toNat - '0'.toNat)) start

/-- Splits off a sign: `true` for a minus. -/
def takeSign : List Char → Bool × List Char
  | '-' :: rest => (true, rest)
  | '+' :: rest => (false, rest)
  | text => (false, text)

/-- An exponent part: nothing, or a mark, a sign and at least one digit. -/
def exponent? : List Char → Option Int
  | [] => some 0
  | c :: rest =>
    if c = 'e' ∨ c = 'E' then
      let (negative, digits) := takeSign rest
      if digits.isEmpty || !digits.all Char.isDigit then none
      else
        let n : Int := digitsValue 0 digits
        some (if negative then -n else n)
    else none

/-- Digits, a point and digits, at least one digit in all, and an exponent. -/
def decimal? (negative : Bool) (text : List Char) : Option Double :=
  let whole := text.takeWhile Char.isDigit
  let rest := text.dropWhile Char.isDigit
  let (fraction, rest) := match rest with
    | '.' :: more => (more.takeWhile Char.isDigit, more.dropWhile Char.isDigit)
    | _ => ([], rest)
  if whole.isEmpty && fraction.isEmpty then none
  else (exponent? rest).map fun e =>
    Double.ofDecimal negative (digitsValue (digitsValue 0 whole) fraction)
      (e - fraction.length)

/-- The number a text spells: decimal, or one of the words for infinity and for what is not a
number, in letters of either case, after an optional sign. -/
def double? (text : String) : Option Double :=
  let (negative, rest) := takeSign text.toList
  match rest.map Char.toLower with
  | ['i', 'n', 'f'] | ['i', 'n', 'f', 'i', 'n', 'i', 't', 'y'] => some (Double.infinity negative)
  | ['n', 'a', 'n'] => some Double.nan
  | _ => decimal? negative rest

/-- An unsigned whole number: digits after an optional plus sign, below `bound`. -/
def natBelow? (bound : Nat) (text : String) : Option Nat :=
  let digits := match text.toList with
    | '+' :: rest => rest
    | rest => rest
  if digits.isEmpty || !digits.all Char.isDigit then none
  else
    let n := digitsValue 0 digits
    if n < bound then some n else none

end Number

end Conduit
