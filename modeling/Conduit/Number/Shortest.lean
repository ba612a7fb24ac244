import Conduit.Number.Double

/-!
# The shortest decimal that reads back

A decimal `coefficient · 10 ^ exponent` reads back as a finite number when it lies in the interval
of reals that round to it. `Double.shortest` looks for such a decimal on coarser grids before finer
ones, so no shorter decimal reads back, and takes the nearest of its grid.
-/

namespace Conduit

structure Decimal where
  coefficient : Nat
  exponent : Int
deriving DecidableEq, Repr, Inhabited

namespace Decimal

/-- How `c · 10 ^ e` compares with `x · 2 ^ p`. -/
def compareDyadic (c : Nat) (e : Int) (x : Nat) (p : Int) : Ordering :=
  compare (c * Nat.pow 10 e.toNat * Nat.pow 2 (-p).toNat)
    (x * Nat.pow 2 p.toNat * Nat.pow 10 (-e).toNat)

/-- The digits of the coefficient, the most significant first. -/
def digits (d : Decimal) : List Char := Nat.toDigits 10 d.coefficient

/-- Moves trailing zeros of the coefficient into the exponent. -/
def strip : Nat → Decimal → Decimal
  | 0, d => d
  | fuel + 1, d =>
    if d.coefficient ≠ 0 ∧ d.coefficient % 10 = 0 then
      strip fuel ⟨d.coefficient / 10, d.exponent + 1⟩
    else d

end Decimal

namespace Double

/-- Whether `c · 10 ^ e` rounds to the finite positive number `d`. The ends of the interval belong
to it when the significand is even, and it is narrower below a power of two. -/
def readsBack (d : Double) (c : Nat) (e : Int) : Bool :=
  let m := d.significand
  let low : Nat × Int :=
    if m = 0x10000000000000 ∧ -1074 < d.scale then (4 * m - 1, d.scale - 2) else (2 * m - 1, d.scale - 1)
  let high : Nat × Int := (2 * m + 1, d.scale - 1)
  let above := Decimal.compareDyadic c e low.1 low.2
  let below := Decimal.compareDyadic c e high.1 high.2
  if m % 2 = 0 then above != .lt && below != .gt else above == .gt && below == .lt

/-- The exponent of the leading digit of `m · 2 ^ q`: the greatest `k` with `10 ^ k ≤ m · 2 ^ q`. -/
def leadingExponent (m : Nat) (q : Int) : Int :=
  let guess := (((m.log2 : Int) + q) * 30103) / 100000
  if Decimal.compareDyadic 1 (guess + 1) m q != .gt then guess + 1
  else if Decimal.compareDyadic 1 guess m q != .gt then guess
  else guess - 1

/-- The greatest `c` with `c · 10 ^ e ≤ m · 2 ^ q`. -/
def gridFloor (m : Nat) (q : Int) (e : Int) : Nat :=
  (m * Nat.pow 2 q.toNat * Nat.pow 10 (-e).toNat) /
    (Nat.pow 10 e.toNat * Nat.pow 2 (-q).toNat)

/-- The neighbour of the number on the grid `10 ^ e` that reads back, of two the nearer one, of two
equally near ones the even one. -/
def onGrid (d : Double) (e : Int) : Option Nat :=
  let c := gridFloor d.significand d.scale e
  match d.readsBack c e, d.readsBack (c + 1) e with
  | true, false => some c
  | false, true => some (c + 1)
  | false, false => none
  | true, true =>
    match Decimal.compareDyadic (2 * c + 1) e d.significand (d.scale + 1) with
    | .gt => some c
    | .lt => some (c + 1)
    | .eq => if c % 2 = 0 then some c else some (c + 1)

/-- Tries the grids from `e` downwards, `fuel` of them. -/
def finest (d : Double) : Nat → Int → Decimal
  | 0, e => ⟨gridFloor d.significand d.scale e, e⟩
  | fuel + 1, e =>
    match d.onGrid e with
    | some c => ⟨c, e⟩
    | none => finest d fuel (e - 1)

/-- The shortest decimal that reads back as the magnitude of a finite number. -/
def shortest (d : Double) : Decimal :=
  if d.significand = 0 then ⟨0, 0⟩
  else (d.finest 17 (leadingExponent d.significand d.scale)).strip 20

end Double

/-! ## Writing numbers -/

/-- How a format lays out the digits of a number. -/
structure DecimalLayout where
  /-- The least exponent of the leading digit that is written without an exponent. -/
  least : Int
  /-- The greatest such exponent. -/
  greatest : Int
  /-- Whether a positive exponent carries a plus sign. -/
  plus : Bool
deriving DecidableEq, Repr

namespace DecimalLayout

/-- A whole number with its sign. -/
def exponentText (layout : DecimalLayout) (n : Int) : List Char :=
  if n < 0 then '-' :: Nat.toDigits 10 n.natAbs
  else if layout.plus then '+' :: Nat.toDigits 10 n.natAbs
  else Nat.toDigits 10 n.natAbs

/-- Digits with a point after the first `whole` of them, at least one on either side of it. -/
def positional (digits : List Char) (whole : Int) : List Char :=
  if whole ≤ 0 then
    '0' :: '.' :: (List.replicate (-whole).toNat '0' ++ digits)
  else
    let n := whole.toNat
    if digits.length ≤ n then digits ++ List.replicate (n - digits.length) '0' ++ ['.', '0']
    else digits.take n ++ '.' :: digits.drop n

/-- The first digit, the others after a point if there are any, and the exponent. -/
def scientific (layout : DecimalLayout) (digits : List Char) (exponent : Int) : List Char :=
  let mantissa := match digits with
    | [] => ['0']
    | [c] => [c]
    | c :: rest => c :: '.' :: rest
  mantissa ++ 'e' :: layout.exponentText exponent

/-- The text of a finite number. -/
def write (layout : DecimalLayout) (d : Double) : String :=
  let sign := if d.negative then ['-'] else []
  let body :=
    if d.isZero then ['0', '.', '0'] else
    let decimal := d.shortest
    let digits := decimal.digits
    let leading := decimal.exponent + digits.length - 1
    if layout.least ≤ leading ∧ leading ≤ layout.greatest then positional digits (leading + 1)
    else layout.scientific digits leading
  String.ofList (sign ++ body)

end DecimalLayout

end Conduit
