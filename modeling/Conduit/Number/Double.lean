/-!
# Binary floating-point numbers

A `Double` is a 64-bit binary floating-point number, kept as its bit pattern. A finite one stands
for `± significand · 2 ^ scale`; everything a rule of this library depends on (rounding, order,
the four operations) is computed on those whole numbers, so it can be reasoned about.
-/

namespace Conduit

structure Double where
  bits : UInt64
deriving DecidableEq, Repr, Inhabited

namespace Double

/-- The bit pattern without its sign. Patterns of one sign are ordered as the numbers are. -/
def magnitude (d : Double) : Nat := d.bits.toNat % 0x8000000000000000

def negative (d : Double) : Bool := decide (0x8000000000000000 ≤ d.bits.toNat)

def ofMagnitude (negative : Bool) (magnitude : Nat) : Double :=
  ⟨UInt64.ofNat (if negative then 0x8000000000000000 + magnitude else magnitude)⟩

/-- The magnitude of the infinities; greater ones belong to no number. -/
def infinite : Nat := 0x7ff * 0x10000000000000

def isNaN (d : Double) : Bool := decide (infinite < d.magnitude)

def isInfinite (d : Double) : Bool := d.magnitude == infinite

def isFinite (d : Double) : Bool := decide (d.magnitude < infinite)

def isZero (d : Double) : Bool := d.magnitude == 0

def zero : Double := ofMagnitude false 0

def infinity (negative : Bool) : Double := ofMagnitude negative infinite

def nan : Double := ofMagnitude false (infinite + 0x8000000000000)

def neg (d : Double) : Double := ofMagnitude (!d.negative) d.magnitude

def abs (d : Double) : Double := ofMagnitude false d.magnitude

/-- The whole number that carries the digits of a finite number. -/
def significand (d : Double) : Nat :=
  if d.magnitude < 0x10000000000000 then d.magnitude else d.magnitude % 0x10000000000000 + 0x10000000000000

/-- The power of two that the significand is multiplied by. -/
def scale (d : Double) : Int :=
  if d.magnitude < 0x10000000000000 then -1074 else (d.magnitude / 0x10000000000000 : Nat) - 1075

/-! ## Rounding -/

/-- The whole number nearest to `num / den`, of two the even one. -/
def roundHalfEven (num den : Nat) : Nat :=
  let q := num / den
  let r := num % den
  if 2 * r < den then q else if den < 2 * r then q + 1 else if q % 2 = 0 then q else q + 1

/-- `num / den` divided by `2 ^ shift`, as a numerator and a denominator. -/
def shifted (num den : Nat) : Int → Nat × Nat
  | .ofNat k => (num, den <<< k)
  | .negSucc k => (num <<< (k + 1), den)

/-- The magnitude nearest to `num / den`. A carry out of the significand moves into the exponent
because the two are adjacent in the pattern. -/
def roundMagnitude (num den : Nat) : Nat :=
  if num = 0 then 0 else
  let guess : Int := max (-1074) ((num.log2 : Int) - (den.log2 : Int) - 53)
  let first := shifted num den guess
  let q := if 0x20000000000000 ≤ first.1 / first.2 then guess + 1 else guess
  let last := shifted num den q
  min infinite ((q + 1074).toNat * 0x10000000000000 + roundHalfEven last.1 last.2)

/-- The number nearest to `± num / den`, a half going to the even neighbour. -/
def ofRatio (negative : Bool) (num den : Nat) : Double :=
  ofMagnitude negative (roundMagnitude num den)

def ofNat (n : Nat) : Double := ofRatio false n 1

def ofInt (n : Int) : Double := ofRatio (decide (n < 0)) n.natAbs 1

/-- The number nearest to `± m · 2 ^ q`. -/
def ofDyadic (negative : Bool) (m : Nat) : Int → Double
  | .ofNat k => ofRatio negative (m <<< k) 1
  | .negSucc k => ofRatio negative m (1 <<< (k + 1))

/-! ## Arithmetic -/

def mul (a b : Double) : Double :=
  let sign := a.negative != b.negative
  if a.isNaN || b.isNaN then nan
  else if a.isInfinite || b.isInfinite then
    if a.isZero || b.isZero then nan else infinity sign
  else ofDyadic sign (a.significand * b.significand) (a.scale + b.scale)

def div (a b : Double) : Double :=
  let sign := a.negative != b.negative
  if a.isNaN || b.isNaN then nan
  else if a.isInfinite then if b.isInfinite then nan else infinity sign
  else if b.isInfinite then ofMagnitude sign 0
  else if b.isZero then if a.isZero then nan else infinity sign
  else
    let parts := shifted a.significand b.significand (b.scale - a.scale)
    ofRatio sign parts.1 parts.2

/-- A finite number as a signed count of `2 ^ base`, for `base` at most its scale. -/
def count (d : Double) (base : Int) : Int :=
  let m : Int := ((d.significand <<< (d.scale - base).toNat : Nat) : Int)
  if d.negative then -m else m

def add (a b : Double) : Double :=
  if a.isNaN || b.isNaN then nan
  else if a.isInfinite then if b.isInfinite && a.negative != b.negative then nan else a
  else if b.isInfinite then b
  else
    let base := min a.scale b.scale
    let sum := a.count base + b.count base
    if sum = 0 then ofMagnitude (a.negative && b.negative) 0
    else ofDyadic (decide (sum < 0)) sum.natAbs base

def sub (a b : Double) : Double := add a b.neg

/-- The remainder of the quotient cut towards zero; it has the sign of `a`. -/
def rem (a b : Double) : Double :=
  if a.isNaN || b.isNaN || a.isInfinite || b.isZero then nan
  else if b.isInfinite then a
  else
    let base := min a.scale b.scale
    let left := (a.count base).natAbs % (b.count base).natAbs
    if left = 0 then ofMagnitude a.negative 0 else ofDyadic a.negative left base

instance : Neg Double := ⟨neg⟩
instance : Add Double := ⟨add⟩
instance : Sub Double := ⟨sub⟩
instance : Mul Double := ⟨mul⟩
instance : Div Double := ⟨div⟩

/-! ## Order -/

/-- A whole number that orders the numbers as they are; both zeros have the key zero. -/
def key (d : Double) : Int := if d.negative then -(d.magnitude : Int) else d.magnitude

/-- How two numbers compare; nothing compares with what is not a number. -/
def order (a b : Double) : Option Ordering :=
  if a.isNaN || b.isNaN then none else some (compare a.key b.key)

def equal (a b : Double) : Bool := a.order b == some .eq

def less (a b : Double) : Bool := a.order b == some .lt

def lessEq (a b : Double) : Bool := a.less b || a.equal b

/-! ## Whole numbers -/

/-- The whole part, cut towards zero. -/
def truncate (d : Double) : Int :=
  let m : Nat := match d.scale with
    | .ofNat k => d.significand <<< k
    | .negSucc k => d.significand >>> (k + 1)
  if d.negative then -(m : Int) else m

/-- Whether a finite number is whole. -/
def isWhole (d : Double) : Bool :=
  match d.scale with
  | .ofNat _ => true
  | .negSucc k => d.significand % (1 <<< (k + 1)) == 0

/-- The least whole number that is not below the number. -/
def ceiling (d : Double) : Int :=
  if d.isWhole || d.negative then d.truncate else d.truncate + 1

/-- The greatest whole number that is not above the number. -/
def floor (d : Double) : Int :=
  if d.isWhole || !d.negative then d.truncate else d.truncate - 1

/-- The nearest whole number, a half going away from zero. -/
def nearest (d : Double) : Int :=
  let twice : Nat := match d.scale with
    | .ofNat k => d.significand <<< (k + 1)
    | .negSucc k => d.significand >>> k
  let m : Nat := (twice + 1) / 2
  if d.negative then -(m : Int) else m

/-- A whole number that keeps the sign of a number which may be a negative zero. -/
def ofWhole (sign : Bool) (n : Int) : Double :=
  if n = 0 then ofMagnitude sign 0 else ofInt n

/-! ## The machine's numbers -/

def toFloat (d : Double) : Float := Float.ofBits d.bits

def ofFloat (x : Float) : Double := ⟨x.toBits⟩

end Double

end Conduit
