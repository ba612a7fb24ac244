/-!
# The cosine transform

The cosine transform of blocks of eight by eight numbers and its inverse, in whole numbers. Both go
over the rows or columns one after the other. The forward transform gives eight times the
coefficients.
-/

namespace Conduit.Jpeg

/-- Eight times eight numbers, row by row. -/
abbrev Block := Array Int

def Block.at (b : Block) (i : Nat) : Int := b.getD i 0

/-- The places of a row or a column. -/
inductive Line
  | row (y : Nat)
  | column (x : Nat)

def Line.place : Line → Nat → Nat
  | .row y, i => 8 * y + i
  | .column x, i => 8 * i + x

/-- Replaces a line by a function of its numbers. -/
def Block.onLine (b : Block) (l : Line) (f : (Nat → Int) → List Int) : Block :=
  (f fun i => b.at (l.place i)).zipIdx.foldl (fun b (v, i) => b.setIfInBounds (l.place i) v) b

def eight : List Nat := List.range 8

/-! ## Forward -/

/-- The transform of eight numbers in a scale of 2^13, the sum and the alternating sum apart, which
keep their scale. -/
def forward (sums : Int → Int) (scale : Int → Int) (v : Nat → Int) : List Int :=
  let t0 := v 0 + v 7
  let t1 := v 1 + v 6
  let t2 := v 2 + v 5
  let t3 := v 3 + v 4
  let d0 := v 0 - v 7
  let d1 := v 1 - v 6
  let d2 := v 2 - v 5
  let d3 := v 3 - v 4
  let e0 := t0 + t3
  let e1 := t1 + t2
  let e2 := t0 - t3
  let e3 := t1 - t2
  let z := (e2 + e3) * 4433
  let o := (d0 + d2 + (d1 + d3)) * 9633
  let p := (d0 + d2) * -3196 + o
  let q := (d1 + d3) * -16069 + o
  let a := (d0 + d3) * -7373
  let b := (d1 + d2) * -20995
  [sums (e0 + e1), scale (d0 * 12299 + a + p), scale (z + e2 * 6270), scale (d1 * 25172 + b + q),
    sums (e0 - e1), scale (d2 * 16819 + b + p), scale (z - e3 * 15137), scale (d3 * 2446 + a + q)]

/-- Halves `n` times and rounds. -/
def descale (n : Nat) (v : Int) : Int := (v + (Nat.pow 2 (n - 1) : Nat)) / (Nat.pow 2 n : Nat)

/-- Eight times the coefficients of a block of samples. -/
def transform (samples : Block) : Block :=
  let rows := eight.foldl (fun (b : Block) y =>
    b.onLine (.row y) (forward (· * 4) (descale 11))) (samples.map (· - 128))
  eight.foldl (fun (b : Block) x => b.onLine (.column x) (forward (descale 2) (descale 15))) rows

/-! ## Backward -/

/-- The inverse for eight numbers in a scale of 2^12, rounded to a number of bits. -/
def backward (bias : Int) (n : Nat) (v : Nat → Int) : List Int :=
  let p := (v 2 + v 6) * 2217
  let t2 := p + v 6 * -7567
  let t3 := p + v 2 * 3135
  let t0 := (v 0 + v 4) * 4096
  let t1 := (v 0 - v 4) * 4096
  let x0 := t0 + t3 + bias
  let x3 := t0 - t3 + bias
  let x1 := t1 + t2 + bias
  let x2 := t1 - t2 + bias
  let p5 := (v 7 + v 3 + (v 5 + v 1)) * 4816
  let p1 := p5 + (v 7 + v 1) * -3685
  let p2 := p5 + (v 5 + v 3) * -10497
  let p3 := (v 7 + v 3) * -8034
  let p4 := (v 5 + v 1) * -1597
  let u3 := v 1 * 6149 + p1 + p4
  let u2 := v 3 * 12586 + p2 + p3
  let u1 := v 5 * 8410 + p2 + p4
  let u0 := v 7 * 1223 + p1 + p3
  [x0 + u3, x1 + u2, x2 + u1, x3 + u0, x3 - u0, x2 - u1, x1 - u2, x0 - u3].map (· / (Nat.pow 2 n : Nat))

def clamp8 (v : Int) : Int := min (max v 0) 255

/-- The samples of a block of coefficients. -/
def restore (coefficients : Block) : Block :=
  let columns := eight.foldl (fun (b : Block) x => b.onLine (.column x) (backward 512 10))
    coefficients
  let rows := eight.foldl (fun (b : Block) y =>
    b.onLine (.row y) (backward (512 + 65536 + 128 * 0x20000) 17)) columns
  rows.map clamp8

end Conduit.Jpeg
