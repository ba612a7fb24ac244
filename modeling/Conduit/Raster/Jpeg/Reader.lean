import Conduit.Raster.Basic
import Conduit.Raster.Jpeg.Tables
import Conduit.Raster.Jpeg.Transform

/-!
# Reading JPEG files

Files with one scan of all components are read. Data that ends too early leaves the rest of the
picture gray.
-/

namespace Conduit.Jpeg

structure Component where
  id : Nat
  /-- How many blocks there are for one place of the scan. -/
  across : Nat
  down : Nat
  /-- The number of its table of steps. -/
  steps : Nat
deriving DecidableEq, Repr

structure Frame where
  width : Nat
  height : Nat
  components : List Component
deriving DecidableEq, Repr

namespace Frame

def across (f : Frame) : Nat := (f.components.map (·.across)).foldl max 1

def down (f : Frame) : Nat := (f.components.map (·.down)).foldl max 1

/-- How many places of the scan lie side by side. -/
def columns (f : Frame) : Nat := (f.width + 8 * f.across - 1) / (8 * f.across)

def rows (f : Frame) : Nat := (f.height + 8 * f.down - 1) / (8 * f.down)

end Frame

/-- What the segments before the scan tell. -/
structure Tables where
  /-- Steps by number, along the diagonals. -/
  steps : List (Nat × List Nat) := []
  codes : List (Nat × PrefixCode) := []
  /-- After how many places the scan begins anew; zero for never. -/
  restart : Nat := 0
  frame : Option Frame := none

/-! ## Segments -/

def readSteps : (fuel : Nat) → Tables → List Nat → Option Tables
  | _, t, [] => some t
  | 0, _, _ => none
  | fuel + 1, t, n :: rest =>
    let wide := n / 16 = 1
    let size := if wide then 128 else 64
    if 1 < n / 16 ∨ 3 < n % 16 ∨ rest.length < size then none
    else
      let values := (List.range 64).map fun i =>
        if wide then rest.getD (2 * i) 0 * 256 + rest.getD (2 * i + 1) 0 else rest.getD i 0
      readSteps fuel { t with steps := (n % 16, values) :: t.steps } (rest.drop size)

def readCodes : (fuel : Nat) → Tables → List Nat → Option Tables
  | _, t, [] => some t
  | 0, _, _ => none
  | fuel + 1, t, n :: rest => do
    let counts := rest.take 16
    let size := counts.sum
    if counts.length < 16 ∨ 1 < n / 16 ∨ 3 < n % 16 ∨ rest.length < 16 + size ∨ 256 < size then none
    else
      let _ ← PrefixCode.spare? counts
      let code : PrefixCode := ⟨counts, ((rest.drop 16).take size).toArray⟩
      readCodes fuel { t with codes := (n, code) :: t.codes } (rest.drop (16 + size))

def readComponents : List Nat → Option (List Component)
  | [] => some []
  | id :: sampling :: steps :: rest => do
    let c : Component := { id, across := sampling / 16, down := sampling % 16, steps }
    if c.across = 0 ∨ c.down = 0 ∨ 4 < c.across ∨ 4 < c.down then none
    else return c :: (← readComponents rest)
  | _ => none

def readFrame : List Nat → Option Frame
  | 8 :: h1 :: h2 :: w1 :: w2 :: n :: rest => do
    let components ← readComponents rest
    let f : Frame := { width := w1 * 256 + w2, height := h1 * 256 + h2, components }
    if components.length = n ∧ (n = 1 ∨ n = 3) ∧ f.width ≠ 0 ∧ f.height ≠ 0 then some f else none
  | _ => none

/-- The components of a scan with the numbers of their codes. -/
def readScan : List Nat → Option (List (Nat × Nat))
  | n :: rest =>
    if rest.length ≠ 2 * n + 3 then none
    else some ((List.range n).map fun i => (rest.getD (2 * i) 0, rest.getD (2 * i + 1) 0))
  | [] => none

/-- Reads segments up to the scan; gives the tables, the head of the scan and its data. -/
def readSegments : (fuel : Nat) → Tables → List Nat →
    Option (Tables × List (Nat × Nat) × List Nat)
  | 0, _, _ => none
  | fuel + 1, t, bytes =>
    match bytes with
    | 0xff :: 0xff :: rest => readSegments fuel t (0xff :: rest)
    | 0xff :: mark :: l1 :: l2 :: rest =>
      let size := l1 * 256 + l2 - 2
      let content := rest.take size
      let others := rest.drop size
      if l1 * 256 + l2 < 2 ∨ content.length < size then none
      else
        match mark with
        | 0xdb => do readSegments fuel (← readSteps size t content) others
        | 0xc4 => do readSegments fuel (← readCodes size t content) others
        | 0xc0 | 0xc1 => do
          let frame ← readFrame content
          readSegments fuel { t with frame := some frame } others
        | 0xdd => readSegments fuel { t with restart := content.getD 0 0 * 256 + content.getD 1 0 } others
        | 0xda => do return (t, ← readScan content, others)
        | 0xd9 => none
        | mark =>
          if 0xc2 ≤ mark ∧ mark ≤ 0xcf then none else readSegments fuel t others
    | _ => none

/-! ## The scan -/

def byteBits (n : Nat) : List Bool := ((List.range 8).map fun i => n.testBit i).reverse

/-- The bits of a scan, cut where it begins anew, up to the next mark. -/
def scanParts : List Nat → List Bool → List (List Bool)
  | 0xff :: 0x00 :: rest, bits => scanParts rest ((byteBits 0xff).reverse ++ bits)
  | 0xff :: mark :: rest, bits =>
    if 0xd0 ≤ mark ∧ mark ≤ 0xd7 then bits.reverse :: scanParts rest [] else [bits.reverse]
  | b :: rest, bits => scanParts rest ((byteBits b).reverse ++ bits)
  | [], bits => [bits.reverse]

/-- Reads a number of a known size; one whose first bit is not set is negative. -/
def readValue (size : Nat) (bits : List Bool) : Option (Int × List Bool) :=
  if bits.length < size then none
  else
    let n : Int := ((bits.take size).foldl (fun n b => 2 * n + b.toNat) 0 : Nat)
    some (if size = 0 ∨ bits.head? = some true then n else n - (Nat.pow 2 size : Nat) + 1, bits.drop size)

/-- Reads the other coefficients of a block from a place along the diagonals on. -/
def readOthers (code : PrefixCode) (steps : List Nat) :
    (fuel : Nat) → (place : Nat) → Block → List Bool → Option (Block × List Bool)
  | 0, _, b, bits => some (b, bits)
  | fuel + 1, place, b, bits =>
    if 64 ≤ place then some (b, bits)
    else do
      let (s, bits) ← code.read bits
      let size := s % 16
      if size = 0 then
        if s / 16 = 15 then readOthers code steps fuel (place + 16) b bits else some (b, bits)
      else
        let place := place + s / 16
        let (v, bits) ← readValue size bits
        readOthers code steps fuel (place + 1)
          (b.setIfInBounds (zigzag.getD place 64) (v * steps.getD place 0)) bits

/-- What a scan needs to know of a component. -/
structure Coded where
  across : Nat
  down : Nat
  steps : List Nat
  first : PrefixCode
  others : PrefixCode

/-- Reads a block, given the first coefficient of the one before. -/
def readBlock (c : Coded) (before : Int) (bits : List Bool) : Option (Block × Int × List Bool) := do
  let (size, bits) ← c.first.read bits
  let (step, bits) ← readValue size bits
  let v := before + step
  let b : Block := (Array.replicate 64 0).setIfInBounds 0 (v * c.steps.getD 0 0)
  let (b, bits) ← readOthers c.others c.steps 64 1 b bits
  return (b, v, bits)

/-- The samples of a component, with the width of its rows. -/
structure Plane where
  width : Nat
  samples : Array Int

def Plane.put (p : Plane) (left top : Nat) (b : Block) : Plane :=
  { p with samples := (List.range 64).foldl (fun samples i =>
      samples.setIfInBounds ((top + i / 8) * p.width + left + i % 8) (b.at i)) p.samples }

/-- The scan as far as it has been read. -/
structure Progress where
  planes : List Plane
  before : List Int
  bits : List Bool

/-- Reads the blocks of one component at one place. -/
def readPart (c : Coded) (k column row : Nat) (p : Progress) : Option Progress :=
  (List.range (c.across * c.down)).foldlM (fun p i => do
    let (b, v, bits) ← readBlock c (p.before.getD k 0) p.bits
    let left := 8 * (column * c.across + i % c.across)
    let top := 8 * (row * c.down + i / c.across)
    return {
      planes := p.planes.modify k (·.put left top (restore b))
      before := p.before.set k v
      bits }) p

def readPlace (cs : List Coded) (columns place : Nat) (p : Progress) : Option Progress :=
  cs.zipIdx.foldlM (fun p (c, k) => readPart c k (place % columns) (place / columns) p) p

/-- Reads places for as long as there is data. -/
def readPlaces (cs : List Coded) (columns : Nat) : List Nat → Progress → Progress
  | [], p => p
  | place :: rest, p =>
    match readPlace cs columns place p with
    | some p => readPlaces cs columns rest p
    | none => p

def codedOf (t : Tables) (scan : List (Nat × Nat)) (single : Bool) (c : Component) :
    Option Coded := do
  let tables ← scan.lookup c.id
  return {
    across := if single then 1 else c.across
    down := if single then 1 else c.down
    steps := ← t.steps.lookup c.steps
    first := ← t.codes.lookup (tables / 16)
    others := ← t.codes.lookup (16 + tables % 16) }

/-! ## The picture -/

/-- The color of a brightness and two hues. -/
def colorOf (y b r : Int) : Pixel :=
  let b := b - 128
  let r := r - 128
  let base := y * 16384 + 8191
  [base + r * 22970, base - r * 11700 - b * 5638, base + b * 29032].map fun v =>
    (clamp8 (v / 16384)).toNat

/-- Reads a file. -/
def read (bytes : Bytes) : Option Raster := do
  let bytes := bytes.map (·.toNat)
  if bytes.take 2 ≠ [0xff, 0xd8] then none
  else
    let (t, scan, data) ← readSegments bytes.length {} (bytes.drop 2)
    let f ← t.frame
    let single := f.components.length = 1
    let f := if single then
        { f with components := f.components.map fun c => { c with across := 1, down := 1 } }
      else f
    let cs ← f.components.mapM (codedOf t scan single)
    let columns := f.columns
    let count := columns * f.rows
    let size := if t.restart = 0 then count else t.restart
    let empty := cs.map fun c =>
      ({ width := 8 * c.across * columns,
         samples := Array.replicate (64 * c.across * c.down * count) 128 } : Plane)
    let (planes, _) := (scanParts data []).foldl (fun (planes, start) bits =>
      let places := (List.range (min size (count - start))).map (start + ·)
      ((readPlaces cs columns places ⟨planes, cs.map fun _ => 0, bits⟩).planes, start + size))
      (empty, 0)
    let value := fun (k x y : Nat) =>
      match planes[k]?, cs[k]? with
      | some p, some c =>
        p.samples.getD ((y * c.down / f.down) * p.width + x * c.across / f.across) 128
      | _, _ => 128
    if single then
      return Raster.generate .gray f.width f.height fun x y => [(value 0 x y).toNat]
    else
      return Raster.generate .rgb f.width f.height fun x y =>
        colorOf (value 0 x y) (value 1 x y) (value 2 x y)

end Conduit.Jpeg
