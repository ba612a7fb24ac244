import Conduit.Raster.Basic
import Conduit.Raster.Jpeg.Tables
import Conduit.Raster.Jpeg.Transform

/-!
# Writing JPEG files

Gray or colored rasters of eight bits are written with a quality of 75, in one scan, with as many
samples for hue as for brightness.
-/

namespace Conduit.Jpeg

def quality : Nat := 75

def number16 (n : Nat) : Bytes := [UInt8.ofNat (n / 256), UInt8.ofNat n]

def segment (mark : UInt8) (content : Bytes) : Bytes :=
  [0xff, mark] ++ number16 (content.length + 2) ++ content

/-- What is written of one component of the color: its steps and codes. -/
structure Coding where
  steps : List Nat
  first : Listing
  others : Listing

def brightCoding : Coding := ⟨scaleSteps quality brightSteps, brightFirst, brightOthers⟩

def hueCoding : Coding := ⟨scaleSteps quality hueSteps, hueFirst, hueOthers⟩

/-! ## Colors -/

/-- Brightness and two hues of a color. -/
def hues (p : Pixel) : List Int :=
  match p with
  | [r, g, b] =>
    let r : Int := r
    let g : Int := g
    let b : Int := b
    let middle := 128 * 65536 + 32767
    [(19595 * r + 38469 * g + 7471 * b + 32767) / 65536,
      (-11059 * r - 21709 * g + 32768 * b + middle) / 65536,
      (32768 * r - 27439 * g - 5329 * b + middle) / 65536]
  | p => p.map Int.ofNat

/-- The block from a place on; beyond the edge the last pixels are repeated. -/
def blockAt (r : Raster) (component left top : Nat) : Block :=
  Array.ofFn fun i : Fin 64 =>
    (hues (r.pixel (min (left + i % 8) (r.width - 1)) (min (top + i / 8) (r.height - 1)))).getD
      component 0

/-- Rounds a quotient; a half goes away from zero. -/
def roundDiv (a : Int) (b : Nat) : Int := a.sign * ((2 * a.natAbs + b) / (2 * b) : Nat)

/-- The steps of the coefficients of a block, along the diagonals. -/
def quantize (steps : List Nat) (samples : Block) : List Int :=
  let coefficients := transform samples
  zigzag.map fun i => roundDiv ((coefficients.at i).tdiv 8) (steps.getD i 1)

/-! ## Bits -/

/-- The low bits of a number, the high one first. -/
def bitsOf (size n : Nat) : List Bool := ((List.range size).map fun i => n.testBit i).reverse

def wordOf (words : List (Nat × Nat × Nat)) (symbol : Nat) : List Bool :=
  match words.lookup symbol with
  | some (size, word) => bitsOf size word
  | none => []

/-- How many bits a number takes. -/
def sizeOf (v : Int) : Nat := if v = 0 then 0 else v.natAbs.log2 + 1

/-- The bits of a number of a known size; those of a negative number are inverted. -/
def valueBits (v : Int) : List Bool :=
  let size := sizeOf v
  bitsOf size (if v < 0 then (v + (Nat.pow 2 size : Nat) - 1).toNat else v.toNat)

/-- The other coefficients of a block, after some zeros. -/
def otherBits (words : List (Nat × Nat × Nat)) : (zeros : Nat) → List Int → List Bool
  | zeros, [] => if zeros = 0 then [] else wordOf words 0
  | zeros, v :: rest =>
    if v = 0 then otherBits words (zeros + 1) rest
    else
      (List.replicate (zeros / 16) (wordOf words 0xf0)).flatten ++
        wordOf words (zeros % 16 * 16 + sizeOf v) ++ valueBits v ++ otherBits words 0 rest

/-- A block; of its first coefficient the difference to the one before is written. -/
def blockBits (first others : List (Nat × Nat × Nat)) (before : Int) (steps : List Int) :
    List Bool :=
  let step := steps.headD 0 - before
  wordOf first (sizeOf step) ++ valueBits step ++ otherBits others 0 steps.tail

/-- Whole bytes, filled up with ones; a zero follows each byte that looks like a mark. -/
def packBits : (fuel : Nat) → List Bool → Bytes
  | _, [] => []
  | 0, _ => []
  | fuel + 1, bits =>
    let byte := ((bits ++ List.replicate 7 true).take 8).foldl (fun n b => 2 * n + b.toNat) 0
    let rest := packBits fuel (bits.drop 8)
    if byte = 255 then 0xff :: 0x00 :: rest else UInt8.ofNat byte :: rest

/-! ## The file -/

def codings (c : Color) : List Coding :=
  if c.colored then [brightCoding, hueCoding, hueCoding] else [brightCoding]

def stepsSegment (number : Nat) (c : Coding) : Bytes :=
  segment 0xdb (UInt8.ofNat number :: zigzag.map fun i => UInt8.ofNat (c.steps.getD i 1))

def codeSegment (number : Nat) (l : Listing) : Bytes :=
  segment 0xc4 (UInt8.ofNat number :: (l.counts ++ l.symbols).map UInt8.ofNat)

def frameSegment (r : Raster) (n : Nat) : Bytes :=
  segment 0xc0 (8 :: number16 r.height ++ number16 r.width ++ [UInt8.ofNat n] ++
    (List.range n).flatMap fun i => [UInt8.ofNat (i + 1), 0x11, if i = 0 then 0 else 1])

def scanSegment (n : Nat) : Bytes :=
  segment 0xda (UInt8.ofNat n ::
    ((List.range n).flatMap fun i => [UInt8.ofNat (i + 1), if i = 0 then 0x00 else 0x11]) ++
      [0, 63, 0])

/-- The bits of all blocks: the components of each place together. -/
def scanBits (r : Raster) : List Bool :=
  let components := (codings r.color).zipIdx.map fun (c, k) =>
    (k, c.steps, c.first.code.words, c.others.code.words)
  let places := (List.range ((r.height + 7) / 8)).flatMap fun y =>
    (List.range ((r.width + 7) / 8)).map fun x => (8 * x, 8 * y)
  let out := places.foldl (fun (before, bits) (left, top) =>
    let blocks := components.map fun (k, steps, first, others) =>
      let block := quantize steps (blockAt r k left top)
      (block.headD 0, blockBits first others (before.getD k 0) block)
    (blocks.map Prod.fst, bits ++ [blocks.flatMap Prod.snd])) (([] : List Int), [])
  out.2.flatten

def write (r : Raster) : Bytes :=
  let n := (codings r.color).length
  let bits := scanBits r
  [0xff, 0xd8] ++
    segment 0xe0 [0x4a, 0x46, 0x49, 0x46, 0x00, 0x01, 0x02, 0x00, 0x00, 0x01, 0x00, 0x01, 0x00, 0x00] ++
    frameSegment r n ++ stepsSegment 0 brightCoding ++
    (if n = 3 then stepsSegment 1 hueCoding else []) ++
    codeSegment 0x00 brightFirst ++ codeSegment 0x10 brightOthers ++
    (if n = 3 then codeSegment 0x01 hueFirst ++ codeSegment 0x11 hueOthers else []) ++
    scanSegment n ++ packBits bits.length bits ++ [0xff, 0xd9]

end Conduit.Jpeg
