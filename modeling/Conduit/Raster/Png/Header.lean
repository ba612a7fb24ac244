import Conduit.Raster.Basic
import Conduit.Raster.Deflate

/-!
# Parts of PNG files

A file is a signature and a row of chunks, each with a checksum. The first chunk is the header.
Files are written with rows from the top, without filters and not compressed.
-/

namespace Conduit.Png

def signature : Bytes := [0x89, 0x50, 0x4e, 0x47, 0x0d, 0x0a, 0x1a, 0x0a]

/-- How the samples of a file are to be understood. -/
inductive Kind
  | gray
  | rgb
  /-- A sample is the number of a color in a palette. -/
  | palette
  | grayAlpha
  | rgbAlpha
deriving DecidableEq, Repr

namespace Kind

def ofNumber? : Nat → Option Kind
  | 0 => some .gray
  | 2 => some .rgb
  | 3 => some .palette
  | 4 => some .grayAlpha
  | 6 => some .rgbAlpha
  | _ => none

def number : Kind → Nat
  | .gray => 0
  | .rgb => 2
  | .palette => 3
  | .grayAlpha => 4
  | .rgbAlpha => 6

def channels : Kind → Nat
  | .gray | .palette => 1
  | .grayAlpha => 2
  | .rgb => 3
  | .rgbAlpha => 4

/-- The depths that samples may have. -/
def depths : Kind → List Nat
  | .gray => [1, 2, 4, 8, 16]
  | .palette => [1, 2, 4, 8]
  | _ => [8, 16]

def ofColor (c : Color) : Kind :=
  match c.colored, c.alpha with
  | false, false => .gray
  | false, true => .grayAlpha
  | true, false => .rgb
  | true, true => .rgbAlpha

end Kind

structure Header where
  width : Nat
  height : Nat
  depth : Nat
  kind : Kind
  interlaced : Bool := false
deriving DecidableEq, Repr

namespace Header

/-- How many bits a pixel takes. -/
def bits (h : Header) : Nat := h.depth * h.kind.channels

/-- How many bytes a row of so many pixels takes. -/
def rowSize (h : Header) (width : Nat) : Nat := (h.bits * width + 7) / 8

end Header

def number32 (a b c d : UInt8) : Nat :=
  ((a.toNat * 256 + b.toNat) * 256 + c.toNat) * 256 + d.toNat

def Header.read : Bytes → Option Header
  | [w1, w2, w3, w4, h1, h2, h3, h4, depth, kind, 0, 0, lace] => do
    let kind ← Kind.ofNumber? kind.toNat
    let h : Header := {
      width := number32 w1 w2 w3 w4, height := number32 h1 h2 h3 h4, depth := depth.toNat, kind,
      interlaced := lace = 1 }
    if h.width ≠ 0 ∧ h.height ≠ 0 ∧ h.depth ∈ kind.depths ∧ lace ≤ 1 then some h else none
  | _ => none

def Header.toBytes (h : Header) : Bytes :=
  Deflate.bytes32 (UInt32.ofNat h.width) ++ Deflate.bytes32 (UInt32.ofNat h.height) ++
    [UInt8.ofNat h.depth, UInt8.ofNat h.kind.number, 0, 0, if h.interlaced then 1 else 0]

abbrev ChunkName := Bytes

def headerName : ChunkName := [0x49, 0x48, 0x44, 0x52]
def paletteName : ChunkName := [0x50, 0x4c, 0x54, 0x45]
def opacityName : ChunkName := [0x74, 0x52, 0x4e, 0x53]
def dataName : ChunkName := [0x49, 0x44, 0x41, 0x54]
def endName : ChunkName := [0x49, 0x45, 0x4e, 0x44]

/-- Whether a reader may not do without the chunk. -/
def isCritical (name : ChunkName) : Bool :=
  match name with
  | first :: _ => !first.toNat.testBit 5
  | [] => false

structure Chunk where
  name : ChunkName
  data : Bytes
  /-- Whether the checksum agrees. -/
  sound : Bool := true
deriving DecidableEq

namespace Chunk

def read : Bytes → Option (Chunk × Bytes)
  | l1 :: l2 :: l3 :: l4 :: n1 :: n2 :: n3 :: n4 :: rest => do
    let name := [n1, n2, n3, n4]
    let length := number32 l1 l2 l3 l4
    let data := rest.take length
    match rest.drop length with
    | c1 :: c2 :: c3 :: c4 :: rest =>
      let check := UInt32.ofNat (number32 c1 c2 c3 c4)
      some ({ name, data, sound := Checksum.crc32 (name ++ data) = check }, rest)
    | _ => none
  | _ => none

def toBytes (c : Chunk) : Bytes :=
  Deflate.bytes32 (UInt32.ofNat c.data.length) ++ c.name ++ c.data ++
    Deflate.bytes32 (Checksum.crc32 (c.name ++ c.data))

end Chunk

/-! ## Interlacing -/

/-- Every so many pixels from a place on, in both directions. -/
structure Pass where
  left : Nat
  top : Nat
  across : Nat
  down : Nat
deriving DecidableEq, Repr

/-- The passes of a file: one for all pixels, or the seven of interlaced files. -/
def passes (interlaced : Bool) : List Pass :=
  if interlaced then
    [⟨0, 0, 8, 8⟩, ⟨4, 0, 8, 8⟩, ⟨0, 4, 4, 8⟩, ⟨2, 0, 4, 4⟩, ⟨0, 2, 2, 4⟩, ⟨1, 0, 2, 2⟩, ⟨0, 1, 1, 2⟩]
  else [⟨0, 0, 1, 1⟩]

/-- How many pixels of so many a pass takes in one direction. -/
def count (size first step : Nat) : Nat := (size - first + (step - 1)) / step

/-- How many bytes of data the rows of all passes take. -/
def Header.dataSize (h : Header) : Nat :=
  (passes h.interlaced).foldl (fun size p =>
    let width := count h.width p.left p.across
    if width = 0 then size else size + (1 + h.rowSize width) * count h.height p.top p.down) 0

/-! ## Writing -/

def sampleBytes (deep : Bool) (v : Nat) : Bytes :=
  if deep then [UInt8.ofNat (v / 256), UInt8.ofNat v] else [UInt8.ofNat v]

/-- The rows of a raster, each behind the number of its filter. -/
def rowBytes (r : Raster) : Bytes :=
  (List.range r.height).flatMap fun y =>
    0 :: (List.range r.width).flatMap fun x => (r.pixel x y).flatMap (sampleBytes r.color.deep)

def headerOf (r : Raster) : Header where
  width := r.width
  height := r.height
  depth := if r.color.deep then 16 else 8
  kind := .ofColor r.color

def write (r : Raster) : Bytes :=
  signature ++ Chunk.toBytes { name := headerName, data := (headerOf r).toBytes } ++
    Chunk.toBytes { name := dataName, data := Deflate.deflate (rowBytes r) } ++
    Chunk.toBytes { name := endName, data := [] }

end Conduit.Png
