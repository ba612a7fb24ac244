import Conduit.Raster.Png.Header

/-!
# Reading PNG files

A palette is resolved, gray samples of few bits are spread over a whole byte, and a color that
counts as transparent becomes an opacity channel.
-/

namespace Conduit.Png

/-- What the chunks of a file tell. -/
structure Parts where
  header : Option Header := none
  palette : Option Bytes := none
  opacity : Option Bytes := none
  /-- The pieces of the data, the last one first. -/
  data : List Bytes := []

namespace Parts

def add (p : Parts) (c : Chunk) : Option Parts :=
  if p.header.isNone then
    if c.name = headerName then (Header.read c.data).map fun h => { p with header := some h }
    else none
  else if c.name = paletteName then
    some (if p.palette.isNone then { p with palette := some c.data } else p)
  else if c.name = opacityName then
    some (if p.opacity.isNone then { p with opacity := some c.data } else p)
  else if c.name = dataName then some { p with data := c.data :: p.data }
  else if c.name = headerName ∨ c.name = endName then none
  else some p

/-- Reads chunks up to the one behind the data. -/
def readFrom : (fuel : Nat) → Parts → Bytes → Option Parts
  | 0, _, _ => none
  | fuel + 1, p, bytes =>
    let name := (bytes.drop 4).take 4
    if name.length = 4 ∧ name ≠ dataName ∧ !p.data.isEmpty then some p
    else do
      let (c, rest) ← Chunk.read bytes
      if c.sound then readFrom fuel (← p.add c) rest
      else if isCritical c.name then none
      else readFrom fuel p rest

def read (bytes : Bytes) : Option Parts := readFrom bytes.length {} bytes

end Parts

/-! ## Rows -/

/-- The guess among left, up and corner that is nearest to their trend. -/
def paeth (left up corner : Nat) : Nat :=
  let trend : Int := left + up - corner
  let far := fun (n : Nat) => (trend - n).natAbs
  if far left ≤ far up ∧ far left ≤ far corner then left
  else if far up ≤ far corner then up
  else corner

/-- What a filter adds to a byte, from the bytes to the left, above and in the corner. -/
def predict? (filter : UInt8) : Option (Nat → Nat → Nat → Nat) :=
  match filter with
  | 0 => some fun _ _ _ => 0
  | 1 => some fun left _ _ => left
  | 2 => some fun _ up _ => up
  | 3 => some fun left up _ => (left + up) / 2
  | 4 => some paeth
  | _ => none

/-- Undoes the filter of a row; `reach` is how far the byte to the left is away. -/
def unfilterRow (reach : Nat) (above : Array UInt8) (f : Nat → Nat → Nat → Nat)
    (row : List UInt8) : Array UInt8 :=
  row.foldl (fun done b =>
    let i := done.size
    let left := if reach ≤ i then (done.getD (i - reach) 0).toNat else 0
    let corner := if reach ≤ i then (above.getD (i - reach) 0).toNat else 0
    done.push (b + UInt8.ofNat (f left (above.getD i 0).toNat corner))) (Array.emptyWithCapacity row.length)

/-- Takes rows off the data and undoes their filters. -/
def readRows (size reach : Nat) :
    (rows : Nat) → Array UInt8 → List UInt8 → Option (List (Array UInt8) × List UInt8)
  | 0, _, data => some ([], data)
  | rows + 1, above, data =>
    match data with
    | [] => none
    | filter :: data => do
      let f ← predict? filter
      let row := data.take size
      if row.length < size then none
      else
        let row := unfilterRow reach above f row
        let (rest, data) ← readRows size reach rows row (data.drop size)
        return (row :: rest, data)

/-- The sample at a place of a row. -/
def sampleAt (depth : Nat) (row : Array UInt8) (i : Nat) : Nat :=
  if depth = 16 then (row.getD (2 * i) 0).toNat * 256 + (row.getD (2 * i + 1) 0).toNat
  else
    let place := i * depth
    (row.getD (place / 8) 0).toNat / Nat.pow 2 (8 - depth - place % 8) % Nat.pow 2 depth

/-- The pixels of a file before anything is resolved, by number. -/
def readPixels (h : Header) (data : List UInt8) : Option (Array Pixel) := do
  let empty := Array.replicate (h.width * h.height) ([] : Pixel)
  let channels := h.kind.channels
  let step := fun ((pixels : Array Pixel), data) (p : Pass) =>
    let width := count h.width p.left p.across
    let height := count h.height p.top p.down
    if width = 0 ∨ height = 0 then some (pixels, data)
    else do
      let size := h.rowSize width
      let (rows, data) ← readRows size (max (h.bits / 8) 1) height #[] data
      let pixels := (rows.zipIdx).foldl (fun pixels (row, y) =>
        (List.range width).foldl (fun (pixels : Array Pixel) x =>
          pixels.setIfInBounds ((p.top + y * p.down) * h.width + p.left + x * p.across)
            ((List.range channels).map fun k => sampleAt h.depth row (x * channels + k)))
          pixels) pixels
      return (pixels, data)
  let (pixels, _) ← (passes h.interlaced).foldlM step (empty, data)
  return pixels

/-! ## Colors -/

/-- The color of a palette with a number; black if there is none. -/
def paletteColor (palette : Array UInt8) (i : Nat) : Pixel :=
  (List.range 3).map fun k => (palette.getD (3 * i + k) 0).toNat

/-- The color that counts as transparent; of samples up to eight bits only the low byte counts. -/
def hiddenColor (h : Header) : Bytes → List Nat
  | a :: b :: rest =>
    (if h.depth = 16 then a.toNat * 256 + b.toNat else b.toNat) :: hiddenColor h rest
  | _ => []

/-- Resolves the pixels of a file. -/
def resolve (h : Header) (p : Parts) (pixels : Array Pixel) : Option Raster :=
  let deep := h.depth = 16
  let raster := fun (colored alpha : Bool) (f : Pixel → Pixel) =>
    ({ color := ⟨colored, alpha, deep⟩, width := h.width, height := h.height,
       pixels := pixels.map f } : Raster)
  let spread := fun (v : Nat) => if h.depth < 8 then v * (255 / (Nat.pow 2 h.depth - 1)) else v
  let opacity := fun (hidden : List Nat) (v : Pixel) =>
    if v = hidden then 0 else if deep then 65535 else 255
  match h.kind with
  | .palette => do
    let palette := (← p.palette).toArray
    match p.opacity with
    | none => return raster true false fun v => paletteColor palette (v.headD 0)
    | some bytes =>
      let opacities := bytes.toArray
      return raster true true fun v =>
        let i := v.headD 0
        paletteColor palette i ++ [(opacities.getD i 255).toNat]
  | .gray =>
    match p.opacity with
    | none => some (raster false false (·.map spread))
    | some bytes =>
      let hidden := (hiddenColor h bytes).take 1
      some (raster false true fun v => v.map spread ++ [opacity hidden v])
  | .rgb =>
    match p.opacity with
    | none => some (raster true false id)
    | some bytes =>
      let hidden := (hiddenColor h bytes).take 3
      some (raster true true fun v => v ++ [opacity hidden v])
  | .grayAlpha => some (raster false true id)
  | .rgbAlpha => some (raster true true id)

/-- Reads a file. -/
def read (bytes : Bytes) : Option Raster := do
  if bytes.take 8 ≠ signature then none
  else
    let p ← Parts.read (bytes.drop 8)
    let h ← p.header
    let data ← Deflate.inflate p.data.reverse.flatten
    if data.size < h.dataSize then none else resolve h p (← readPixels h data.toList)

end Conduit.Png
