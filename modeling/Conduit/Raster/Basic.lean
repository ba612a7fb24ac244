import Conduit.Text.Utf8

/-!
# Rasters

A raster is a picture as rows of pixels. Its color says which channels a pixel has and how deep a
sample is.
-/

namespace Conduit

/-- The channels of a pixel: one for gray or three for colors, and one more for opacity. -/
structure Color where
  colored : Bool
  alpha : Bool
  /-- Whether a sample has sixteen bits, or else eight. -/
  deep : Bool := false
deriving DecidableEq, Repr

namespace Color

def gray : Color := ⟨false, false, false⟩

def rgb : Color := ⟨true, false, false⟩

def channels (c : Color) : Nat := (if c.colored then 3 else 1) + (if c.alpha then 1 else 0)

/-- How many bytes the samples of a picture take. -/
def bytes (c : Color) (width height : Nat) : Nat :=
  c.channels * (if c.deep then 2 else 1) * width * height

/-- The greatest sample. -/
def top (c : Color) : Nat := if c.deep then 65535 else 255

def name (c : Color) : String :=
  (if c.colored then "Rgb" else "L") ++ (if c.alpha then "a" else "") ++
    (if c.deep then "16" else "8")

end Color

/-- The samples of one pixel, channel by channel. -/
abbrev Pixel := List Nat

structure Raster where
  color : Color
  width : Nat
  height : Nat
  /-- The pixels row by row, from the top and from the left. -/
  pixels : Array Pixel
deriving DecidableEq

namespace Raster

/-- The raster whose pixels a function gives by column and row. -/
def generate (color : Color) (width height : Nat) (f : (x y : Nat) → Pixel) : Raster where
  color
  width
  height
  pixels := Array.ofFn fun i : Fin (width * height) => f (i % width) (i / width)

def pixel (r : Raster) (x y : Nat) : Pixel := r.pixels.getD (y * r.width + x) []

/-- One sample of a pixel; a channel that is not there counts as zero. -/
def sample (r : Raster) (x y k : Nat) : Nat := (r.pixel x y).getD k 0

def mapPixels (color : Color) (f : Pixel → Pixel) (r : Raster) : Raster :=
  { r with color, pixels := r.pixels.map f }

/-! ## Turning and flipping -/

/-- Turns a raster clockwise. -/
def rotate90 (r : Raster) : Raster :=
  generate r.color r.height r.width fun x y => r.pixel y (r.height - 1 - x)

/-- Swaps left and right. -/
def flipHorizontal (r : Raster) : Raster :=
  generate r.color r.width r.height fun x y => r.pixel (r.width - 1 - x) y

/-! ## Colors -/

/-- How bright a color is. -/
def luma (red green blue : Nat) : Nat := (2126 * red + 7152 * green + 722 * blue) / 10000

def grayPixel : Pixel → Pixel
  | red :: green :: blue :: alpha => luma red green blue :: alpha
  | p => p

def grayscale (r : Raster) : Raster :=
  if r.color.colored then r.mapPixels { r.color with colored := false } grayPixel else r

/-- The nearest sample of eight bits. -/
def narrow (sample : Nat) : Nat := (sample + 128) / 257

/-- Makes samples eight bits deep. -/
def shallow (r : Raster) : Raster :=
  if r.color.deep then r.mapPixels { r.color with deep := false } (·.map narrow) else r

/-- Leaves the opacity out. -/
def opaquePixel (c : Color) (p : Pixel) : Pixel := p.take (if c.colored then 3 else 1)

/-- Three equal samples for a gray one. -/
def spread : Pixel → Pixel
  | v :: _ => [v, v, v]
  | [] => []

/-- Without opacity in eight bits. A raster that had opacity becomes colored. -/
def flat (r : Raster) : Raster :=
  let r := r.shallow
  if r.color.alpha then
    r.mapPixels .rgb fun p =>
      if r.color.colored then opaquePixel r.color p else spread p
  else r

end Raster

end Conduit
