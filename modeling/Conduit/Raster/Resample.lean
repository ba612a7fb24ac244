import Conduit.Number.Double
import Conduit.Raster.Basic

/-!
# Rasters of another size

A raster is fitted into a box so that its proportions stay. A new pixel is a weighted mean of old
ones, in single precision: by a triangle as wide as the distance between new pixels, or by the
plain mean of the pixels that it covers.
-/

namespace Conduit.Raster

/-- The size that fits a picture into a box, in one direction or the other. -/
def fit (width height boxWidth boxHeight : Nat) : Nat × Nat :=
  let wide := Double.ofNat boxWidth / Double.ofNat width
  let high := Double.ofNat boxHeight / Double.ofNat height
  let ratio := if high.less wide then high else wide
  let side := fun (n : Nat) => max (Double.ofNat n * ratio).nearest.toNat 1
  (side width, side height)

/-- The bytes of the longest buffer that can be asked for. Nobody makes a picture larger than
that. -/
def longestBuffer : Nat := 0x7fffffffffffffff

def single (n : Nat) : Float32 := Float32.ofNat n

/-! ## By triangles -/

def triangle (x : Float32) : Float32 := if x.abs < 1 then 1 - x.abs else 0

/-- The old places that a new one is made of: the first of them and the weight of each. -/
def weights (old new place : Nat) : Nat × List Float32 :=
  let ratio := single old / single new
  let scale := if ratio < 1 then 1 else ratio
  let center := (single place + 0.5) * ratio
  let left := min (center - scale).floor.toUInt64.toNat (old - 1)
  let right := max (min (center + scale).ceil.toUInt64.toNat old) (left + 1)
  let raw := (List.range (right - left)).map fun i =>
    triangle ((single (left + i) - (center - 0.5)) / scale)
  let sum := raw.foldl (· + ·) 0
  (left, raw.map (· / sum))

/-- The weighted sum of what a function gives from a place on. -/
def blend (f : Nat → Float32) (w : Nat × List Float32) : Float32 :=
  (w.2.foldl (fun (sum, i) weight => (sum + f i * weight, i + 1)) ((0 : Float32), w.1)).1

def nearest (top : Nat) (x : Float32) : Nat :=
  let bounded := if x < 0 then 0 else if single top < x then single top else x
  bounded.round.toUInt64.toNat

/-- Resizes by triangles, first in height and then in width. -/
def resizeExact (r : Raster) (width height : Nat) : Raster :=
  if (width, height) = (r.width, r.height) then r
  else
    let channels := r.color.channels
    let rows := Array.ofFn fun y : Fin height => weights r.height height y
    let columns := Array.ofFn fun x : Fin width => weights r.width width x
    let tall := Array.ofFn fun i : Fin (r.width * height * channels) =>
      let k := i % channels
      let x := i / channels % r.width
      blend (fun y => single (r.sample x y k)) (rows.getD (i / channels / r.width) (0, []))
    generate r.color width height fun x y =>
      (List.range channels).map fun k =>
        nearest r.color.top (blend (fun x => tall.getD ((y * r.width + x) * channels + k) 0)
          (columns.getD x (0, [])))

/-- Fits a raster into a box by triangles. -/
def resize (r : Raster) (boxWidth boxHeight : Nat) : Raster :=
  if (boxWidth, boxHeight) = (r.width, r.height) then r
  else
    let (width, height) := fit r.width r.height boxWidth boxHeight
    r.resizeExact width height

/-- Whether the result of `resize`, or the picture of the new height that is on the way to it and
keeps four singles for a pixel, is too large for a buffer. -/
def resizeOverflows (r : Raster) (boxWidth boxHeight : Nat) : Bool :=
  let (width, height) := fit r.width r.height boxWidth boxHeight
  (boxWidth, boxHeight) ≠ (r.width, r.height) && (width, height) ≠ (r.width, r.height) &&
    (longestBuffer < 16 * r.width * height || longestBuffer < r.color.bytes width height)

/-! ## By plain means -/

/-- What a new place covers: old places from one up to another, and the mean of the fractions of
its two ends. -/
structure Cover where
  first : Nat
  last : Nat
  fraction : Float32

def cover (old new place : Nat) : Cover :=
  let ratio := single old / single new
  let start := single place * ratio
  let stop := start + ratio
  let first := min start.ceil.toUInt64.toNat (old - 1)
  let last := max (min stop.ceil.toUInt64.toNat old) first
  let part := fun (x : Float32) => x - x.floor
  { first, last, fraction := (part start + part stop) / 2 }

def Cover.isEmpty (c : Cover) : Bool := c.first = c.last

def Cover.size (c : Cover) : Nat := c.last - c.first

def Cover.places (c : Cover) : List Nat := (List.range c.size).map (c.first + ·)

def total (f : Nat → Nat) (places : List Nat) : Nat := places.foldl (fun n i => n + f i) 0

/-- A mix of two sums over some places: the first by the rest of the fraction, the second by the
fraction. -/
def mix (fraction : Float32) (size : Nat) (first second : Nat) : Nat :=
  let far := fraction / single size
  let near := (1 - fraction) / single size
  (near * single first + far * single second).toUInt64.toNat

/-- The mean of what two covers cross. Where one of them is empty, it lies between two places. -/
def mean (f : (x y : Nat) → Nat) (across down : Cover) : Nat :=
  match across.isEmpty, down.isEmpty with
  | false, false =>
    let n := across.size * down.size
    (total (fun y => total (fun x => f x y) across.places) down.places + n / 2) / n
  | true, false =>
    let x := across.last - 1
    mix across.fraction down.size (total (f x) down.places) (total (f (x + 1)) down.places)
  | false, true =>
    let y := down.last - 1
    mix down.fraction across.size (total (f · y) across.places) (total (f · (y + 1)) across.places)
  | true, true =>
    let x := across.last - 1
    let y := down.last - 1
    let v := down.fraction
    let h := across.fraction
    let part := fun (weight : Float32) x y => weight * single (f x y)
    (part ((1 - v) * h) (x + 1) y + part (v * h) (x + 1) (y + 1) + part ((1 - v) * (1 - h)) x y +
      part (v * (1 - h)) x (y + 1)).toUInt64.toNat

/-- Fits a raster into a box by plain means. -/
def thumbnail (r : Raster) (boxWidth boxHeight : Nat) : Raster :=
  let (width, height) := fit r.width r.height boxWidth boxHeight
  let columns := Array.ofFn fun x : Fin width => cover r.width width x
  let rows := Array.ofFn fun y : Fin height => cover r.height height y
  generate r.color width height fun x y =>
    (List.range r.color.channels).map fun k =>
      mean (fun x y => r.sample x y k) (columns.getD x ⟨0, 0, 0⟩) (rows.getD y ⟨0, 0, 0⟩)

/-- Whether the result of `thumbnail` is too large for a buffer. -/
def thumbnailOverflows (r : Raster) (boxWidth boxHeight : Nat) : Bool :=
  let (width, height) := fit r.width r.height boxWidth boxHeight
  longestBuffer < r.color.bytes width height

end Conduit.Raster
