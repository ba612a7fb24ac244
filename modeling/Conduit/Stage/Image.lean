import Conduit.Raster.File
import Conduit.Raster.Resample
import Conduit.Stage.Deciders

/-!
# The image stage

Decodes an image, transforms it and encodes it again, in the format asked for or else in the one it
came in.
-/

namespace Conduit.Stage

open Json

inductive ImageOperation
  | grayscale
  /-- Fits the image into a box and keeps its proportions. -/
  | resize
  /-- As resize, by plain averages. -/
  | thumbnail
  | rotate90
  | flipHorizontal
deriving DecidableEq, Repr

structure Image where
  operation : ImageOperation
  width : Nat := 0
  height : Nat := 0
  format : Option ImageFormat := none
deriving DecidableEq

namespace Image

def operations : List (String × ImageOperation) :=
  [("grayscale", .grayscale), ("resize", .resize), ("thumbnail", .thumbnail),
    ("rotate90", .rotate90), ("flip_horizontal", .flipHorizontal)]

def formats : List (String × ImageFormat) := [("png", .png), ("jpeg", .jpeg)]

def fields : List Field :=
  [.require "operation" .string (operations.map Prod.fst), .mayHave "width" .integer,
    .mayHave "height" .integer, .mayHave "format" .string none (formats.map Prod.fst)]

def operationShape : Shape ImageOperation := .choice .unit operations

def sideShape : Shape (Option Nat) := .optional .word32

def formatShape : Shape (Option ImageFormat) := .optional (.choice .unit formats)

def shapes : List (String × Shape Unit) :=
  [("operation", operationShape.check), ("width", sideShape.check), ("height", sideShape.check),
    ("format", formatShape.check)]

def ofParams (ms : Members) : Except PipelineError Image := do
  let (operation, width, height, format) ← readParams shapes ms fun ms => do
    let operation ← required ms "operation" operationShape
    let width ← withDefault ms "width" sideShape none
    let height ← withDefault ms "height" sideShape none
    return (operation, width, height, ← withDefault ms "format" formatShape none)
  if operation = .resize ∨ operation = .thumbnail then
    match width, height with
    | some (width + 1), some (height + 1) =>
      return { operation, width := width + 1, height := height + 1, format }
    | _, _ => throw (.config "resize and thumbnail need positive width and height")
  else return { operation, format }

def transform (s : Image) (r : Raster) : Raster :=
  match s.operation with
  | .grayscale => r.grayscale
  | .resize => r.resize s.width s.height
  | .thumbnail => r.thumbnail s.width s.height
  | .rotate90 => r.rotate90
  | .flipHorizontal => r.flipHorizontal

/-- Whether the host breaks down on a picture, whose transform is too large for it. -/
def overflows (s : Image) (r : Raster) : Bool :=
  match s.operation with
  | .resize => r.resizeOverflows s.width s.height
  | .thumbnail => r.thumbnailOverflows s.width s.height
  | .grayscale | .rotate90 | .flipHorizontal => false

/-- The format of the result: the one asked for, or else the one the picture came in. -/
def target (s : Image) (bytes : Bytes) : ImageFormat :=
  s.format.getD ((ImageFormat.ofBytes? bytes).getD .png)

/-- The picture that a message holds. -/
def picture? (w : Wrapper) : Option Raster := Raster.ofBytes? w.working.asBytes

/-- The file of a picture. The sides of a JPEG file are words of 16 bits. -/
def encode (r : Raster) (format : ImageFormat) : Except PipelineError Bytes :=
  if format = .jpeg ∧ (65535 < r.width ∨ 65535 < r.height) then
    .error (.representation
      "image encode failed: The Image's dimensions are either too small or too large")
  else .ok (r.toBytes format)

def process (s : Image) (w : Wrapper) : Outcome :=
  match picture? w with
  | none => .failed (.representation "image decode failed: not a readable picture")
  | some r =>
    if s.overflows r then .crashed
    else
      match encode (s.transform r) (s.target w.working.asBytes) with
      | .error e => .failed e
      | .ok file => .done { w with accepted := true, working := w.working.withRaw file }

end Image

end Conduit.Stage
