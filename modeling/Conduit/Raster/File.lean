import Conduit.Raster.Jpeg.Reader
import Conduit.Raster.Jpeg.Writer
import Conduit.Raster.Png.Reader

/-!
# Files of pictures

A file tells its format by its first bytes.
-/

namespace Conduit

inductive ImageFormat
  | png
  | jpeg
deriving DecidableEq, Repr

namespace ImageFormat

def ofBytes? : Bytes → Option ImageFormat
  | 0xff :: 0xd8 :: 0xff :: _ => some .jpeg
  | bytes => if bytes.take 8 = Png.signature then some .png else none

end ImageFormat

namespace Raster

/-- Reads a file in the format that it tells. -/
def ofBytes? (bytes : Bytes) : Option Raster :=
  match ImageFormat.ofBytes? bytes with
  | some .png => Png.read bytes
  | some .jpeg => Jpeg.read bytes
  | none => none

/-- Writes a file. There is no opacity and nothing but eight bits in a JPEG file. -/
def toBytes (r : Raster) : ImageFormat → Bytes
  | .png => Png.write r
  | .jpeg => Jpeg.write r.flat

/-- All samples, with the high byte first. -/
def sampleBytes (r : Raster) : Bytes :=
  r.pixels.toList.flatMap (·.flatMap (Png.sampleBytes r.color.deep))

end Raster

end Conduit
