import Conduit.Raster.PrefixCode
import Conduit.Text.Utf8

/-!
# Deflated data

Deflated data is a row of blocks: bytes as they are, or words of prefix codes for bytes and for
copies of what came before. Writing uses blocks of bytes as they are. Two checksums guard what is
packed: the cyclic redundancy check of 32 bits with the reversed polynomial, and the sum of Adler.
-/

namespace Conduit.Checksum

/-- Divides once by the polynomial. -/
def shift (crc : UInt32) : UInt32 :=
  if crc &&& 1 = 1 then (crc >>> 1) ^^^ 0xedb88320 else crc >>> 1

def addByte (crc : UInt32) (b : UInt8) : UInt32 :=
  Nat.repeat shift 8 (crc ^^^ b.toUInt32)

def crc32 (bytes : Bytes) : UInt32 := bytes.foldl addByte 0xffffffff ^^^ 0xffffffff

def adler32 (bytes : Bytes) : UInt32 :=
  let (a, b) := bytes.foldl (fun (a, b) byte =>
    let a := (a + byte.toNat) % 65521
    (a, (b + a) % 65521)) (1, 0)
  UInt32.ofNat (b * 65536 + a)

end Conduit.Checksum

namespace Conduit.Deflate

/-- The bits of bytes; in a byte the low bit comes first. -/
def bitsOf (bytes : Bytes) : List Bool :=
  bytes.flatMap fun b => (List.range 8).map fun i => b.toNat.testBit i

/-- Reads a number of some bits, the low bit first. -/
def takeNumber : (n : Nat) → List Bool → Option (Nat × List Bool)
  | 0, bits => some (0, bits)
  | n + 1, b :: bits => (takeNumber n bits).map fun (v, bits) => (b.toNat + 2 * v, bits)
  | _ + 1, [] => none

/-! ## Codes -/

structure Codes where
  literal : PrefixCode
  distance : PrefixCode

def fixedLengths : List Nat :=
  List.replicate 144 8 ++ List.replicate 112 9 ++ List.replicate 24 7 ++ List.replicate 8 8

def fixedCodes : Codes where
  literal := .ofLengths 15 fixedLengths
  distance := .ofLengths 15 (List.replicate 30 5)

/-- A value that grows: its base and the number of bits that are added to it. -/
structure Growing where
  base : Nat
  extra : Nat

/-- The values of symbols of which each group of `size` has one bit more than the one before, after
`first` groups without any. -/
def growing (start size first groups : Nat) : List Growing :=
  ((List.range groups).foldl (fun (base, out) g =>
    let extra := g - first
    (base + size * Nat.pow 2 extra,
      out ++ (List.range size).map fun i => ⟨base + i * Nat.pow 2 extra, extra⟩)) (start, [])).2

/-- How long a copy is, by its symbol less 257. -/
def copyLengths : List Growing := (growing 3 4 1 7).take 28 ++ [⟨258, 0⟩]

/-- How far back a copy is taken. -/
def copyDistances : List Growing := growing 1 2 1 15

def Growing.read (g : Growing) (bits : List Bool) : Option (Nat × List Bool) :=
  (takeNumber g.extra bits).map fun (v, bits) => (g.base + v, bits)

/-- The order in which the lengths of the words for lengths come. -/
def lengthOrder : List Nat := [16, 17, 18, 0, 8, 7, 9, 6, 10, 5, 11, 4, 12, 3, 13, 2, 14, 1, 15]

/-- Reads lengths of words; a length may be repeated, and zeros may come in rows. -/
def readLengths (c : PrefixCode) (n : Nat) :
    (fuel : Nat) → List Nat → List Bool → Option (List Nat × List Bool)
  | 0, _, _ => none
  | fuel + 1, seen, bits =>
    if n < seen.length then none
    else if n = seen.length then some (seen.reverse, bits)
    else do
      let (s, bits) ← c.read bits
      match s with
      | 16 =>
        let last ← seen.head?
        let (k, bits) ← takeNumber 2 bits
        readLengths c n fuel (List.replicate (3 + k) last ++ seen) bits
      | 17 =>
        let (k, bits) ← takeNumber 3 bits
        readLengths c n fuel (List.replicate (3 + k) 0 ++ seen) bits
      | 18 =>
        let (k, bits) ← takeNumber 7 bits
        readLengths c n fuel (List.replicate (11 + k) 0 ++ seen) bits
      | s => readLengths c n fuel (s :: seen) bits

def takeNumbers (size : Nat) : (n : Nat) → List Bool → Option (List Nat × List Bool)
  | 0, bits => some ([], bits)
  | n + 1, bits => do
    let (v, bits) ← takeNumber size bits
    let (vs, bits) ← takeNumbers size n bits
    return (v :: vs, bits)

/-- A code whose words are not too many; a code may leave words free only if it has one word. -/
def code? (longest : Nat) (lengths : List Nat) : Option PrefixCode := do
  let c := PrefixCode.ofLengths longest lengths
  let free ← PrefixCode.spare? c.counts
  if free ≠ 0 ∧ 1 < c.symbols.size then none else some c

def readCodes (bits : List Bool) : Option (Codes × List Bool) := do
  let (literals, bits) ← takeNumber 5 bits
  let (distances, bits) ← takeNumber 5 bits
  let (n, bits) ← takeNumber 4 bits
  let (short, bits) ← takeNumbers 3 (n + 4) bits
  let placed := (List.range 19).map fun s =>
    ((lengthOrder.zip short).lookup s).getD 0
  let c ← code? 7 placed
  let (lengths, bits) ← readLengths c (literals + 257 + (distances + 1)) 512 [] bits
  let literal ← code? 15 (lengths.take (literals + 257))
  let distance ← code? 15 (lengths.drop (literals + 257))
  return ({ literal, distance }, bits)

/-! ## Blocks -/

/-- Repeats the bytes from some way back. -/
def copyBack (distance : Nat) : (n : Nat) → Array UInt8 → Array UInt8
  | 0, out => out
  | n + 1, out => copyBack distance n (out.push (out.getD (out.size - distance) 0))

/-- Reads words up to the end of a block. -/
def readWords (c : Codes) : (fuel : Nat) → Array UInt8 → List Bool →
    Option (Array UInt8 × List Bool)
  | 0, _, _ => none
  | fuel + 1, out, bits => do
    let (s, bits) ← c.literal.read bits
    if s < 256 then readWords c fuel (out.push (UInt8.ofNat s)) bits
    else if s = 256 then some (out, bits)
    else
      let (length, bits) ← (← copyLengths[s - 257]?).read bits
      let (d, bits) ← c.distance.read bits
      let (distance, bits) ← (← copyDistances[d]?).read bits
      if out.size < distance then none
      else readWords c fuel (copyBack distance length out) bits

/-- Reads bytes as they are; they begin at a whole byte. -/
def readStored (out : Array UInt8) (bits : List Bool) : Option (Array UInt8 × List Bool) := do
  let bits := bits.drop (bits.length % 8)
  let (n, bits) ← takeNumber 16 bits
  let (check, bits) ← takeNumber 16 bits
  if n + check ≠ 65535 then none
  else
    let (bytes, bits) ← takeNumbers 8 n bits
    return (out ++ bytes.map UInt8.ofNat, bits)

def readBlocks : (fuel : Nat) → Array UInt8 → List Bool → Option (Array UInt8)
  | 0, _, _ => none
  | fuel + 1, out, bits => do
    let (last, bits) ← takeNumber 1 bits
    let (kind, bits) ← takeNumber 2 bits
    let (out, bits) ← match kind with
      | 0 => readStored out bits
      | 1 => readWords fixedCodes bits.length out bits
      | 2 => do
        let (c, bits) ← readCodes bits
        readWords c bits.length out bits
      | _ => none
    if last = 1 then some out else readBlocks fuel out bits

/-- Reads deflated data behind its two bytes of header; the checksum at the end is not compared. -/
def inflate : Bytes → Option (Array UInt8)
  | a :: b :: rest =>
    let head := a.toNat * 256 + b.toNat
    if a.toNat % 16 = 8 ∧ a.toNat / 16 ≤ 7 ∧ head % 31 = 0 ∧ b.toNat / 32 % 2 = 0 then
      let bits := bitsOf rest
      readBlocks bits.length #[] bits
    else none
  | _ => none

/-! ## Writing -/

def bytes16 (n : Nat) : Bytes := [UInt8.ofNat n, UInt8.ofNat (n / 256)]

def storedSize : Nat := 65535

/-- Blocks of bytes as they are. -/
def storedBlocks : (blocks : Nat) → Bytes → Bytes
  | 0, _ => []
  | blocks + 1, bytes =>
    let now := bytes.take storedSize
    (if blocks = 0 then 1 else 0) :: (bytes16 now.length ++ bytes16 (65535 - now.length) ++ now) ++
      storedBlocks blocks (bytes.drop storedSize)

def bytes32 (n : UInt32) : Bytes :=
  [(n >>> 24).toUInt8, (n >>> 16).toUInt8, (n >>> 8).toUInt8, n.toUInt8]

def deflate (bytes : Bytes) : Bytes :=
  [0x78, 0x01] ++ storedBlocks (bytes.length / storedSize + 1) bytes ++
    bytes32 (Checksum.adler32 bytes)

end Conduit.Deflate
