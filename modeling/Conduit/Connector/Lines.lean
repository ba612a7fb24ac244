import Conduit.Files
import Conduit.Text.Blank

/-!
# Reading a file line by line

A line reader keeps its place in a file and the bytes that it has fetched but not used. It fetches
a block at a time, so what is written to the file behind that place is seen.
-/

namespace Conduit

structure LineReader where
  /-- The number of bytes fetched. -/
  place : Nat := 0
  /-- Bytes fetched and not used. -/
  buffer : Bytes := []
deriving DecidableEq

namespace LineReader

def blockSize : Nat := 8192

def fetch (r : LineReader) (content : Bytes) : LineReader :=
  let block := (content.drop r.place).take blockSize
  { place := r.place + block.length, buffer := block }

/-- The bytes up to and with the next newline, or up to the end. -/
def take (content : Bytes) : (fuel : Nat) → LineReader → Bytes × LineReader
  | 0, r => ([], r)
  | fuel + 1, r =>
    let r := if r.buffer.isEmpty then r.fetch content else r
    if r.buffer.isEmpty then ([], r)
    else
      let line := r.buffer.takeWhile (· != 0x0a)
      match r.buffer.drop line.length with
      | newline :: rest => (line ++ [newline], { r with buffer := rest })
      | [] =>
        let (more, r) := take content fuel { r with buffer := [] }
        (line ++ more, r)

/-- A line without its newline. -/
def chomp (line : Bytes) : Bytes :=
  match line.reverse with
  | 0x0a :: 0x0d :: rest => rest.reverse
  | 0x0a :: rest => rest.reverse
  | _ => line

/-- The next line as text, or nothing at the end of the file. -/
def next (content : Bytes) (r : LineReader) : Option (Except FileError String) × LineReader :=
  match take content (content.length / blockSize + 2) r with
  | ([], r) => (none, r)
  | (line, r) => (some ((Utf8.decode (chomp line)).mapError fun _ => .notText), r)

/-- The next line that is not blank. -/
def nextFilled (content : Bytes) :
    (fuel : Nat) → LineReader → Option (Except FileError String) × LineReader
  | 0, r => (none, r)
  | fuel + 1, r =>
    match next content r with
    | (some (.ok line), r) =>
      if line.toList.all Text.isBlank then nextFilled content fuel r else (some (.ok line), r)
    | other => other

end LineReader

end Conduit
