/-!
# Bytes as text

UTF-8 read by a machine that takes one byte at a time. `Utf8.decode` names the first place where
the bytes stop being text; `Utf8.decodeLossy` puts one replacement character there and goes on.
-/

namespace Conduit

/-- A run of bytes. -/
abbrev Bytes := List UInt8

namespace Utf8

/-- Where the machine stands: between characters, or inside one whose `seen` first bytes carry
`value`, with `left` bytes to come, the next of them between `low` and `high`. -/
inductive State
  | start
  | within (seen value : Nat) (low high : UInt8) (left : Nat)
deriving DecidableEq, Repr

inductive Verdict
  | next (state : State)
  | char (c : Char)
  | refused
deriving DecidableEq, Repr

/-- The state after the first byte of a character. -/
def lead (b : UInt8) : Verdict :=
  if b < 0x80 then .char (Char.ofNat b.toNat)
  else if b < 0xC2 then .refused
  else if b < 0xE0 then .next (.within 1 (b.toNat % 32) 0x80 0xBF 0)
  else if b = 0xE0 then .next (.within 1 0 0xA0 0xBF 1)
  else if b = 0xED then .next (.within 1 13 0x80 0x9F 1)
  else if b < 0xF0 then .next (.within 1 (b.toNat % 16) 0x80 0xBF 1)
  else if b = 0xF0 then .next (.within 1 0 0x90 0xBF 2)
  else if b < 0xF4 then .next (.within 1 (b.toNat % 8) 0x80 0xBF 2)
  else if b = 0xF4 then .next (.within 1 4 0x80 0x8F 2)
  else .refused

def step : State → UInt8 → Verdict
  | .start, b => lead b
  | .within seen value low high left, b =>
    if low ≤ b ∧ b ≤ high then
      let value := value * 64 + b.toNat % 64
      match left with
      | 0 => .char (Char.ofNat value)
      | left + 1 => .next (.within (seen + 1) value 0x80 0xBF left)
    else .refused

/-- Why bytes are not text: at byte `index` a sequence of `length` bytes that starts no character,
or the beginning of a character that the bytes end in. -/
inductive Malformed
  | invalid (length index : Nat)
  | incomplete (index : Nat)
deriving DecidableEq, Repr

def Malformed.message : Malformed → String
  | .invalid length index => s!"invalid utf-8 sequence of {length} bytes from index {index}"
  | .incomplete index => s!"incomplete utf-8 byte sequence from index {index}"

/-- Runs the machine; `index` is the place where the current character starts. -/
def run (index : Nat) : State → Bytes → Except Malformed (List Char)
  | .start, [] => .ok []
  | .within .., [] => .error (.incomplete index)
  | state, b :: rest =>
    match step state b with
    | .next (.within seen value low high left) => run index (.within seen value low high left) rest
    | .next .start => run index .start rest
    | .char c =>
      match state with
      | .start => (run (index + 1) .start rest).map (c :: ·)
      | .within seen .. => (run (index + seen + 1) .start rest).map (c :: ·)
    | .refused =>
      match state with
      | .start => .error (.invalid 1 index)
      | .within seen .. => .error (.invalid seen index)

def decode (bytes : Bytes) : Except Malformed String :=
  (run 0 .start bytes).map String.ofList

/-- Reads any bytes: each sequence that is no character becomes one replacement character. -/
def runLossy : State → Bytes → List Char
  | .start, [] => []
  | .within .., [] => ['\ufffd']
  | state, b :: rest =>
    match step state b with
    | .next state => runLossy state rest
    | .char c => c :: runLossy .start rest
    | .refused =>
      match state with
      | .start => '\ufffd' :: runLossy .start rest
      | .within .. =>
        match step .start b with
        | .next state => '\ufffd' :: runLossy state rest
        | .char c => '\ufffd' :: c :: runLossy .start rest
        | .refused => '\ufffd' :: '\ufffd' :: runLossy .start rest

def decodeLossy (bytes : Bytes) : String := String.ofList (runLossy .start bytes)

def encodeChars (chars : List Char) : Bytes := chars.flatMap String.utf8EncodeChar

def encode (text : String) : Bytes := encodeChars text.toList

end Utf8

end Conduit
