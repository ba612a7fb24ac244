import Conduit.Number.Shortest
import Conduit.Text.Quoted
import Conduit.Text.Utf8
import Conduit.Json.Printer

/-!
# What can be wrong with a JSON text

A text may be malformed, or it may be JSON of a shape that was not asked for. Either fault of a
text has a place: the number of bytes that were still unread when it was noticed.
-/

namespace Conduit.Json

inductive Malformed
  | endInList | endInObject | endInString | endInValue
  | missingColon | missingListComma | missingObjectComma
  | badWord | missingValue | badEscape | badNumber | outOfRange | badCodePoint
  | controlCharacter | keyNotString | loneSurrogate | trailingComma | trailingCharacters
  | brokenPair | tooDeep
deriving DecidableEq, Repr

def Malformed.message : Malformed → String
  | .endInList => "EOF while parsing a list"
  | .endInObject => "EOF while parsing an object"
  | .endInString => "EOF while parsing a string"
  | .endInValue => "EOF while parsing a value"
  | .missingColon => "expected `:`"
  | .missingListComma => "expected `,` or `]`"
  | .missingObjectComma => "expected `,` or `\x7d`"
  | .badWord => "expected ident"
  | .missingValue => "expected value"
  | .badEscape => "invalid escape"
  | .badNumber => "invalid number"
  | .outOfRange => "number out of range"
  | .badCodePoint => "invalid unicode code point"
  | .controlCharacter => "control character (\\u0000-\\u001F) found while parsing a string"
  | .keyNotString => "key must be a string"
  | .loneSurrogate => "lone leading surrogate in hex escape"
  | .trailingComma => "trailing comma"
  | .trailingCharacters => "trailing characters"
  | .brokenPair => "unexpected end of hex escape"
  | .tooDeep => "recursion limit exceeded"

/-- What was found where something else was expected. -/
inductive Found
  | null | bool (b : Bool) | number (n : Number) | string (s : String) | list | map
deriving DecidableEq

def Found.describe : Found → String
  | .null => "null"
  | .bool true => "boolean `true`"
  | .bool false => "boolean `false`"
  | .number (.whole n) => "integer `" ++ String.ofList (writeWhole n.val) ++ "`"
  | .number (.double d) => "floating point `" ++ numbers.write d.val ++ "`"
  | .string s => "string " ++ Text.quoted s
  | .list => "sequence"
  | .map => "map"

def Found.ofValue : Value → Found
  | .null => .null
  | .bool b => .bool b
  | .number n => .number n
  | .string s => .string s
  | .array _ => .list
  | .object _ => .map

/-- A value, or a part of it, is not of the shape that was asked for. -/
inductive Mismatch
  | type (found : Found) (expected : String)
  | value (found : Found) (expected : String)
  | length (count : Nat) (expected : String)
  | missingField (name : String)
  | unknownField (name : String) (known : List String)
  | duplicateField (name : String)
  | unknownVariant (name : String) (known : List String)
  | duplicateId (kind id : String)
deriving DecidableEq

def ticked (name : String) : String := "`" ++ name ++ "`"

/-- Names to choose from. -/
def oneOf : List String → String
  | [a] => ticked a
  | [a, b] => ticked a ++ " or " ++ ticked b
  | names => "one of " ++ ", ".intercalate (names.map ticked)

def Mismatch.message : Mismatch → String
  | .type found expected => "invalid type: " ++ found.describe ++ ", expected " ++ expected
  | .value found expected => "invalid value: " ++ found.describe ++ ", expected " ++ expected
  | .length count expected => s!"invalid length {count}, expected " ++ expected
  | .missingField name => "missing field " ++ ticked name
  | .unknownField name [] => "unknown field " ++ ticked name ++ ", there are no fields"
  | .unknownField name known =>
    "unknown field " ++ ticked name ++ ", expected " ++ oneOf known
  | .duplicateField name => "duplicate field " ++ ticked name
  | .unknownVariant name [] => "unknown variant " ++ ticked name ++ ", there are no variants"
  | .unknownVariant name known =>
    "unknown variant " ++ ticked name ++ ", expected " ++ oneOf known
  | .duplicateId kind id => "duplicate " ++ kind ++ " id '" ++ id ++ "'"

inductive Cause
  | malformed (m : Malformed)
  | mismatch (m : Mismatch)
deriving DecidableEq

def Cause.message : Cause → String
  | .malformed m => m.message
  | .mismatch m => m.message

/-- A cause and the number of unread bytes. -/
structure Fault where
  cause : Cause
  unread : Nat
deriving DecidableEq

/-- The fault noticed in front of `rest`. -/
def Malformed.before (m : Malformed) (rest : Bytes) : Fault := ⟨.malformed m, rest.length⟩

/-- The fault noticed at the first byte of `rest`, which counts as read. -/
def Malformed.onto (m : Malformed) (rest : Bytes) : Fault := ⟨.malformed m, rest.length - 1⟩

def Mismatch.before (m : Mismatch) (rest : Bytes) : Fault := ⟨.mismatch m, rest.length⟩

/-- The line and the column of the byte after `read`: lines are counted from one, columns are the
bytes since the last line break. -/
def position (read : Bytes) : Nat × Nat :=
  (read.count 0x0a + 1, (read.reverse.takeWhile (· != 0x0a)).length)

/-- The text of a fault found while reading `input`. -/
def Fault.message (fault : Fault) (input : Bytes) : String :=
  let (line, column) := position (input.take (input.length - fault.unread))
  fault.cause.message ++ s!" at line {line} column {column}"

end Conduit.Json
