import Conduit.Number.Shortest
import Conduit.Text.Hex
import Conduit.Json.Basic

/-!
# Writing JSON

Compact text has no blank space; indented text puts each item and member on a line of its own, two
spaces deeper than its brackets.
-/

namespace Conduit.Json

/-- Numbers from 1e-5 up to 1e16 are written without an exponent. -/
def numbers : DecimalLayout := ⟨-5, 15, true⟩

/-- Quotes, backslashes and controls are escaped, nothing else. -/
def escapeChar (c : Char) : List Char :=
  if c = '"' then ['\\', '"']
  else if c = '\\' then ['\\', '\\']
  else if c = '\x08' then ['\\', 'b']
  else if c = '\x0c' then ['\\', 'f']
  else if c = '\n' then ['\\', 'n']
  else if c = '\r' then ['\\', 'r']
  else if c = '\t' then ['\\', 't']
  else if c.toNat < 0x20 then
    ['\\', 'u', '0', '0', hexDigit (c.toNat / 16), hexDigit (c.toNat % 16)]
  else [c]

def writeString (s : String) : List Char := '"' :: (s.toList.flatMap escapeChar ++ ['"'])

def writeWhole (n : Int) : List Char :=
  if n < 0 then '-' :: Nat.toDigits 10 n.natAbs else Nat.toDigits 10 n.natAbs

def writeNumber : Number → List Char
  | .whole n => writeWhole n.val
  | .double d => (numbers.write d.val).toList

mutual

/-- Compact text. -/
def write : Value → List Char
  | .null => ['n', 'u', 'l', 'l']
  | .bool true => ['t', 'r', 'u', 'e']
  | .bool false => ['f', 'a', 'l', 's', 'e']
  | .number n => writeNumber n
  | .string s => writeString s
  | .array items => '[' :: (writeItems items ++ [']'])
  | .object members => '{' :: (writeMembers members ++ ['}'])

/-- Items with commas between them. -/
def writeItems : List Value → List Char
  | [] => []
  | [v] => write v
  | v :: rest => write v ++ ',' :: writeItems rest

/-- Members with commas between them. -/
def writeMembers : List (String × Value) → List Char
  | [] => []
  | [(k, v)] => writeString k ++ ':' :: write v
  | (k, v) :: rest => writeString k ++ ':' :: (write v ++ ',' :: writeMembers rest)

end

/-- A new line with `depth` steps of indentation. -/
def newline (depth : Nat) : List Char := '\n' :: List.replicate (2 * depth) ' '

mutual

/-- Indented text; empty brackets stay together. -/
def indent (depth : Nat) : Value → List Char
  | .null => ['n', 'u', 'l', 'l']
  | .bool true => ['t', 'r', 'u', 'e']
  | .bool false => ['f', 'a', 'l', 's', 'e']
  | .number n => writeNumber n
  | .string s => writeString s
  | .array [] => ['[', ']']
  | .array (v :: rest) => '[' :: (indentItems (depth + 1) (v :: rest) ++ newline depth ++ [']'])
  | .object [] => ['{', '}']
  | .object (m :: rest) =>
    '{' :: (indentMembers (depth + 1) (m :: rest) ++ newline depth ++ ['}'])

def indentItems (depth : Nat) : List Value → List Char
  | [] => []
  | [v] => newline depth ++ indent depth v
  | v :: rest => newline depth ++ indent depth v ++ ',' :: indentItems depth rest

def indentMembers (depth : Nat) : List (String × Value) → List Char
  | [] => []
  | [(k, v)] => newline depth ++ writeString k ++ ':' :: ' ' :: indent depth v
  | (k, v) :: rest =>
    newline depth ++ writeString k ++ ':' :: ' ' :: (indent depth v ++
      ',' :: indentMembers depth rest)

end

end Conduit.Json

namespace Conduit.Value

/-- The compact text of a value. -/
def toText (v : Value) : String := String.ofList (Json.write v)

/-- The compact text as bytes. -/
def toBytes (v : Value) : Bytes := Utf8.encodeChars (Json.write v)

/-- The indented text of a value. -/
def toIndented (v : Value) : String := String.ofList (Json.indent 0 v)

end Conduit.Value
