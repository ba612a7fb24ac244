import Conduit.Json.Printer

/-!
# Writing TOML strings

A string is written in the plainest of the four styles that can hold it: between double quotes if
nothing has to be escaped, else between single quotes, else on several lines in either style, and
with escapes when nothing else helps.
-/

namespace Conduit.Toml

/-- What the choice of a style depends on. -/
structure Traits where
  /-- The longest runs of either quote. -/
  singles : Nat := 0
  doubles : Nat := 0
  /-- Some control character other than tab and newline. -/
  controls : Bool := false
  backslash : Bool := false
  newline : Bool := false

def longestRun (c : Char) : (run : Nat) → List Char → Nat
  | run, [] => run
  | run, d :: rest => if d = c then longestRun c (run + 1) rest else max run (longestRun c 0 rest)

def isControl (c : Char) : Bool :=
  (c.toNat < 0x20 && c != '\t' && c != '\n') || c.toNat == 0x7f

def Traits.of (chars : List Char) : Traits where
  singles := longestRun '\'' 0 chars
  doubles := longestRun '"' 0 chars
  controls := chars.any isControl
  backslash := chars.contains '\\'
  newline := chars.contains '\n'

/-- Escapes a text. Double quotes may stand in runs up to `run`; `seen` is the length of the run
before the text. -/
def escape (multiline : Bool) (run : Nat) : (seen : Nat) → List Char → List Char
  | _, [] => []
  | seen, c :: rest =>
    if c = '"' then
      if seen < run then '"' :: escape multiline run (seen + 1) rest
      else '\\' :: '"' :: escape multiline run 0 rest
    else
      let written :=
        if c = '\x08' then ['\\', 'b']
        else if c = '\t' then ['\\', 't']
        else if c = '\n' then (if multiline then ['\n'] else ['\\', 'n'])
        else if c = '\x0c' then ['\\', 'f']
        else if c = '\r' then ['\\', 'r']
        else if c = '\\' then ['\\', '\\']
        else if c.toNat < 0x20 ∨ c.toNat = 0x7f then
          ['\\', 'u', '0', '0', (Json.hexDigit (c.toNat / 16)).toUpper,
            (Json.hexDigit (c.toNat % 16)).toUpper]
        else [c]
      written ++ escape multiline run 0 rest

/-- A text between the delimiters of a style. -/
def delimited (quote : List Char) (lead : Bool) (body : List Char) : String :=
  String.ofList (quote ++ (if lead then ['\n'] else []) ++ body ++ quote)

def writeString (text : String) : String :=
  let chars := text.toList
  let t := Traits.of chars
  let basic := delimited ['"'] false (escape false 0 0 chars)
  let multiline := delimited ['"', '"', '"'] t.newline (escape true 2 0 chars)
  if !t.controls ∧ !t.backslash ∧ t.doubles = 0 ∧ !t.newline then basic
  else if !t.controls ∧ t.singles = 0 ∧ !t.newline then delimited ['\''] false chars
  else if !t.controls ∧ !t.backslash ∧ t.doubles ≤ 2 then multiline
  else if !t.controls ∧ t.singles ≤ 2 then delimited ['\'', '\'', '\''] t.newline chars
  else if t.newline then multiline
  else basic

end Conduit.Toml
