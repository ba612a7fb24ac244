import Conduit.Number.Reading
import Conduit.Script.Datum

/-!
# Tokens of the script language

The text of a script is cut into tokens. A minus sign directly before a digit belongs to the number
unless the token before it can end an operand. A template text carries the tokens of the code
between its braces.
-/

namespace Conduit.Script

inductive Token
  | int (n : Int)
  | float (d : Double)
  | char (c : Char)
  | text (s : String)
  /-- Pieces of text and code by turns. -/
  | template (pieces : List (String × List Token))
  | word (name : String)
  | mark (name : String)
deriving Inhabited

namespace Token

/-- Marks and words after which an operand starts, so that a minus sign is part of it. -/
def opensOperand : Token → Bool
  | mark m => m != ")" && m != "]" && m != "\x7d" && m != "." && m != "?."
  | word w => ["if", "while", "until", "in", "return", "throw"].contains w
  | _ => false

/-! ## Numbers -/

def isWordStart (c : Char) : Bool := c.isAlpha || c == '_'

def isWordChar (c : Char) : Bool := c.isAlphanum || c == '_'

def hexValue? (c : Char) : Option Nat :=
  if c.isDigit then some (c.toNat - 48)
  else if 'a' ≤ c ∧ c ≤ 'f' then some (c.toNat - 87)
  else if 'A' ≤ c ∧ c ≤ 'F' then some (c.toNat - 55)
  else none

def radixValue (radix : Nat) (digits : List Char) : Option Nat :=
  digits.foldl (fun n c => do
    let n ← n
    let d ← hexValue? c
    if d < radix then some (n * radix + d) else none) (some 0)

/-- A pattern of 64 bits as a signed number. -/
def signed64 (n : Nat) : Int := if n < 0x8000000000000000 then n else (n : Int) - 0x10000000000000000

/-- Digits in the base that a letter after a leading zero announces. -/
def radixNumber (radix : Nat) (cs : List Char) : Option (Token × List Char) :=
  let isPart := fun c => (hexValue? c).any (· < radix) || c == '_'
  let digits := (cs.takeWhile isPart).filter (· != '_')
  match radixValue radix digits with
  | some n => if digits.isEmpty || 0x10000000000000000 ≤ n then none
    else some (int (signed64 n), cs.dropWhile isPart)
  | none => none

def isDigitPart (c : Char) : Bool := c.isDigit || c == '_'

/-- The fraction after whole digits: digits after a point, or a point that nothing follows which
could name a property. -/
def takeFraction : List Char → Option (List Char) × List Char
  | '.' :: c :: rest =>
    if c.isDigit then (some ((c :: rest).takeWhile isDigitPart), (c :: rest).dropWhile isDigitPart)
    else if c == '_' || c == '.' || isWordStart c then (none, '.' :: c :: rest)
    else (some [], c :: rest)
  | ['.'] => (some [], [])
  | cs => (none, cs)

/-- An exponent with its sign. -/
def takeExponent : List Char → Option (List Char) × List Char
  | 'e' :: c :: rest =>
    if c.isDigit then
      (some ((c :: rest).takeWhile isDigitPart), (c :: rest).dropWhile isDigitPart)
    else if c == '+' || c == '-' then
      (some (c :: rest.takeWhile isDigitPart), rest.dropWhile isDigitPart)
    else (none, 'e' :: c :: rest)
  | cs => (none, cs)

/-- A decimal number; one that is too large for a whole number is a floating-point number. -/
def decimalNumber (negative : Bool) (cs : List Char) : Option (Token × List Char) :=
  let whole := (cs.takeWhile isDigitPart).filter (· != '_')
  let (fraction, rest) := takeFraction (cs.dropWhile isDigitPart)
  let (exponent, rest) := takeExponent rest
  let n : Int := Number.digitsValue 0 whole
  let n := if negative then -n else n
  if fraction.isNone && exponent.isNone && inRange n then some (int n, rest)
  else
    let point := match fraction with
      | some f => '.' :: f.filter (· != '_')
      | none => []
    let power := match exponent with
      | some e => 'e' :: e.filter (· != '_')
      | none => []
    (Number.decimal? negative (whole ++ point ++ power)).map fun d => (float d, rest)

def number (negative : Bool) (cs : List Char) : Option (Token × List Char) :=
  match cs with
  | '0' :: c :: rest =>
    if c == 'x' || c == 'X' then (radixNumber 16 rest).map (negated negative)
    else if c == 'o' || c == 'O' then (radixNumber 8 rest).map (negated negative)
    else if c == 'b' || c == 'B' then (radixNumber 2 rest).map (negated negative)
    else decimalNumber negative cs
  | _ => decimalNumber negative cs
where
  negated (negative : Bool) (r : Token × List Char) : Token × List Char :=
    match r with
    | (int n, rest) => (int (if negative then -n else n), rest)
    | r => r

/-! ## Texts -/

/-- A code of `count` hexadecimal digits. -/
def codePoint (count : Nat) (cs : List Char) : Option (Char × List Char) :=
  let digits := cs.take count
  if digits.length < count then none
  else do
    let n ← radixValue 16 digits
    if n.isValidChar then some (Char.ofNat n, cs.drop count) else none

/-- A text up to its closing mark, escapes resolved; a doubled mark stands for itself. -/
def quoted (close : Char) : (fuel : Nat) → List Char → Option (List Char × List Char)
  | 0, _ => none
  | fuel + 1, cs =>
    match cs with
    | [] => none
    | '\\' :: c :: rest =>
      let single := fun x => (quoted close fuel rest).map fun r => (x :: r.1, r.2)
      let coded := fun n => do
        let (x, rest) ← codePoint n rest
        let r ← quoted close fuel rest
        return (x :: r.1, r.2)
      match c with
      | '\\' => single '\\'
      | 't' => single '\t'
      | 'n' => single '\n'
      | 'r' => single '\r'
      | 'x' => coded 2
      | 'u' => coded 4
      | 'U' => coded 8
      | '\n' => quoted close fuel (rest.dropWhile (fun c => c == ' ' || c == '\t'))
      | c => if c = close then single close else none
    | '\n' :: _ => none
    | c :: rest =>
      if c = close then
        match rest with
        | d :: more =>
          if d = close then (quoted close fuel more).map fun r => (close :: r.1, r.2)
          else some ([], rest)
        | [] => some ([], [])
      else (quoted close fuel rest).map fun r => (c :: r.1, r.2)

/-- A piece of a template up to its end or to the code in it. -/
def templatePiece : List Char → Option (List Char × Bool × List Char)
  | [] => none
  | '\x60' :: '\x60' :: rest => (templatePiece rest).map fun r => ('\x60' :: r.1, r.2)
  | '\x60' :: rest => some ([], false, rest)
  | '$' :: '{' :: rest => some ([], true, rest)
  | c :: rest => (templatePiece rest).map fun r => (c :: r.1, r.2)

/-- A raw text: everything up to a quote that as many hash signs follow as stand in front. -/
def rawText (hashes : Nat) : List Char → Option (List Char × List Char)
  | [] => none
  | c :: rest =>
    if c = '"' ∧ rest.take hashes = List.replicate hashes '#' then some ([], rest.drop hashes)
    else (rawText hashes rest).map fun r => (c :: r.1, r.2)

/-! ## Comments and marks -/

/-- What follows a comment that is `depth` deep. -/
def skipComment : Nat → List Char → Option (List Char)
  | 0, cs => some cs
  | _ + 1, [] => none
  | depth + 1, '*' :: '/' :: rest => skipComment depth rest
  | depth + 1, '/' :: '*' :: rest => skipComment (depth + 2) rest
  | depth + 1, _ :: rest => skipComment (depth + 1) rest

/-- All marks, longer ones before their beginnings. -/
def marks : List String :=
  ["<<=", ">>=", "**=", "..=", "...", "===", "!==", "::<",
    "<<", ">>", "**", "..", "==", "!=", "<=", ">=", "&&", "||", "??", "?.", "?[", "+=", "-=", "*=",
    "/=", "%=", "&=", "|=", "^=", "::", "=>", "->", "<-", ":=", "#\x7b", "#!", "++", "--", ";;",
    "!.", "(*", "*)",
    "\x7b", "\x7d", "(", ")", "[", "]", "+", "-", "*", "/", "%", "&", "|", "^", "~", "<", ">", "=",
    "!", ".", ":", ",", ";", "?", "#", "@", "$"]

/-- Marks that are set aside and cannot stand in a script. -/
def reservedMarks : List String :=
  ["...", "===", "!==", "::<", "->", "<-", ":=", "#!", "++", "--", "!.", "(*", "*)", "~", "?",
    "#", "@", "$"]

def takeMark (cs : List Char) : Option (String × List Char) :=
  (marks.find? fun m => m.toList.isPrefixOf cs).map fun m => (m, cs.drop m.length)

def isSpace (c : Char) : Bool := c == ' ' || c == '\t' || c == '\n' || c == '\r' || c == '\x0c'

/-! ## The token stream -/

mutual

/-- The tokens of a script, or of the code in a template up to the brace that ends it. `depth`
counts the open braces of the code; the result has what follows that brace. -/
def scan (inner : Bool) : (fuel : Nat) → (depth : Nat) → (last : Option Token) → List Char →
    Option (List Token × List Char)
  | 0, _, _, _ => none
  | fuel + 1, depth, last, cs =>
    let emit := fun (t : Token) depth rest =>
      (scan inner fuel depth (some t) rest).map fun r => (t :: r.1, r.2)
    match cs with
    | [] => if inner then none else some ([], [])
    | '/' :: '/' :: rest => scan inner fuel depth last (rest.dropWhile (· != '\n'))
    | '/' :: '*' :: rest =>
      match skipComment 1 rest with
      | some rest => scan inner fuel depth last rest
      | none => none
    | '"' :: rest =>
      match quoted '"' (rest.length + 1) rest with
      | some (chars, rest) => emit (text (String.ofList chars)) depth rest
      | none => none
    | '\'' :: rest =>
      match quoted '\'' (rest.length + 1) rest with
      | some ([c], rest) => emit (char c) depth rest
      | _ => none
    | '\x60' :: rest =>
      let rest := match rest with
        | '\n' :: more => more
        | '\r' :: '\n' :: more => more
        | rest => rest
      match scanTemplate fuel rest with
      | some (pieces, rest) => emit (template pieces) depth rest
      | none => none
    | c :: rest =>
      if isSpace c then scan inner fuel depth last rest
      else if c.isDigit then
        match number false cs with
        | some (t, rest) => emit t depth rest
        | none => none
      else if isWordStart c then
        emit (word (String.ofList (cs.takeWhile isWordChar))) depth (cs.dropWhile isWordChar)
      else if c = '-' ∧ rest.head?.any Char.isDigit ∧ last.all opensOperand then
        match number true rest with
        | some (t, rest) => emit t depth rest
        | none => none
      else if c = '#' ∧ rest.head?.any (fun d => d = '#' ∨ d = '"') then
        match rest.dropWhile (· = '#') with
        | '"' :: more =>
          match rawText (cs.takeWhile (· = '#')).length more with
          | some (chars, rest) => emit (text (String.ofList chars)) depth rest
          | none => none
        | _ => none
      else
        match takeMark cs with
        | none => none
        | some (m, rest) =>
          if reservedMarks.contains m then none
          else if m = "\x7d" then
            if inner ∧ depth = 0 then some ([], rest)
            else emit (mark m) (depth - 1) rest
          else if m = "\x7b" ∨ m = "#\x7b" then emit (mark m) (depth + 1) rest
          else emit (mark m) depth rest

/-- The pieces of a template: each text with the code after it. -/
def scanTemplate : (fuel : Nat) → List Char →
    Option (List (String × List Token) × List Char)
  | 0, _ => none
  | fuel + 1, cs =>
    match templatePiece cs with
    | none => none
    | some (chars, false, rest) => some ([(String.ofList chars, [])], rest)
    | some (chars, true, rest) =>
      match scan true fuel 0 none rest with
      | none => none
      | some (code, rest) =>
        (scanTemplate fuel rest).map fun r => ((String.ofList chars, code) :: r.1, r.2)

end

/-- The tokens of a script; `none` when a token is malformed or set aside. -/
def tokens? (source : String) : Option (List Token) :=
  let cs := source.toList
  (scan false (2 * cs.length + 2) 0 none cs).map (·.1)

end Token

end Conduit.Script
