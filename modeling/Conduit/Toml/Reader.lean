import Conduit.Json.Reader
import Conduit.Toml.Basic

/-!
# Reading TOML

A reader takes the unread characters and gives a result with the characters after it, or nothing if
the text is not TOML. Only what a value is matters, so dates and numbers with a fraction are
checked and not kept.
-/

namespace Conduit.Toml

abbrev Chars := List Char

/-! ## Characters -/

def isBlank (c : Char) : Bool := c == ' ' || c == '\t'

def skipBlank (s : Chars) : Chars := s.dropWhile isBlank

/-- Characters that may stand in a comment or, quotes aside, in a string of one line. -/
def isVisible (c : Char) : Bool := c == '\t' || (0x20 ≤ c.toNat && c.toNat != 0x7f)

def newline? : Chars → Option Chars
  | '\n' :: rest => some rest
  | '\r' :: '\n' :: rest => some rest
  | _ => none

/-- Passes a comment, if there is one. -/
def skipComment : Chars → Chars
  | '#' :: rest => rest.dropWhile isVisible
  | s => s

/-- Passes the rest of a line, on which nothing more may stand. -/
def endLine (s : Chars) : Option Chars :=
  match skipComment (skipBlank s) with
  | [] => some []
  | s => newline? s

/-- Passes blanks, comments and newlines. -/
def skipLines : (fuel : Nat) → Chars → Chars
  | 0, s => s
  | fuel + 1, s =>
    let s := skipComment (skipBlank s)
    match newline? s with
    | some rest => skipLines fuel rest
    | none => s

def dropPrefix? (word : Chars) (s : Chars) : Option Chars :=
  if word.isPrefixOf s then some (s.drop word.length) else none

/-! ## Strings -/

def hexDigits? (n : Nat) (s : Chars) : Option (Nat × Chars) := do
  let digits := s.take n
  if digits.length ≠ n then none
  else
    let values ← digits.mapM fun c =>
      if c.toNat < 128 then Json.hexValue? (UInt8.ofNat c.toNat) else none
    return (values.foldl (fun a d => 16 * a + d) 0, s.drop n)

def character? (r : Nat × Chars) : Option (Char × Chars) :=
  if r.1.isValidChar then some (Char.ofNat r.1, r.2) else none

/-- The character that an escape stands for, its backslash read. -/
def escape? : Chars → Option (Char × Chars)
  | 'b' :: rest => some ('\x08', rest)
  | 't' :: rest => some ('\t', rest)
  | 'n' :: rest => some ('\n', rest)
  | 'f' :: rest => some ('\x0c', rest)
  | 'r' :: rest => some ('\r', rest)
  | '"' :: rest => some ('"', rest)
  | '\\' :: rest => some ('\\', rest)
  | 'u' :: rest => (hexDigits? 4 rest).bind character?
  | 'U' :: rest => (hexDigits? 8 rest).bind character?
  | _ => none

/-- The rest of a string between double quotes. -/
def basic : (fuel : Nat) → Chars → Option (Chars × Chars)
  | 0, _ => none
  | fuel + 1, s =>
    match s with
    | [] => none
    | '"' :: rest => some ([], rest)
    | '\\' :: rest => do
      let (c, rest) ← escape? rest
      let (cs, rest) ← basic fuel rest
      return (c :: cs, rest)
    | c :: rest =>
      if isVisible c then (basic fuel rest).map fun r => (c :: r.1, r.2) else none

/-- The rest of a string between single quotes. -/
def literal (s : Chars) : Option (Chars × Chars) :=
  let body := s.takeWhile fun c => isVisible c && c != '\''
  match s.drop body.length with
  | '\'' :: rest => some (body, rest)
  | _ => none

/-- Closing quotes: up to two more belong to the string. -/
def closing? (quote : Char) (s : Chars) : Option (Chars × Chars) :=
  let run := (s.takeWhile (· == quote)).length
  if run < 3 then none
  else
    let extra := min (run - 3) 2
    some (List.replicate extra quote, s.drop (extra + 3))

/-- The rest of a string of several lines. Only with escapes does a backslash mean anything. -/
def multiline (quote : Char) (escapes : Bool) : (fuel : Nat) → Chars → Option (Chars × Chars)
  | 0, _ => none
  | fuel + 1, s =>
    match closing? quote s with
    | some r => some r
    | none =>
      match newline? s with
      | some rest => (multiline quote escapes fuel rest).map fun r => ('\n' :: r.1, r.2)
      | none =>
        match s with
        | [] => none
        | c :: rest =>
          if c = '\\' ∧ escapes then
            match newline? (skipBlank rest) with
            | some more =>
              multiline quote escapes fuel
                (more.dropWhile fun c => isBlank c || c == '\n' || c == '\r')
            | none => do
              let (c, rest) ← escape? rest
              let (cs, rest) ← multiline quote escapes fuel rest
              return (c :: cs, rest)
          else if isVisible c then (multiline quote escapes fuel rest).map fun r => (c :: r.1, r.2)
          else none

/-- A newline right behind the opening quotes does not count. -/
def dropNewline (s : Chars) : Chars := (newline? s).getD s

def string? (s : Chars) : Option (String × Chars) :=
  let text := fun (r : Chars × Chars) => (String.ofList r.1, r.2)
  match s with
  | '"' :: '"' :: '"' :: rest =>
    (multiline '"' true (rest.length + 1) (dropNewline rest)).map text
  | '\'' :: '\'' :: '\'' :: rest =>
    (multiline '\'' false (rest.length + 1) (dropNewline rest)).map text
  | '"' :: rest => (basic (rest.length + 1) rest).map text
  | '\'' :: rest => (literal rest).map text
  | _ => none

/-! ## Keys -/

def isBare (c : Char) : Bool := c.isAlphanum || c == '_' || c == '-'

def simpleKey? (s : Chars) : Option (String × Chars) :=
  match s with
  | '"' :: rest => (basic (rest.length + 1) rest).map fun r => (String.ofList r.1, r.2)
  | '\'' :: rest => (literal rest).map fun r => (String.ofList r.1, r.2)
  | s =>
    let key := s.takeWhile isBare
    if key.isEmpty then none else some (String.ofList key, s.drop key.length)

/-- Keys with dots between them. -/
def keys? : (fuel : Nat) → Chars → Option (List String × Chars)
  | 0, _ => none
  | fuel + 1, s => do
    let (key, rest) ← simpleKey? (skipBlank s)
    match skipBlank rest with
    | '.' :: rest => do
      let (more, rest) ← keys? fuel rest
      return (key :: more, rest)
    | rest => return ([key], rest)

/-! ## Numbers and dates -/

/-- Digits, with single underscores between them. -/
def digits? (isDigit : Char → Bool) : (fuel : Nat) → Chars → Option (Chars × Chars)
  | 0, _ => none
  | fuel + 1, s =>
    match s with
    | c :: rest =>
      if !isDigit c then none
      else
        match rest with
        | '_' :: more => (digits? isDigit fuel more).map fun r => (c :: r.1, r.2)
        | rest =>
          match digits? isDigit fuel rest with
          | some r => some (c :: r.1, r.2)
          | none => if rest.head?.any isDigit then none else some ([c], rest)
    | [] => none

def decimal? (s : Chars) : Option (Chars × Chars) := digits? Char.isDigit (s.length + 1) s

def isHex (c : Char) : Bool :=
  c.isDigit || ('a' ≤ c && c ≤ 'f') || ('A' ≤ c && c ≤ 'F')

def radix? (base : Nat) (isDigit : Char → Bool) (s : Chars) : Option (Toml × Chars) := do
  let (digits, rest) ← digits? isDigit (s.length + 1) s
  let n := digits.foldl (fun a c =>
    base * a + ((Json.hexValue? (UInt8.ofNat c.toNat)).getD 0)) 0
  if n < 0x8000000000000000 then some (.integer n, rest) else none

/-- A sign, if there is one; true for minus. -/
def sign : Chars → Bool × Chars
  | '-' :: rest => (true, rest)
  | '+' :: rest => (false, rest)
  | s => (false, s)

/-- Whole digits, without a zero in front of others. -/
def whole? (s : Chars) : Option (Chars × Chars) :=
  match s with
  | '0' :: rest => some (['0'], rest)
  | s => decimal? s

def exponent? : Chars → Option (Chars × Chars)
  | 'e' :: rest | 'E' :: rest =>
    let (negative, rest) := sign rest
    (decimal? rest).map fun r => ('e' :: ((if negative then ['-'] else []) ++ r.1), r.2)
  | _ => none

/-- A number with a fraction or an exponent; it has to be finite. -/
def float? (s : Chars) : Option (Toml × Chars) := do
  let (_, s) := sign s
  let (whole, s) ← whole? s
  let (fraction, s) ← match s with
    | '.' :: rest => (decimal? rest).map fun r => (some r.1, r.2)
    | s => some (none, s)
  let (exponent, s) ← match exponent? s with
    | some r => some (some r.1, r.2)
    | none => if fraction.isNone then none else some (none, s)
  let text := whole ++ (fraction.map ('.' :: ·)).getD [] ++ exponent.getD []
  match Number.double? (String.ofList text) with
  | some d => if d.isFinite then some (.float, s) else none
  | none => none

def special? (s : Chars) : Option (Toml × Chars) := do
  let (_, s) := sign s
  let rest ← (dropPrefix? ['i', 'n', 'f'] s).orElse fun _ => dropPrefix? ['n', 'a', 'n'] s
  return (.float, rest)

def integer? (s : Chars) : Option (Toml × Chars) :=
  match s with
  | '0' :: 'x' :: rest => radix? 16 isHex rest
  | '0' :: 'o' :: rest => radix? 8 (fun c => '0' ≤ c && c ≤ '7') rest
  | '0' :: 'b' :: rest => radix? 2 (fun c => c == '0' || c == '1') rest
  | s => do
    let (negative, s) := sign s
    let (digits, rest) ← whole? s
    let n : Int := digits.foldl (fun a c => 10 * a + (c.toNat - 48)) 0
    let n := if negative then -n else n
    if -0x8000000000000000 ≤ n ∧ n < 0x8000000000000000 then some (.integer n, rest) else none

/-- Exactly `n` digits, as a number. -/
def fixed? (n : Nat) (s : Chars) : Option (Nat × Chars) :=
  let digits := s.take n
  if digits.length = n ∧ digits.all Char.isDigit then
    some (digits.foldl (fun a c => 10 * a + (c.toNat - 48)) 0, s.drop n)
  else none

def char? (c : Char) : Chars → Option Chars
  | d :: rest => if d = c then some rest else none
  | [] => none

def isLeap (year : Nat) : Bool := year % 4 == 0 && (year % 100 != 0 || year % 400 == 0)

def daysIn (year month : Nat) : Nat :=
  if month = 2 then (if isLeap year then 29 else 28)
  else if month = 4 ∨ month = 6 ∨ month = 9 ∨ month = 11 then 30
  else 31

def date? (s : Chars) : Option Chars := do
  let (year, s) ← fixed? 4 s
  let s ← char? '-' s
  let (month, s) ← fixed? 2 s
  let s ← char? '-' s
  let (day, s) ← fixed? 2 s
  if 1 ≤ month ∧ month ≤ 12 ∧ 1 ≤ day ∧ day ≤ daysIn year month then some s else none

/-- Hours and minutes. -/
def clock? (s : Chars) : Option Chars := do
  let (hour, s) ← fixed? 2 s
  let s ← char? ':' s
  let (minute, s) ← fixed? 2 s
  if hour ≤ 23 ∧ minute ≤ 59 then some s else none

def time? (s : Chars) : Option Chars := do
  let s ← clock? s
  let s ← char? ':' s
  let (second, s) ← fixed? 2 s
  if 60 < second then none
  else
    match s with
    | '.' :: rest =>
      if rest.head?.any Char.isDigit then some (rest.dropWhile Char.isDigit) else none
    | s => some s

def offset? : Chars → Option Chars
  | 'Z' :: rest | 'z' :: rest => some rest
  | '+' :: rest | '-' :: rest => clock? rest
  | s => some s

def datetime? (s : Chars) : Option (Toml × Chars) :=
  match date? s with
  | none => (time? s).map fun rest => (.datetime, rest)
  | some rest =>
    match rest with
    | 'T' :: more | 't' :: more => ((time? more).bind offset?).map fun rest => (.datetime, rest)
    | ' ' :: more =>
      match time? more with
      | some more => (offset? more).map fun rest => (.datetime, rest)
      | none => some (.datetime, rest)
    | rest => some (.datetime, rest)

def number? (s : Chars) : Option (Toml × Chars) :=
  (datetime? s).orElse fun _ => (float? s).orElse fun _ =>
    (special? s).orElse fun _ => integer? s

/-! ## Values -/

/-- How deep brackets may nest. -/
def maxDepth : Nat := 80

mutual

def value? : (fuel depth : Nat) → Chars → Option (Toml × Chars)
  | 0, _, _ => none
  | fuel + 1, depth, s =>
    match s with
    | '"' :: _ | '\'' :: _ => (string? s).map fun r => (.string r.1, r.2)
    | '[' :: rest =>
      match depth with
      | 0 => none
      | depth + 1 => (items? fuel depth rest).map fun r => (.array r.1, r.2)
    | '{' :: rest =>
      match depth with
      | 0 => none
      | depth + 1 =>
        match skipBlank rest with
        | '}' :: rest => some (.inlineTable false false [], rest)
        | rest => members? fuel depth (.inlineTable false false []) rest
    | 't' :: _ => (dropPrefix? ['t', 'r', 'u', 'e'] s).map fun r => (.boolean true, r)
    | 'f' :: _ => (dropPrefix? ['f', 'a', 'l', 's', 'e'] s).map fun r => (.boolean false, r)
    | s => number? s

/-- The items of an array up to its closing bracket. -/
def items? : (fuel depth : Nat) → Chars → Option (List Toml × Chars)
  | 0, _, _ => none
  | fuel + 1, depth, s =>
    match skipLines (s.length + 1) s with
    | ']' :: rest => some ([], rest)
    | s => do
      let (t, rest) ← value? fuel depth s
      match skipLines (rest.length + 1) rest with
      | ',' :: rest => (items? fuel depth rest).map fun r => (t :: r.1, r.2)
      | ']' :: rest => return ([t], rest)
      | _ => none

/-- The members of a table within braces up to the closing brace. -/
def members? : (fuel depth : Nat) → Toml → Chars → Option (Toml × Chars)
  | 0, _, _, _ => none
  | fuel + 1, depth, whole, s => do
    let (path, rest) ← keys? (s.length + 1) s
    let rest ← char? '=' (skipBlank rest)
    let (t, rest) ← value? fuel depth (skipBlank rest)
    let whole ← addKey t whole path.dropLast (path.getLast?.getD "") (decide (1 < path.length))
    match skipBlank rest with
    | ',' :: rest => members? fuel depth whole rest
    | '}' :: rest => return (whole, rest)
    | _ => none

end

/-! ## Documents -/

/-- Reads line after line. -/
def lines? : (fuel : Nat) → Toml → (header : List String) → Chars → Option Toml
  | 0, _, _, _ => none
  | fuel + 1, root, header, s =>
    match skipBlank s with
    | [] => some root
    | '#' :: _ => (endLine s).bind (lines? fuel root header ·)
    | '\n' :: _ | '\r' :: _ => (endLine s).bind (lines? fuel root header ·)
    | '[' :: '[' :: rest => do
      let (path, rest) ← keys? (rest.length + 1) rest
      let rest ← dropPrefix? [']', ']'] rest
      let root ← atHeader openNext root path
      lines? fuel root path (← endLine rest)
    | '[' :: rest => do
      let (path, rest) ← keys? (rest.length + 1) rest
      let rest ← char? ']' rest
      let root ← atHeader openTable root path
      lines? fuel root path (← endLine rest)
    | s => do
      let (path, rest) ← keys? (s.length + 1) s
      let rest ← char? '=' (skipBlank rest)
      let (t, rest) ← value? (2 * rest.length + 2) maxDepth (skipBlank rest)
      let root ← addUnder root header path.dropLast (path.getLast?.getD "") t
      lines? fuel root header (← endLine rest)

/-- The table that a text spells. A mark of byte order in front does not count. -/
def parse? (text : String) : Option Toml :=
  let chars := match text.toList with
    | '\ufeff' :: rest => rest
    | chars => chars
  lines? (chars.length + 1) empty [] chars

end Conduit.Toml
