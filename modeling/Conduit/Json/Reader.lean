import Conduit.Number.Reading
import Conduit.Json.Fault

/-!
# Reading JSON

A reader takes the unread bytes and gives a result with the bytes after it. `readValue` reads any
value; its fuel bounds the calls, of which there are at most two for each byte.
Brackets may nest 127 deep.
-/

namespace Conduit.Json

/-- Bytes to a result and the bytes after it. -/
abbrev Reader (α : Type) := Bytes → Except Fault (α × Bytes)

def isSpace (b : UInt8) : Bool := b == 0x20 || b == 0x0a || b == 0x09 || b == 0x0d

def skipSpace : Bytes → Bytes
  | [] => []
  | b :: rest => if isSpace b then skipSpace rest else b :: rest

/-- The rest of a word whose first letter has been read. -/
def readWord : Bytes → Bytes → Except Fault Bytes
  | [], rest => .ok rest
  | _ :: _, [] => .error (Malformed.endInValue.before [])
  | w :: word, b :: rest =>
    if b = w then readWord word rest else .error (Malformed.badWord.before rest)

/-! ## Numbers -/

def isDigit (b : UInt8) : Bool := decide (0x30 ≤ b) && decide (b ≤ 0x39)

def digitOf (b : UInt8) : Nat := b.toNat - 48

/-- Appends digits to `n` as long as the number stays below `bound`; gives the digits left over. -/
def gather (bound n : Nat) : Bytes → Nat × Bytes
  | [] => (n, [])
  | d :: digits =>
    if 10 * n + digitOf d < bound then gather bound (10 * n + digitOf d) digits
    else (n, d :: digits)

/-- A number that is not whole. -/
def fractional (negative : Bool) (significand : Nat) (exponent : Int) (rest : Bytes) :
    Except Fault (Number × Bytes) :=
  match (Double.ofScaled negative significand exponent).bind Number.ofDouble? with
  | some n => .ok (n, rest)
  | none => .error (Malformed.outOfRange.before rest)

/-- The sign, digits and what follows them of an exponent whose mark has been read. -/
def readExponent (negative : Bool) (significand : Nat) (start : Int) (s : Bytes) :
    Except Fault (Number × Bytes) :=
  let (minus, s) := match s with
    | 0x2b :: rest => (false, rest)
    | 0x2d :: rest => (true, rest)
    | s => (false, s)
  match s with
  | [] => .error (Malformed.endInValue.before [])
  | d :: more =>
    if !isDigit d then .error (Malformed.badNumber.before more)
    else
      let rest := s.dropWhile isDigit
      match gather 0x80000000 0 (s.takeWhile isDigit) with
      | (n, []) => fractional negative significand (start + (if minus then -(n : Int) else n)) rest
      | (_, _ :: left) =>
        if significand ≠ 0 ∧ minus = false then
          .error (Malformed.outOfRange.before (left ++ rest))
        else fractional negative 0 0 rest

/-- A whole number within range, or the nearest number of the other kind. A minus makes zero and
numbers below the range of words into the other kind. -/
def wholeOrDouble (negative : Bool) (n : Nat) (rest : Bytes) : Except Fault (Number × Bytes) :=
  let signed : Int := if negative then -(n : Int) else n
  if negative ∧ n = 0 then fractional true 0 0 rest
  else match Number.ofInt? signed with
    | some number => .ok (number, rest)
    | none => fractional negative n 0 rest

/-- A number whose sign has been read. The digits gather in a significand below 2 ^ 64; whole
digits that do not fit any more raise the exponent, further ones are passed over. -/
def readNumber (negative : Bool) (s : Bytes) : Except Fault (Number × Bytes) :=
  match s with
  | [] => .error (Malformed.endInValue.before [])
  | d :: more =>
    if !isDigit d then .error (Malformed.badNumber.before more)
    else if d = 0x30 ∧ (more.head?.any isDigit) then .error (Malformed.badNumber.onto more)
    else
      let (n, left) := gather 0x10000000000000000 0 (s.takeWhile isDigit)
      match s.dropWhile isDigit with
      | 0x2e :: rest =>
        let digits := rest.takeWhile isDigit
        if digits.isEmpty then
          if rest.isEmpty then .error (Malformed.endInValue.onto rest)
          else .error (Malformed.badNumber.onto rest)
        else
          let (m, passed) := gather 0x10000000000000000 n digits
          let e : Int := left.length - (digits.length - passed.length : Nat)
          match rest.dropWhile isDigit with
          | 0x65 :: rest | 0x45 :: rest => readExponent negative m e rest
          | rest => fractional negative m e rest
      | 0x65 :: rest | 0x45 :: rest => readExponent negative n left.length rest
      | rest =>
        if left.isEmpty then wholeOrDouble negative n rest
        else fractional negative n left.length rest

/-! ## Strings -/

def hex4? (a b c d : UInt8) : Option Nat := do
  let a ← hexValue? a
  let b ← hexValue? b
  let c ← hexValue? c
  let d ← hexValue? d
  return ((a * 16 + b) * 16 + c) * 16 + d

/-- The byte that a one-letter escape stands for. -/
def escaped? (b : UInt8) : Option UInt8 :=
  if b = 0x22 ∨ b = 0x5c ∨ b = 0x2f then some b
  else if b = 0x62 then some 0x08
  else if b = 0x66 then some 0x0c
  else if b = 0x6e then some 0x0a
  else if b = 0x72 then some 0x0d
  else if b = 0x74 then some 0x09
  else none

def charBytes (n : Nat) : Bytes := String.utf8EncodeChar (Char.ofNat n)

/-- The bytes of a string up to its closing quote, escapes resolved. -/
def readBody : Bytes → Except Fault (Bytes × Bytes)
  | [] => .error (Malformed.endInString.before [])
  | b :: rest =>
    if b = 0x22 then .ok ([], rest)
    else if b = 0x5c then
      match rest with
      | [] => .error (Malformed.endInString.before [])
      | e :: rest =>
        if e = 0x75 then
          match rest with
          | h₁ :: h₂ :: h₃ :: h₄ :: rest =>
            match hex4? h₁ h₂ h₃ h₄ with
            | none => .error (Malformed.badEscape.before rest)
            | some n =>
              if 0xdc00 ≤ n ∧ n ≤ 0xdfff then .error (Malformed.loneSurrogate.before rest)
              else if n < 0xd800 ∨ 0xdbff < n then
                (readBody rest).map fun r => (charBytes n ++ r.1, r.2)
              else
                match rest with
                | [] => .error (Malformed.endInString.before [])
                | x :: rest =>
                  if x ≠ 0x5c then .error (Malformed.brokenPair.before rest)
                  else
                    match rest with
                    | [] => .error (Malformed.endInString.before [])
                    | y :: rest =>
                      if y ≠ 0x75 then .error (Malformed.brokenPair.before rest)
                      else
                        match rest with
                        | l₁ :: l₂ :: l₃ :: l₄ :: rest =>
                          match hex4? l₁ l₂ l₃ l₄ with
                          | none => .error (Malformed.badEscape.before rest)
                          | some m =>
                            if m < 0xdc00 ∨ 0xdfff < m then
                              .error (Malformed.loneSurrogate.before rest)
                            else
                              let c := (n - 0xd800) * 0x400 + (m - 0xdc00) + 0x10000
                              (readBody rest).map fun r => (charBytes c ++ r.1, r.2)
                        | _ => .error (Malformed.endInString.before [])
          | _ => .error (Malformed.endInString.before [])
        else
          match escaped? e with
          | some x => (readBody rest).map fun r => (x :: r.1, r.2)
          | none => .error (Malformed.badEscape.before rest)
    else if b < 0x20 then .error (Malformed.controlCharacter.before rest)
    else (readBody rest).map fun r => (b :: r.1, r.2)

/-- A string whose opening quote has been read. -/
def readString (s : Bytes) : Except Fault (String × Bytes) := do
  let (bytes, rest) ← readBody s
  match Utf8.decode bytes with
  | .ok text => return (text, rest)
  | .error _ => throw ⟨.malformed .badCodePoint, rest.length + 1⟩

/-! ## Values -/

/-- How many brackets may be open at once. -/
def maxDepth : Nat := 127

mutual

/-- Any value, with `depth` brackets still allowed. -/
def readValue : (fuel depth : Nat) → Bytes → Except Fault (Value × Bytes)
  | 0, _, s => .error (Malformed.endInValue.onto s)
  | fuel + 1, depth, s =>
    match skipSpace s with
    | [] => .error (Malformed.endInValue.onto [])
    | b :: rest =>
      if b = 0x6e then (readWord [0x75, 0x6c, 0x6c] rest).map (.null, ·)
      else if b = 0x74 then (readWord [0x72, 0x75, 0x65] rest).map (.bool true, ·)
      else if b = 0x66 then (readWord [0x61, 0x6c, 0x73, 0x65] rest).map (.bool false, ·)
      else if b = 0x2d then (readNumber true rest).map fun r => (.number r.1, r.2)
      else if isDigit b then (readNumber false (b :: rest)).map fun r => (.number r.1, r.2)
      else if b = 0x22 then (readString rest).map fun r => (.string r.1, r.2)
      else if b = 0x5b then
        match depth with
        | 0 => .error (Malformed.tooDeep.onto (b :: rest))
        | depth + 1 =>
          match skipSpace rest with
          | [] => .error (Malformed.endInList.onto [])
          | c :: more =>
            if c = 0x5d then .ok (.array [], more)
            else (readItems fuel depth (c :: more)).map fun r => (.array r.1, r.2)
      else if b = 0x7b then
        match depth with
        | 0 => .error (Malformed.tooDeep.onto (b :: rest))
        | depth + 1 =>
          match skipSpace rest with
          | [] => .error (Malformed.endInObject.onto [])
          | c :: more =>
            if c = 0x7d then .ok (.object [], more)
            else if c = 0x22 then
              (readMembers fuel depth more).map fun r => (.object (Members.ofList r.1), r.2)
            else .error (Malformed.keyNotString.onto (c :: more))
      else .error (Malformed.missingValue.onto (b :: rest))

/-- The items of an array from the first of them to the closing bracket. -/
def readItems : (fuel depth : Nat) → Bytes → Except Fault (List Value × Bytes)
  | 0, _, s => .error (Malformed.endInList.onto s)
  | fuel + 1, depth, s =>
    match readValue fuel depth s with
    | .error e => .error e
    | .ok (v, rest) =>
      match skipSpace rest with
      | [] => .error (Malformed.endInList.onto [])
      | c :: more =>
        if c = 0x5d then .ok ([v], more)
        else if c = 0x2c then
          match skipSpace more with
          | [] => .error (Malformed.endInValue.onto [])
          | d :: after =>
            if d = 0x5d then .error (Malformed.trailingComma.onto (d :: after))
            else (readItems fuel depth (d :: after)).map fun r => (v :: r.1, r.2)
        else .error (Malformed.missingListComma.onto (c :: more))

/-- The members of an object from the first key, whose quote has been read, to the closing
brace. -/
def readMembers : (fuel depth : Nat) → Bytes → Except Fault (List (String × Value) × Bytes)
  | 0, _, s => .error (Malformed.endInObject.onto s)
  | fuel + 1, depth, s =>
    match readString s with
    | .error e => .error e
    | .ok (key, rest) =>
      match skipSpace rest with
      | [] => .error (Malformed.endInObject.onto [])
      | c :: more =>
        if c ≠ 0x3a then .error (Malformed.missingColon.onto (c :: more))
        else
          match readValue fuel depth more with
          | .error e => .error e
          | .ok (v, rest) =>
            match skipSpace rest with
            | [] => .error (Malformed.endInObject.onto [])
            | c :: more =>
              if c = 0x7d then .ok ([(key, v)], more)
              else if c = 0x2c then
                match skipSpace more with
                | [] => .error (Malformed.endInValue.onto [])
                | d :: after =>
                  if d = 0x22 then
                    (readMembers fuel depth after).map fun r => ((key, v) :: r.1, r.2)
                  else if d = 0x7d then .error (Malformed.trailingComma.onto (d :: after))
                  else .error (Malformed.keyNotString.onto (d :: after))
              else .error (Malformed.missingObjectComma.onto (c :: more))

end

/-- Runs a reader on a whole text: nothing but blank space may follow. -/
def runReader (reader : Reader α) (input : Bytes) : Except Fault α := do
  let (a, rest) ← reader input
  match skipSpace rest with
  | [] => return a
  | b :: more => throw (Malformed.trailingCharacters.onto (b :: more))

/-- The value that a text spells. -/
def parse (input : Bytes) : Except Fault Value :=
  runReader (readValue (2 * input.length + 2) maxDepth) input

/-- The value that a text spells, with the message of what is wrong with it. -/
def parseText (input : Bytes) : Except String Value :=
  (parse input).mapError (·.message input)

end Conduit.Json
