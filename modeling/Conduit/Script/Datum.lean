import Conduit.Number.Shortest
import Conduit.Text.Quoted
import Conduit.Number.Reading
import Conduit.Json.Printer

/-!
# Script values

What a script computes with. A record keeps its fields in the order of their names. A variable that
a closure has captured lives in a numbered cell, and a `cell` value stands for what the cell holds.
-/

namespace Conduit.Script

inductive Datum
  | unit
  | bool (b : Bool)
  | int (n : Int)
  | float (d : Double)
  | char (c : Char)
  | text (s : String)
  | list (items : List Datum)
  | blob (bytes : Bytes)
  | record (fields : List (String × Datum))
  | function (name : String) (curried : List Datum)
  | range (inclusive : Bool) (first last : Int)
  | cell (id : Nat)
deriving Inhabited

/-- The fields of a record, in the order of their names. -/
abbrev Fields := List (String × Datum)

namespace Fields

def insert (name : String) (d : Datum) : Fields → Fields
  | [] => [(name, d)]
  | (n, e) :: rest =>
    if name < n then (name, d) :: (n, e) :: rest
    else if name = n then (name, d) :: rest
    else (n, e) :: insert name d rest

def erase (fields : Fields) (name : String) : Fields := fields.filter (·.1 != name)

def ofList (l : List (String × Datum)) : Fields :=
  l.foldl (fun fields f => insert f.1 f.2 fields) []

def union (a b : Fields) : Fields := b.foldl (fun fields f => insert f.1 f.2 fields) a

end Fields

/-- The range of whole numbers in scripts. -/
def inRange (n : Int) : Bool := decide (-0x8000000000000000 ≤ n) && decide (n < 0x8000000000000000)

namespace Datum

/-- The name of a value's type. -/
def typeName : Datum → String
  | unit => "()"
  | bool _ => "bool"
  | int _ => "i64"
  | float _ => "f64"
  | char _ => "char"
  | text _ => "string"
  | list _ => "array"
  | blob _ => "blob"
  | record _ => "map"
  | function .. => "Fn"
  | range false .. => "range"
  | range true .. => "range="
  | cell _ => "shared"

/-- The full name of the type of a value. -/
def fullTypeName : Datum → String
  | range false .. => "core::ops::range::Range<i64>"
  | range true .. => "core::ops::range::RangeInclusive<i64>"
  | d => d.typeName

/-! ## Between scripts and JSON -/

mutual

/-- A JSON value as a script value. Whole numbers above the range of scripts become floating-point
numbers; fields come out in the order of their names. -/
def ofValue : Value → Datum
  | .null => unit
  | .bool b => bool b
  | .number (.whole n) => if n.val < 0x8000000000000000 then int n.val else float (Double.ofInt n.val)
  | .number (.double d) => float d.val
  | .string s => text s
  | .array items => list (ofValues items)
  | .object members => record (ofMembers members)

def ofValues : List Value → List Datum
  | [] => []
  | v :: rest => ofValue v :: ofValues rest

def ofMembers : List (String × Value) → Fields
  | [] => []
  | (k, v) :: rest => Fields.insert k (ofValue v) (ofMembers rest)

end

/-- A floating-point number in JSON; there is no text for infinities and for what is not a
number. -/
def floatValue (d : Double) : Value :=
  match Number.ofDouble? d with
  | some n => .number n
  | none => .null

def intValue (n : Int) : Value :=
  match Number.ofInt? n with
  | some n => .number n
  | none => .null

mutual

/-- A script value as JSON. Bytes, functions and ranges have none. -/
def toValue? : Datum → Option Value
  | unit => some .null
  | bool b => some (.bool b)
  | int n => some (intValue n)
  | float d => some (floatValue d)
  | char c => some (.string (String.singleton c))
  | text s => some (.string s)
  | list items => (toValues? items).map .array
  | record fields => (toMembers? fields).map .object
  | blob _ | function .. | range .. | cell _ => none

def toValues? : List Datum → Option (List Value)
  | [] => some []
  | d :: rest =>
    match toValue? d, toValues? rest with
    | some v, some vs => some (v :: vs)
    | _, _ => none

def toMembers? : Fields → Option Members
  | [] => some []
  | (k, d) :: rest =>
    match toValue? d, toMembers? rest with
    | some v, some ms => some ((k, v) :: ms)
    | _, _ => none

end

mutual

/-- A script value as JSON in which bytes are lists of numbers, and functions and ranges are
described by a text. -/
def describe : Datum → Value
  | unit => .null
  | bool b => .bool b
  | int n => intValue n
  | float d => floatValue d
  | char c => .string (String.singleton c)
  | text s => .string s
  | list items => .array (describeItems items)
  | blob bytes => .array (bytes.map fun b => .number (.ofByte b))
  | record fields => .object (describeFields fields)
  | function name _ => .string name
  | range i a b => .string (range i a b).fullTypeName
  | cell _ => .null

def describeItems : List Datum → List Value
  | [] => []
  | d :: rest => describe d :: describeItems rest

def describeFields : Fields → Members
  | [] => []
  | (k, d) :: rest => (k, describe d) :: describeFields rest

end

/-! ## Text -/

/-- Numbers of ordinary size are written without an exponent. -/
def naturalFloats : DecimalLayout := ⟨-400, 400, false⟩

def scientificFloats : DecimalLayout := ⟨1, 0, false⟩

/-- The text of a floating-point number. -/
def floatText (d : Double) : String :=
  if d.isNaN then "NaN"
  else if d.isInfinite then if d.negative then "-inf" else "inf"
  else if d.isZero then "0.0"
  else if (Double.ofNat 9999999827968).less d.abs || d.abs.less (Double.ofDecimal false 99999998245167 (-27))
    then scientificFloats.write d
  else naturalFloats.write d

def intText (n : Int) : String := String.ofList (Json.writeWhole n)

def quoteSingle (c : Char) : String :=
  let body :=
    if c = '\'' then ['\\', '\'']
    else if c = '"' then ['"']
    else Text.quoteChar c
  String.ofList ('\'' :: (body ++ ['\'']))

/-- Bytes in hexadecimal, in groups of eight. -/
def blobText (bytes : Bytes) : String :=
  let digits := bytes.zipIdx.flatMap fun (b, i) =>
    if 0 < i ∧ i % 8 = 0 then ' ' :: Hex.ofByte b else Hex.ofByte b
  String.ofList ('[' :: (digits ++ [']']))

mutual

/-- The text of a value inside another one: texts are quoted. -/
def debug : Datum → String
  | unit => "()"
  | bool true => "true"
  | bool false => "false"
  | int n => intText n
  | float d => floatText d
  | char c => quoteSingle c
  | text s => Text.quoted s
  | list items => "[" ++ debugItems items ++ "]"
  | blob bytes => blobText bytes
  | record fields => "#\x7b" ++ debugFields fields ++ "\x7d"
  | function name _ => "Fn(" ++ name ++ ")"
  | range inclusive first last =>
    intText first ++ (if inclusive then "..=" else "..") ++ intText last
  | cell _ => "shared"

def debugItems : List Datum → String
  | [] => ""
  | [d] => debug d
  | d :: rest => debug d ++ ", " ++ debugItems rest

def debugFields : Fields → String
  | [] => ""
  | [(k, d)] => Text.quoted k ++ ": " ++ debug d
  | (k, d) :: rest => Text.quoted k ++ ": " ++ debug d ++ ", " ++ debugFields rest

end

/-- The text of a value on its own. -/
def display : Datum → String
  | unit => ""
  | char c => String.singleton c
  | text s => s
  | d => d.debug

/-! ## Cells -/

mutual

/-- A value with something in the places of its cells. -/
def fill (content : Nat → Datum) : Datum → Datum
  | list items => list (fillItems content items)
  | record fields => record (fillFields content fields)
  | cell id => content id
  | d => d

def fillItems (content : Nat → Datum) : List Datum → List Datum
  | [] => []
  | d :: rest => fill content d :: fillItems content rest

def fillFields (content : Nat → Datum) : Fields → Fields
  | [] => []
  | (name, d) :: rest => (name, fill content d) :: fillFields content rest

end

/-! ## Size -/

mutual

/-- The number of items in lists, of fields in records, and of bytes in texts, counted through. -/
def sizes : Datum → Nat × Nat × Nat
  | text s => (0, 0, s.utf8ByteSize)
  | blob bytes => (bytes.length, 0, 0)
  | list items => let (a, m, s) := sizesOfItems items; (a, m, s)
  | record fields => let (a, m, s) := sizesOfFields fields; (a, m, s)
  | _ => (0, 0, 0)

def sizesOfItems : List Datum → Nat × Nat × Nat
  | [] => (0, 0, 0)
  | d :: rest =>
    let (a, m, s) := sizes d
    let (a', m', s') := sizesOfItems rest
    (a + a' + 1, m + m', s + s')

def sizesOfFields : Fields → Nat × Nat × Nat
  | [] => (0, 0, 0)
  | (_, d) :: rest =>
    let (a, m, s) := sizes d
    let (a', m', s') := sizesOfFields rest
    (a + a', m + m' + 1, s + s')

end

end Datum

end Conduit.Script
