import Conduit.Text.Blank
import Conduit.Text.Case
import Conduit.Json.Reader
import Conduit.Script.Operators

/-!
# The functions of the script language

Functions on plain values, without calls back into the script. A method may leave its first argument
changed; it then replies with both the new first argument and a value.
-/

namespace Conduit.Script

inductive Reply
  | value (d : Datum)
  /-- The first argument as it is now, and the value of the call. -/
  | update (first d : Datum)
  | trouble (t : Trouble)
deriving Inhabited

/-- A call of `clamp` on which the host breaks down, as it does if the bounds are out of order or one
of them is not a number. -/
structure Breakdown where
  value : Double
  low : Double
  high : Double
  outOfOrder : low.lessEq high = false

namespace Library

def ofOption (d : Option Datum) : Reply := .value (d.getD .unit)

def yes (b : Bool) : Option Reply := some (.value (.bool b))

def whole (n : Int) : Option Reply := some (.value (.int n))

def real (d : Double) : Option Reply := some (.value (.float d))

def string (s : String) : Option Reply := some (.value (.text s))

def chars (cs : List Char) : Option Reply := string (String.ofList cs)

def answer (a : Answer Datum) : Option Reply :=
  match a with
  | .ok d => some (.value d)
  | .error t => some (.trouble t)

/-- The place that an index counts from either end, if it is one of `size` places. -/
def place? (size : Nat) (i : Int) : Option Nat :=
  if 0 ≤ i then if i.toNat < size then some i.toNat else none
  else if i.natAbs ≤ size then some (size - i.natAbs) else none

/-- The start and the length of a part, cut to what is there. -/
def part (size : Nat) (start len : Int) : Nat × Nat :=
  if len ≤ 0 then (0, 0)
  else
    let from' : Nat := if start < 0 then size - start.natAbs else min start.toNat size
    (from', min len.toNat (size - from'))

/-- The start and the length that a range covers. -/
def rangePart (size : Nat) (inclusive : Bool) (first last : Int) : Nat × Nat :=
  let first := max 0 first
  let last := max 0 (if inclusive then last + 1 else last)
  part size first (last - first)

def slice (l : List α) (p : Nat × Nat) : List α := (l.drop p.1).take p.2

/-- The place where `needle` first occurs at or after `start`. -/
def find? (needle : List Char) : (start : Nat) → List Char → Option Nat
  | start, [] => if needle.isEmpty then some start else none
  | start, c :: rest =>
    if needle.isPrefixOf (c :: rest) then some start else find? needle (start + 1) rest

/-- The pieces of a list between the occurrences of a run, at most `count` of them. -/
def pieces (needle : List Char) : (fuel count : Nat) → List Char → List (List Char)
  | 0, _, cs => [cs]
  | fuel + 1, count, cs =>
    if count ≤ 1 then [cs]
    else match find? needle 0 cs with
      | none => [cs]
      | some i => cs.take i :: pieces needle fuel (count - 1) (cs.drop (i + needle.length))

/-- The pieces of a text; the empty run stands between all characters and at both ends. -/
def splitText (s needle : String) (count : Nat) : List Datum :=
  let cs := s.toList
  let parts :=
    if needle.isEmpty then
      let all := [] :: (cs.map fun c => [c]) ++ [[]]
      if all.length ≤ count then all
      else all.take (count - 1) ++ [(all.drop (count - 1)).flatten]
    else pieces needle.toList (cs.length + 1) count cs
  parts.map fun p => .text (String.ofList p)

def replaceText (s needle new : String) : String :=
  let cs := s.toList
  if needle.isEmpty then
    String.ofList (new.toList ++ cs.flatMap fun c => c :: new.toList)
  else
    String.ofList (new.toList.intercalate (pieces needle.toList (cs.length + 1) (cs.length + 2) cs))

def words (s : String) : List Datum :=
  (s.toList.splitBy fun a b => Text.isBlank a == Text.isBlank b).filterMap fun run =>
    match run with
    | c :: _ => if Text.isBlank c then none else some (.text (String.ofList run))
    | [] => none

def parseInt? (radix : Nat) (s : String) : Option Int :=
  let (negative, digits) := Number.takeSign (Text.trim s).toList
  if digits.isEmpty || radix < 2 || 36 < radix then none
  else
    let n := digits.foldl (fun (n : Option Nat) c => do
      let n ← n
      let v ← if c.isDigit then some (c.toNat - 48)
        else if c.isLower then some (c.toNat - 87)
        else if c.isUpper then some (c.toNat - 55) else none
      if v < radix then some (n * radix + v) else none) (some 0)
    match n with
    | some n =>
      let i : Int := if negative then -n else n
      if inRange i then some i else none
    | none => none

def badParse (what : String) : Trouble := .fault "ErrorArithmetic" ("Error parsing " ++ what)

/-- The text of a number in another base; negative numbers show their bits. -/
def radixText (radix : Nat) (n : Int) : String :=
  String.ofList (Nat.toDigits radix (toWord n).toNat)

/-! ## Numbers -/

def intFunction (name : String) (n : Int) (args : List Datum) : Option Reply :=
  match name, args with
  | "abs", [] => answer (checked "Absolute value overflow" n.natAbs)
  | "sign", [] => whole n.sign
  | "is_zero", [] => yes (n == 0)
  | "is_odd", [] => yes (n % 2 == 1)
  | "is_even", [] => yes (n % 2 == 0)
  | "to_float", [] => real (Double.ofInt n)
  | "to_int", [] => whole n
  | "to_hex", [] => string (radixText 16 n)
  | "to_octal", [] => string (radixText 8 n)
  | "to_binary", [] => string (radixText 2 n)
  | "min", [.int m] => whole (min n m)
  | "max", [.int m] => whole (max n m)
  | "min", [.float m] => real (if (Double.ofInt n).less m then Double.ofInt n else m)
  | "max", [.float m] => real (if m.less (Double.ofInt n) then Double.ofInt n else m)
  | "get_bit", [.int i] =>
    if -64 ≤ i ∧ i < 64 then
      yes ((toWord n >>> UInt64.ofNat (i % 64).toNat) % 2 == 1)
    else some (.trouble (.fault "ErrorBitFieldBounds" "Bit-field index out of bounds"))
  | _, _ => none

def realMath (f : Float → Float) (d : Double) : Option Reply := real (Double.ofFloat (f d.toFloat))

def floatToInt (d : Double) : Option Reply :=
  if d.isFinite && inRange d.truncate then whole d.truncate
  else some (.trouble (.arithmetic "Integer overflow: to_int"))

def floatFunction (name : String) (d : Double) (args : List Datum) : Option Reply :=
  match name, args with
  | "abs", [] => real d.abs
  | "sign", [] => if d.isNaN then some (.trouble (.arithmetic "Sign of NaN is undefined"))
    else whole (if d.isZero then 0 else if d.negative then -1 else 1)
  | "is_zero", [] => yes d.isZero
  | "is_nan", [] => yes d.isNaN
  | "is_finite", [] => yes d.isFinite
  | "is_infinite", [] => yes d.isInfinite
  | "to_int", [] => floatToInt d
  | "to_float", [] => real d
  | "floor", [] => real (if d.isFinite then Double.ofWhole d.negative d.floor else d)
  | "ceiling", [] => real (if d.isFinite then Double.ofWhole d.negative d.ceiling else d)
  | "round", [] => real (if d.isFinite then Double.ofWhole d.negative d.nearest else d)
  | "int", [] => real (if d.isFinite then Double.ofWhole d.negative d.truncate else d)
  | "fraction", [] =>
    real (if d.isFinite then d - Double.ofWhole d.negative d.truncate else Double.nan)
  | "sqrt", [] => realMath Float.sqrt d
  | "exp", [] => realMath Float.exp d
  | "ln", [] => realMath Float.log d
  | "log", [] => realMath Float.log10 d
  | "log10", [] => realMath Float.log10 d
  | "log", [.float b] => real (Double.ofFloat (d.toFloat.log / b.toFloat.log))
  | "sin", [] => realMath Float.sin d
  | "cos", [] => realMath Float.cos d
  | "tan", [] => realMath Float.tan d
  | "asin", [] => realMath Float.asin d
  | "acos", [] => realMath Float.acos d
  | "atan", [] => realMath Float.atan d
  | "atan", [.float y] => real (Double.ofFloat (Float.atan2 d.toFloat y.toFloat))
  | "sinh", [] => realMath Float.sinh d
  | "cosh", [] => realMath Float.cosh d
  | "tanh", [] => realMath Float.tanh d
  | "hypot", [.float y] =>
    real (Double.ofFloat (Float.sqrt (d.toFloat * d.toFloat + y.toFloat * y.toFloat)))
  | "to_degrees", [] => real (d * (Double.ofNat 180 / Double.ofFloat 3.141592653589793))
  | "to_radians", [] => real (d * (Double.ofFloat 3.141592653589793 / Double.ofNat 180))
  | "min", [.float m] => real (if d.isNaN then m else if m.isNaN || d.less m then d else m)
  | "max", [.float m] => real (if d.isNaN then m else if m.isNaN || m.less d then d else m)
  | "min", [.int m] => real (if d.less (Double.ofInt m) then d else Double.ofInt m)
  | "max", [.int m] => real (if (Double.ofInt m).less d then d else Double.ofInt m)
  | _, _ => none

/-! ## Texts -/

/-- A character or a text as a text. -/
def asText? : Datum → Option String
  | .text s => some s
  | .char c => some (String.singleton c)
  | _ => none

def textFunction (name : String) (s : String) (args : List Datum) : Option Reply :=
  let cs := s.toList
  let keep := fun (cs : List Char) => some (Reply.update (.text (String.ofList cs)) .unit)
  match name, args with
  | "len", [] => whole cs.length
  | "bytes", [] => whole s.utf8ByteSize
  | "is_empty", [] => yes s.isEmpty
  | "clear", [] => keep []
  | "to_upper", [] => string (Text.upper s)
  | "to_lower", [] => string (Text.lower s)
  | "make_upper", [] => keep (Text.upper s).toList
  | "make_lower", [] => keep (Text.lower s).toList
  | "trim", [] => keep (Text.trimChars cs)
  | "to_chars", [] => some (.value (.list (cs.map .char)))
  | "chars", [] => some (.value (.list (cs.map .char)))
  | "chars", [.int start] =>
    some (.value (.list ((slice cs (part cs.length start cs.length)).map .char)))
  | "chars", [.int start, .int len] =>
    some (.value (.list ((slice cs (part cs.length start len)).map .char)))
  | "to_blob", [] => some (.value (.blob (Utf8.encode s)))
  | "split", [] => some (.value (.list (words s)))
  | "split", [.int i] =>
    let n : Nat := if i < 0 then cs.length - i.natAbs else min i.toNat cs.length
    some (.value (.list [.text (String.ofList (cs.take n)), .text (String.ofList (cs.drop n))]))
  | "pop", [] =>
    match cs.getLast? with
    | some c => some (.update (.text (String.ofList cs.dropLast)) (.char c))
    | none => some (.value .unit)
  | "pop", [.int n] =>
    if n ≤ 0 then string ""
    else
      let k := cs.length - n.toNat
      some (.update (.text (String.ofList (cs.take k))) (.text (String.ofList (cs.drop k))))
  | "truncate", [.int n] => keep (cs.take n.toNat)
  | "get", [.int i] =>
    some (ofOption (((place? cs.length i).bind (cs[·]?)).map .char))
  | "set", [.int i, .char c] =>
    match place? cs.length i with
    | some k => keep (cs.set k c)
    | none => some (.value .unit)
  | "sub_string", [.int start] => chars (slice cs (part cs.length start cs.length))
  | "sub_string", [.int start, .int len] => chars (slice cs (part cs.length start len))
  | "sub_string", [.range i a b] => chars (slice cs (rangePart cs.length i a b))
  | "crop", [.int start] => keep (slice cs (part cs.length start cs.length))
  | "crop", [.int start, .int len] => keep (slice cs (part cs.length start len))
  | "crop", [.range i a b] => keep (slice cs (rangePart cs.length i a b))
  | "parse_int", [.int radix] =>
    match parseInt? radix.toNat s with
    | some n => whole n
    | none => some (.trouble (badParse "integer number"))
  | "parse_int", [] =>
    match parseInt? 10 s with
    | some n => whole n
    | none => some (.trouble (badParse "integer number"))
  | "parse_float", [] =>
    match Number.double? (Text.trim s) with
    | some d => real d
    | none => some (.trouble (badParse "floating-point number"))
  | "min", [.text t] => string (if t < s then t else s)
  | "max", [.text t] => string (if s < t then t else s)
  | "pad", [.int n, item] =>
    match asText? item with
    | some t =>
      if n.toNat ≤ cs.length || t.isEmpty then some (.value .unit)
      else if 1048576 < n.toNat then some (.trouble .exhausted)
      else
        let missing := n.toNat - cs.length
        let filler := (List.replicate (missing / t.length + 1) t.toList).flatten
        keep (cs ++ filler.take missing)
    | none => none
  | "append", [item] => some (.update (.text (s ++ item.display)) .unit)
  | "split", [.text t, .int n] => some (.value (.list (splitText s t n.toNat)))
  | "split", [.char t, .int n] => some (.value (.list (splitText s (String.singleton t) n.toNat)))
  | "split_rev", [item] =>
    (asText? item).map fun t => .value (.list (splitText s t (cs.length + 3)).reverse)
  | "index_of", [item, .int start] =>
    (asText? item).map fun t =>
      let n : Nat := if start < 0 then cs.length - start.natAbs else start.toNat
      .value (.int (match find? t.toList n (cs.drop n) with
        | some i => if n ≤ cs.length then i else -1
        | none => -1))
  | "replace", [a, b] =>
    match asText? a, asText? b with
    | some a, some b => keep (replaceText s a b).toList
    | _, _ => none
  | name, [item] =>
    match asText? item with
    | none => none
    | some t =>
      match name with
      | "contains" => yes (Text.occurs t.toList cs)
      | "starts_with" => yes (t.toList.isPrefixOf cs)
      | "ends_with" => yes (t.toList.reverse.isPrefixOf cs.reverse)
      | "index_of" => whole (match find? t.toList 0 cs with
        | some i => i
        | none => -1)
      | "split" => some (.value (.list (splitText s t (cs.length + 3))))
      | "remove" => keep (removeText s t).toList
      | _ => none
  | _, _ => none

def charFunction (name : String) (c : Char) (args : List Datum) : Option Reply :=
  let one := fun (cs : List Char) => Datum.char (match cs with
    | [d] => d
    | _ => c)
  match name, args with
  | "to_upper", [] => some (.value (one (Text.upperChar c)))
  | "to_lower", [] => some (.value (one (Text.lowerChar c)))
  | "make_upper", [] => some (.update (one (Text.upperChar c)) .unit)
  | "make_lower", [] => some (.update (one (Text.lowerChar c)) .unit)
  | "to_int", [] => whole c.toNat
  | "min", [.char d] => some (.value (.char (if d < c then d else c)))
  | "max", [.char d] => some (.value (.char (if c < d then d else c)))
  | _, _ => none

/-! ## Lists and bytes -/

/-- A list with an item put in at a place counted from either end. -/
def insertAt (l : List α) (i : Int) (a : α) : List α :=
  let n : Nat := if i < 0 then l.length - i.natAbs else min i.toNat l.length
  l.take n ++ a :: l.drop n

/-- The methods that lists and bytes share. `item` reads an argument as an item, `wrap` and `give`
make values of a list and of an item. -/
def seqFunction (wrap : List α → Datum) (give : α → Datum) (item : Datum → Option α)
    (same : Datum → Option (List α)) (none' : Datum) (name : String) (l : List α)
    (args : List Datum) : Option Reply :=
  let keep := fun l => some (Reply.update (wrap l) .unit)
  match name, args with
  | "len", [] => whole l.length
  | "is_empty", [] => yes l.isEmpty
  | "clear", [] => keep []
  | "reverse", [] => keep l.reverse
  | "pop", [] =>
    match l.getLast? with
    | some a => some (.update (wrap l.dropLast) (give a))
    | none => some (.value none')
  | "shift", [] =>
    match l with
    | a :: rest => some (.update (wrap rest) (give a))
    | [] => some (.value none')
  | "push", [d] => (item d).map fun a => .update (wrap (l ++ [a])) .unit
  | "append", [d] => (same d).map fun l' => .update (wrap (l ++ l')) .unit
  | "insert", [.int i, d] => (item d).map fun a => .update (wrap (insertAt l i a)) .unit
  | "remove", [.int i] =>
    match (place? l.length i).bind fun k => (l[k]?).map (k, ·) with
    | some (k, a) => some (.update (wrap (l.eraseIdx k)) (give a))
    | none => some (.value none')
  | "get", [.int i] =>
    some (.value (((place? l.length i).bind (l[·]?)).elim none' give))
  | "set", [.int i, d] =>
    (item d).map fun a =>
      match place? l.length i with
      | some k => .update (wrap (l.set k a)) .unit
      | none => .value .unit
  | "truncate", [.int n] =>
    keep (l.take n.toNat)
  | "chop", [.int n] => keep (if n ≤ 0 then [] else l.drop (l.length - n.toNat))
  | "extract", [.int start] => some (.value (wrap (slice l (part l.length start l.length))))
  | "extract", [.int start, .int len] => some (.value (wrap (slice l (part l.length start len))))
  | "extract", [.range i a b] => some (.value (wrap (slice l (rangePart l.length i a b))))
  | "split", [.int i] =>
    let n : Nat := if i < 0 then l.length - i.natAbs else min i.toNat l.length
    some (.update (wrap (l.take n)) (wrap (l.drop n)))
  | "drain", [.int start, .int len] =>
    let p := part l.length start len
    some (.update (wrap (l.take p.1 ++ l.drop (p.1 + p.2))) (wrap (slice l p)))
  | "drain", [.range i a b] =>
    let p := rangePart l.length i a b
    some (.update (wrap (l.take p.1 ++ l.drop (p.1 + p.2))) (wrap (slice l p)))
  | "retain", [.int start, .int len] =>
    let p := part l.length start len
    some (.update (wrap (slice l p)) (wrap (l.take p.1 ++ l.drop (p.1 + p.2))))
  | "retain", [.range i a b] =>
    let p := rangePart l.length i a b
    some (.update (wrap (slice l p)) (wrap (l.take p.1 ++ l.drop (p.1 + p.2))))
  | "splice", [.int start, .int len, d] =>
    (same d).map fun l' =>
      let p := part l.length start len
      .update (wrap (l.take p.1 ++ l' ++ l.drop (p.1 + p.2))) .unit
  | "splice", [.range i a b, d] =>
    (same d).map fun l' =>
      let p := rangePart l.length i a b
      .update (wrap (l.take p.1 ++ l' ++ l.drop (p.1 + p.2))) .unit
  | "pad", [.int n, d] =>
    (item d).map fun a =>
      if 10000 < n then .trouble .exhausted
      else if n.toNat ≤ l.length then .value .unit
      else .update (wrap (l ++ List.replicate (n.toNat - l.length) a)) .unit
  | _, _ => none

/-- Whether two values count as equal in a search. -/
def alike (a b : Datum) : Bool := (Datum.equal a b).getD false

/-- The order of two values of one kind, for sorting. -/
def sortsBefore? : Datum → Datum → Option Bool
  | .int a, .int b => some (decide (a ≤ b))
  | .float a, .float b => some (!b.less a)
  | .text a, .text b => some (!decide (b < a))
  | .char a, .char b => some (decide (a ≤ b))
  | .bool a, .bool b => some (!a || b)
  | .unit, .unit => some true
  | _, _ => none

/-- Sorts values that are all of one kind that can be sorted. -/
def sorted? : List Datum → Option (List Datum)
  | [] => some []
  | a :: rest =>
    if (a :: rest).all fun b => (sortsBefore? a b).isSome then
      some ((a :: rest).mergeSort fun x y => (sortsBefore? x y).getD true)
    else none

/-- Drops each item that equals the one before it. -/
def dedup : List Datum → List Datum
  | a :: b :: rest => if alike a b then dedup (a :: rest) else a :: dedup (b :: rest)
  | l => l

def listFunction (name : String) (l : List Datum) (args : List Datum) : Option Reply :=
  let asList := fun
    | Datum.list l => some l
    | _ => none
  match name, args with
  | "contains", [d] => yes (l.any (alike · d))
  | "index_of", [.function ..] => none
  | "index_of", [d] => whole (match l.findIdx? (alike · d) with
    | some i => i
    | none => -1)
  | "index_of", [d, .int start] =>
    let n : Nat := if start < 0 then l.length - start.natAbs else start.toNat
    whole (match (l.drop n).findIdx? (alike · d) with
      | some i => (i + n : Nat)
      | none => -1)
  | "sort", [] =>
    match sorted? l with
    | some l => some (.update (.list l) .unit)
    | none => some (.trouble (.fault "ErrorMismatchDataType" "elements of array must all be of the same type"))
  | "order", [] =>
    match sorted? l with
    | some l => some (.value (.list l))
    | none => some (.trouble (.fault "ErrorMismatchDataType" "elements of array must all be of the same type"))
  | "sort_desc", [] =>
    match sorted? l with
    | some l => some (.update (.list l.reverse) .unit)
    | none => some (.trouble (.fault "ErrorMismatchDataType" "elements of array must all be of the same type"))
  | "order_desc", [] =>
    match sorted? l with
    | some l => some (.value (.list l.reverse))
    | none => some (.trouble (.fault "ErrorMismatchDataType" "elements of array must all be of the same type"))
  | "dedup", [] => some (.update (.list (dedup l)) .unit)
  | "drain", [.function ..] | "retain", [.function ..] => none
  | _, _ => seqFunction .list id some asList .unit name l args

def byteOf (n : Int) : UInt8 := UInt8.ofNat (n % 256).toNat

def blobFunction (name : String) (b : Bytes) (args : List Datum) : Option Reply :=
  let item := fun
    | Datum.int n => some (byteOf n)
    | _ => none
  let same := fun
    | Datum.blob b => some b
    | .text s => some (Utf8.encode s)
    | .char c => some (Utf8.encodeChars [c])
    | .int n => some [byteOf n]
    | _ => none
  match name, args with
  | "contains", [.int n] => yes (0 ≤ n && n < 256 && b.contains (byteOf n))
  | "to_array", [] => some (.value (.list (b.map fun x => .int x.toNat)))
  | "as_string", [] => string (Utf8.decodeLossy b)
  | "to_text", [] => string (Utf8.decodeLossy b)
  | "chop", [.int n] => some (.update (.blob (if n ≤ 0 then [] else b.drop (b.length - n.toNat))) .unit)
  | _, _ => seqFunction .blob (fun x => .int x.toNat) item same (.int 0) name b args

/-! ## Records and ranges -/

def recordFunction (name : String) (fields : Fields) (args : List Datum) : Option Reply :=
  match name, args with
  | "len", [] => whole fields.length
  | "is_empty", [] => yes fields.isEmpty
  | "clear", [] => some (.update (.record []) .unit)
  | "contains", [.text key] => yes (fields.lookup key).isSome
  | "get", [.text key] => some (ofOption (fields.lookup key))
  | "set", [.text key, d] => some (.update (.record (Fields.insert key d fields)) .unit)
  | "remove", [.text key] =>
    match fields.lookup key with
    | some d => some (.update (.record (Fields.erase fields key)) d)
    | none => some (.value .unit)
  | "mixin", [.record other] => some (.update (.record (Fields.union fields other)) .unit)
  | "fill_with", [.record other] =>
    some (.update (.record (Fields.union other fields)) .unit)
  | "keys", [] => some (.value (.list (fields.map fun f => .text f.1)))
  | "values", [] => some (.value (.list (fields.map (·.2))))
  | "to_json", [] => string (Value.object (Datum.describeFields fields)).toText
  | _, _ => none

def rangeFunction (name : String) (inclusive : Bool) (first last : Int) (args : List Datum) :
    Option Reply :=
  match name, args with
  | "contains", [.int n] =>
    yes (first ≤ n && (if inclusive then n ≤ last else n < last))
  | "start", [] => whole first
  | "end", [] => whole last
  | "is_inclusive", [] => yes inclusive
  | "is_exclusive", [] => yes (!inclusive)
  | "is_empty", [] => yes (if inclusive then last < first else last ≤ first)
  | _, _ => none

/-! ## The functions of the bridge -/

/-- What a script can ask about its own run. -/
structure Setting where
  time : Double
  elapsed : Double
  count : Int
  nowMs : Int

def hostFunction (setting : Setting) (name : String) (args : List Datum) : Option Reply :=
  match name, args with
  | "time", [] => real setting.time
  | "dt", [] => real setting.elapsed
  | "count", [] => whole setting.count
  | "now_ms", [] => whole setting.nowMs
  | "parse_json", [.text s] =>
    some (.value (match Json.parse (Utf8.encode s) with
      | .ok v => Datum.ofValue v
      | .error _ => .unit))
  | "to_text", [.blob b] => string (Utf8.decodeLossy b)
  | "to_blob", [.text s] => some (.value (.blob (Utf8.encode s)))
  | "deadband", [.float value, .float center, .float width] =>
    real (if (value - center).abs.less (width / Double.ofNat 2) then center else value)
  | "clamp", [.float x, .float low, .float high] =>
    real (if x.less low then low else if high.less x then high else x)
  | "lerp", [.float a, .float b, .float t] => real (a + (b - a) * t)
  | "map_range", [.float x, .float a, .float b, .float c, .float d] =>
    real ((x - a) * (d - c) / (b - a) + c)
  | _, _ => none

/-! ## All functions -/

/-- Functions that take a first argument of any type. -/
def anyFunction (name : String) (d : Datum) (args : List Datum) : Option Reply :=
  match name, args with
  | "to_string", [] => string d.display
  | "to_debug", [] => string d.debug
  | "type_of", [] => string d.typeName
  | "print", [] | "debug", [] => some (.value .unit)
  | "to_json", [] =>
    string (match d.toValue? with
      | some v => v.toText
      | none => "")
  | "is_shared", [] => yes false
  | _, _ => none

def typedFunction (name : String) (d : Datum) (args : List Datum) : Option Reply :=
  match d with
  | .int n => intFunction name n args
  | .float x => floatFunction name x args
  | .text s => textFunction name s args
  | .char c => charFunction name c args
  | .list l => listFunction name l args
  | .blob b => blobFunction name b args
  | .record fields => recordFunction name fields args
  | .range i a b => rangeFunction name i a b args
  | .bool b =>
    match name, args with
    | "to_float", [] => none
    | "min", [.bool c] => yes (b && c)
    | "max", [.bool c] => yes (b || c)
    | _, _ => none
  | _ => none

def freeFunction (name : String) (args : List Datum) : Option Reply :=
  match name, args with
  | "PI", [] => real (Double.ofFloat 3.141592653589793)
  | "E", [] => real (Double.ofFloat 2.718281828459045)
  | "blob", [] => some (.value (.blob []))
  | "blob", [.int n] => some (.value (.blob (List.replicate n.toNat 0)))
  | "blob", [.int n, .int x] => some (.value (.blob (List.replicate n.toNat (byteOf x))))
  | "range", [.int a, .int b] => some (.value (.range false a b))
  | "range", [.int a, .int b, .int step] =>
    if step = 0 then some (.trouble (.arithmetic "step value cannot be zero"))
    else
      let n := if 0 < step then ((b - a + step - 1) / step).toNat else ((a - b - step - 1) / -step).toNat
      if 10000 < n then some (.trouble .exhausted)
      else some (.value (.list ((List.range n).map fun (i : Nat) => Datum.int (a + step * (i : Int)))))
  | "print", [] => some (.value .unit)
  | _, _ => none

/-- The breakdown of a call. No function but `clamp` has one. -/
def breakdown? (name : String) (args : List Datum) : Option Breakdown :=
  match name, args with
  | "clamp", [.float value, .float low, .float high] =>
    if h : low.lessEq high = false then some ⟨value, low, high, h⟩ else none
  | _, _ => none

/-- Calls a function on values that hold no cells; `none` if there is no such function. -/
def call (setting : Setting) (name : String) (args : List Datum) :
    Except Breakdown (Option Reply) :=
  match breakdown? name args with
  | some b => .error b
  | none =>
    .ok <| (hostFunction setting name args).or <| (freeFunction name args).or <|
      match args with
      | [] => none
      | d :: rest => (typedFunction name d rest).or (anyFunction name d rest)

/-- The names whose calls as a property give the value. -/
def properties : List String :=
  ["len", "is_empty", "bytes", "chars", "is_odd", "is_even", "is_zero", "start", "end",
    "is_inclusive", "is_exclusive", "is_nan", "is_finite", "is_infinite", "int", "fraction",
    "floor", "ceiling", "round", "name", "is_anonymous"]

end Library

end Conduit.Script
