import Conduit.Script.Tree

/-!
# Operators of the script language

Whole numbers are checked: a result outside the range is an error. A floating-point operand makes
the operation one on floating-point numbers.
-/

namespace Conduit.Script

/-- Why a script stopped. -/
inductive Trouble
  /-- Thrown by the script. -/
  | raised (d : Datum)
  /-- An error that a script can catch. -/
  | fault (kind problem : String)
  /-- A limit was reached; this cannot be caught. -/
  | exhausted
deriving Inhabited

namespace Trouble

def arithmetic (problem : String) : Trouble := .fault "ErrorArithmetic" problem

def noFunction (name : String) (args : List Datum) : Trouble :=
  .fault "ErrorFunctionNotFound" ("Function not found: " ++ name ++ " (" ++
    ", ".intercalate (args.map fun
      | .text _ => "&str | ImmutableString | String"
      | d => d.typeName) ++ ")")

def noVariable (name : String) : Trouble :=
  .fault "ErrorVariableNotFound" ("Variable not found: " ++ name)

def noProperty (name : String) (d : Datum) : Trouble :=
  .fault "ErrorDotExpr" ("Unknown property '" ++ name ++ "' - a getter is not registered for type '"
    ++ d.typeName ++ "'")

def noIndex (index : Int) : Trouble :=
  .fault "ErrorArrayBounds" ("Index " ++ Datum.intText index ++ " out of bounds")

def badIndexing (d : Datum) : Trouble :=
  .fault "ErrorIndexingType" ("Indexer not registered: " ++ d.typeName)

def mismatch (expected : String) (d : Datum) : Trouble :=
  .fault "ErrorMismatchDataType" ("Data type incorrect: " ++ d.typeName ++ " (expecting " ++
    expected ++ ")")

def fixed (name : String) : Trouble :=
  .fault "ErrorAssignmentToConstant" ("Cannot modify constant: " ++ name)

end Trouble

abbrev Answer := Except Trouble

/-- A whole number, if it is in range. -/
def checked (problem : String) (n : Int) : Answer Datum :=
  if inRange n then .ok (.int n) else .error (.arithmetic problem)

/-- Whole powers by repeated squaring, given up once out of range. -/
def powerInt (base : Int) : (fuel : Nat) → Nat → Option Int
  | _, 0 => some 1
  | 0, _ => none
  | fuel + 1, n =>
    match powerInt base fuel (n / 2) with
    | none => none
    | some half =>
      let r := if n % 2 = 0 then half * half else half * half * base
      if inRange r then some r else none

def toWord (n : Int) : UInt64 := UInt64.ofInt n

def ofWord (w : UInt64) : Int := if w.toNat < 0x8000000000000000 then w.toNat else (w.toNat : Int) - 0x10000000000000000

def shiftLeft (x : Int) (y : Int) : Int :=
  if 0 ≤ y then if 64 ≤ y then 0 else ofWord (toWord x <<< UInt64.ofNat y.toNat)
  else if y ≤ -64 then if x < 0 then -1 else 0 else Int.fdiv x (Nat.pow 2 y.natAbs : Nat)

def shiftRight (x : Int) (y : Int) : Int :=
  if 0 ≤ y then if 64 ≤ y then if x < 0 then -1 else 0 else Int.fdiv x (Nat.pow 2 y.toNat : Nat)
  else if y ≤ -64 then 0 else ofWord (toWord x <<< UInt64.ofNat y.natAbs)

def intOp (op : String) (a b : Int) : Option (Answer Datum) :=
  match op with
  | "+" => some (checked "Addition overflow" (a + b))
  | "-" => some (checked "Subtraction overflow" (a - b))
  | "*" => some (checked "Multiplication overflow" (a * b))
  | "/" => some (if b = 0 then .error (.arithmetic "Division by zero")
      else checked "Division overflow" (Int.tdiv a b))
  | "%" => some (if b = 0 then .error (.arithmetic "Modulo division by zero")
      else if a = -0x8000000000000000 ∧ b = -1 then .error (.arithmetic "Modulo division overflow")
      else .ok (.int (Int.tmod a b)))
  | "**" => some (
      if b < 0 then .error (.arithmetic "Integer raised to a negative power")
      else if 0x100000000 ≤ b then .error (.arithmetic "Exponential overflow")
      else match powerInt a 40 b.toNat with
        | some n => .ok (.int n)
        | none => .error (.arithmetic "Exponential overflow"))
  | "<<" => some (.ok (.int (shiftLeft a b)))
  | ">>" => some (.ok (.int (shiftRight a b)))
  | "&" => some (.ok (.int (ofWord (toWord a &&& toWord b))))
  | "|" => some (.ok (.int (ofWord (toWord a ||| toWord b))))
  | "^" => some (.ok (.int (ofWord (toWord a ^^^ toWord b))))
  | "==" => some (.ok (.bool (a == b)))
  | "!=" => some (.ok (.bool (a != b)))
  | "<" => some (.ok (.bool (decide (a < b))))
  | "<=" => some (.ok (.bool (decide (a ≤ b))))
  | ">" => some (.ok (.bool (decide (b < a))))
  | ">=" => some (.ok (.bool (decide (b ≤ a))))
  | ".." => some (.ok (.range false a b))
  | "..=" => some (.ok (.range true a b))
  | _ => none

def floatOp (op : String) (a b : Double) : Option (Answer Datum) :=
  match op with
  | "+" => some (.ok (.float (a + b)))
  | "-" => some (.ok (.float (a - b)))
  | "*" => some (.ok (.float (a * b)))
  | "/" => some (.ok (.float (a / b)))
  | "%" => some (.ok (.float (Double.rem a b)))
  | "**" => some (.ok (.float (Double.ofFloat (a.toFloat.pow b.toFloat))))
  | "==" => some (.ok (.bool (a.equal b)))
  | "!=" => some (.ok (.bool (!a.equal b)))
  | "<" => some (.ok (.bool (a.less b)))
  | "<=" => some (.ok (.bool (a.lessEq b)))
  | ">" => some (.ok (.bool (b.less a)))
  | ">=" => some (.ok (.bool (b.lessEq a)))
  | _ => none

def boolOp (op : String) (a b : Bool) : Option (Answer Datum) :=
  match op with
  | "&" => some (.ok (.bool (a && b)))
  | "|" => some (.ok (.bool (a || b)))
  | "^" => some (.ok (.bool (a != b)))
  | "==" => some (.ok (.bool (a == b)))
  | "!=" => some (.ok (.bool (a != b)))
  | "<" => some (.ok (.bool (!a && b)))
  | "<=" => some (.ok (.bool (!a || b)))
  | ">" => some (.ok (.bool (a && !b)))
  | ">=" => some (.ok (.bool (a || !b)))
  | _ => none

/-- A list without the runs equal to `needle`. -/
def removeRuns (needle : List Char) : (fuel : Nat) → List Char → List Char
  | 0, cs => cs
  | _ + 1, [] => []
  | fuel + 1, c :: rest =>
    if !needle.isEmpty && needle.isPrefixOf (c :: rest) then
      removeRuns needle fuel ((c :: rest).drop needle.length)
    else c :: removeRuns needle fuel rest

def removeText (s needle : String) : String :=
  String.ofList (removeRuns needle.toList (s.length + 1) s.toList)

def textOp (op : String) (a b : String) : Option (Answer Datum) :=
  match op with
  | "+" => some (.ok (.text (a ++ b)))
  | "-" => some (.ok (.text (removeText a b)))
  | "==" => some (.ok (.bool (a == b)))
  | "!=" => some (.ok (.bool (a != b)))
  | "<" => some (.ok (.bool (decide (a < b))))
  | "<=" => some (.ok (.bool (!decide (b < a))))
  | ">" => some (.ok (.bool (decide (b < a))))
  | ">=" => some (.ok (.bool (!decide (a < b))))
  | _ => none

mutual

/-- Whether two values are equal; `none` if their type has no equality. -/
def Datum.equal : Datum → Datum → Option Bool
  | .unit, .unit => some true
  | .bool a, .bool b => some (a == b)
  | .int a, .int b => some (a == b)
  | .float a, .float b => some (a.equal b)
  | .int a, .float b => some ((Double.ofInt a).equal b)
  | .float a, .int b => some (a.equal (Double.ofInt b))
  | .char a, .char b => some (a == b)
  | .text a, .text b => some (a == b)
  | .char a, .text b => some (String.singleton a == b)
  | .text a, .char b => some (a == String.singleton b)
  | .blob a, .blob b => some (a == b)
  | .range i a b, .range j c d => some (i == j && a == c && b == d)
  | .list as, .list bs => equalItems as bs
  | .record as, .record bs => equalFields as bs
  | .function .., .function .. => none
  | _, _ => some false

def equalItems : List Datum → List Datum → Option Bool
  | [], [] => some true
  | a :: as, b :: bs =>
    match Datum.equal a b with
    | some true => equalItems as bs
    | r => r
  | _, _ => some false

def equalFields : Fields → Fields → Option Bool
  | [], [] => some true
  | (k, a) :: as, (l, b) :: bs =>
    if k = l then
      match Datum.equal a b with
      | some true => equalFields as bs
      | r => r
    else some false
  | _, _ => some false

end

def isOrder (op : String) : Bool := op == "<" || op == "<=" || op == ">" || op == ">="

/-- What an operator gives for two values that hold no cells. -/
def binaryOp (op : String) (a b : Datum) : Answer Datum :=
  let missing : Answer Datum := .error (.noFunction op [a, b])
  let other : Option (Answer Datum) :=
    if op = "==" then (Datum.equal a b).map fun r => .ok (.bool r)
    else if op = "!=" then (Datum.equal a b).map fun r => .ok (.bool (!r))
    else if isOrder op && (a.typeName != b.typeName || a.typeName == "()") then
      some (.ok (.bool false))
    else none
  let found := match a, b with
    | .int x, .int y => intOp op x y
    | .float x, .float y => floatOp op x y
    | .int x, .float y => floatOp op (Double.ofInt x) y
    | .float x, .int y => floatOp op x (Double.ofInt y)
    | .bool x, .bool y => boolOp op x y
    | .text x, .text y => textOp op x y
    | .text x, .char y => textOp op x (String.singleton y)
    | .char x, .text y => textOp op (String.singleton x) y
    | .char x, .char y =>
      if op = "-" then none else textOp op (String.singleton x) (String.singleton y)
    | .list x, .list y => if op = "+" then some (.ok (.list (x ++ y))) else other
    | .record x, .record y => if op = "+" then some (.ok (.record (Fields.union x y))) else other
    | .blob x, .blob y => if op = "+" then some (.ok (.blob (x ++ y))) else other
    | .blob x, .char y =>
      if op = "+" then some (.ok (.blob (x ++ Utf8.encodeChars [y]))) else other
    | .blob x, .text y => if op = "+" then some (.ok (.blob (x ++ Utf8.encode y))) else other
    | .text x, .blob y =>
      if op = "+" then some (.ok (.text (x ++ Utf8.decodeLossy y))) else other
    | .text x, y => if op = "+" then some (.ok (.text (x ++ y.display))) else other
    | x, .text y => if op = "+" then some (.ok (.text (x.display ++ y))) else other
    | _, _ => other
  found.getD missing

/-- What an assignment with an operator leaves in its target. -/
def assignOp (op : String) (a b : Datum) : Answer Datum :=
  match op, a, b with
  | "+", .list x, .list y => .ok (.list (x ++ y))
  | "+", .list x, y => .ok (.list (x ++ [y]))
  | "+", .blob x, .int n => .ok (.blob (x ++ [UInt8.ofNat (n % 256).toNat]))
  | _, _, _ => binaryOp op a b

def unaryOp (op : String) (a : Datum) : Answer Datum :=
  match op, a with
  | "-", .int n => checked "Negation overflow" (-n)
  | "-", .float d => .ok (.float (-d))
  | "+", .int n => .ok (.int n)
  | "+", .float d => .ok (.float d)
  | "!", .bool b => .ok (.bool (!b))
  | _, _ => .error (.noFunction op [a])

end Conduit.Script
