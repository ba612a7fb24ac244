import Conduit.Script.Datum

/-!
# Trees of the script language

A script is a list of statements and the functions it defines. Blocks, branches and loops are
expressions too: their value is that of the last statement they ran.
-/

namespace Conduit.Script

mutual

inductive Expr
  | literal (d : Datum)
  | template (parts : List Expr)
  | list (items : List Expr)
  | record (fields : List (String × Expr))
  | var (name : String)
  | self
  | call (name : String) (args : List Expr)
  | unary (op : String) (e : Expr)
  | binary (op : String) (left right : Expr)
  | and (left right : Expr)
  | or (left right : Expr)
  | orElse (left right : Expr)
  | chain (root : Expr) (links : List Link)
  | statement (s : Stmt)
  /-- A function value, with the variables it captures. -/
  | closure (name : String) (captured : List String)

/-- A step into a value. A safe step from the unit value ends the chain there. -/
inductive Link
  | index (e : Expr) (safe : Bool)
  | prop (name : String) (safe : Bool)
  | method (name : String) (args : List Expr) (safe : Bool)

inductive Stmt
  | expr (e : Expr)
  | define (name : String) (fixed : Bool) (value : Option Expr)
  | assign (target : Expr) (op : Option String) (value : Expr)
  | block (body : List Stmt)
  | branch (cond : Expr) (yes no : List Stmt)
  | choose (subject : Expr) (cases : List Case)
  | loop (cond : Option Expr) (body : List Stmt)
  /-- Runs the body first and goes on as long as the condition is `goOn`. -/
  | doLoop (body : List Stmt) (cond : Expr) (goOn : Bool)
  | iterate (item : String) (counter : Option String) (source : Expr) (body : List Stmt)
  | leave (value : Option Expr)
  | next
  | giveBack (value : Option Expr)
  | raise (value : Option Expr)
  | attempt (body : List Stmt) (name : Option String) (handler : List Stmt)
  | nothing

/-- A case of a choice. Without patterns it takes any value. -/
inductive Case
  | mk (patterns : List Datum) (guard : Option Expr) (body : Expr)

end

instance : Inhabited Expr := ⟨.self⟩
instance : Inhabited Stmt := ⟨.nothing⟩

structure Function where
  name : String
  params : List String
  body : List Stmt
deriving Inhabited

structure Program where
  body : List Stmt
  functions : List Function
deriving Inhabited

namespace Program

/-- The function of a name that takes so many arguments. -/
def function? (p : Program) (name : String) (arity : Nat) : Option Function :=
  p.functions.find? fun f => f.name == name && f.params.length == arity

/-- Whether some function has the name. -/
def defines (p : Program) (name : String) : Bool := p.functions.any (·.name == name)

end Program

end Conduit.Script
