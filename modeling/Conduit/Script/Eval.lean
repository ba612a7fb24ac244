import Conduit.Script.Library

/-!
# Running scripts

The machine of a script has the variables in scope, the cells of captured variables, and a count of
the operations made so far. Running ends with a value, or with a signal: trouble, or one of the
jumps that a loop or a function answers. The limits on operations, call depth and sizes keep every
run finite; the fuel of the functions below only says so to Lean.
-/

namespace Conduit.Script

structure Limits where
  operations : Nat := 100000
  calls : Nat := 32
  textSize : Nat := 1048576
  listSize : Nat := 10000
  recordSize : Nat := 10000

def limits : Limits := {}

structure Binding where
  name : String
  value : Datum
  fixed : Bool := false
deriving Inhabited

structure Machine where
  /-- The variables in scope, the latest first. -/
  scope : List Binding
  cells : Array Datum := #[]
  operations : Nat := 0
  depth : Nat := 0
  self : Option Datum := none
deriving Inhabited

inductive Signal
  | trouble (t : Trouble)
  /-- The host broke down; no handler of the script sees it. -/
  | brokeDown (b : Breakdown)
  | leave (d : Datum)
  | next
  | giveBack (d : Datum)

abbrev Eval := EStateM Signal Machine

/-- What a run does not change. -/
structure Frame where
  program : Program
  setting : Library.Setting

/-- A link of a chain whose arguments are known. -/
inductive Step
  | index (i : Datum) (safe : Bool)
  | prop (name : String) (safe : Bool)
  | method (name : String) (args : List Datum) (safe : Bool)

namespace Eval

def fail (t : Trouble) : Eval α := throw (.trouble t)

def tick : Eval Unit := do
  let m ← get
  if limits.operations ≤ m.operations then fail .exhausted
  else set { m with operations := m.operations + 1 }

/-- What a cell holds. Cells hold no cells. -/
def readCell (id : Nat) : Eval Datum := return (← get).cells.getD id .unit

def writeCell (id : Nat) (d : Datum) : Eval Unit :=
  modify fun m => { m with cells := m.cells.setIfInBounds id d }

/-- The value itself, out of its cell. -/
def flat (d : Datum) : Eval Datum :=
  match d with
  | .cell id => readCell id
  | d => return d

/-- Refuses a value that is larger than the limits allow. -/
def checkSize (d : Datum) : Eval Datum := do
  match d with
  | .text s => if limits.textSize < s.utf8ByteSize then fail .exhausted else return d
  | .list _ | .record _ | .blob _ =>
    let (items, fields, bytes) := d.sizes
    if limits.listSize < items ∨ limits.recordSize < fields ∨ limits.textSize < bytes then
      fail .exhausted
    else return d
  | d => return d

def ofAnswer (a : Answer Datum) : Eval Datum :=
  match a with
  | .ok d => checkSize d
  | .error t => fail t

/-! ## Variables -/

def define (name : String) (value : Datum) (fixed : Bool) : Eval Unit :=
  modify fun m => { m with scope := ⟨name, value, fixed⟩ :: m.scope }

def find? (name : String) : Eval (Option Binding) :=
  return (← get).scope.find? (·.name == name)

/-- Gives the latest variable of a name a new value. -/
def setIn (name : String) (d : Datum) : List Binding → List Binding
  | [] => []
  | b :: rest => if b.name = name then { b with value := d } :: rest else b :: setIn name d rest

def store (name : String) (d : Datum) : Eval Unit :=
  modify fun m => { m with scope := setIn name d m.scope }

/-- Runs something and forgets the variables it defined. -/
def inBlock (e : Eval α) : Eval α := fun m =>
  let size := m.scope.length
  let restore := fun (m : Machine) => { m with scope := m.scope.drop (m.scope.length - size) }
  match e m with
  | .ok a m => .ok a (restore m)
  | .error s m => .error s (restore m)

/-- Moves a variable into a cell, where closures can share it. -/
def share (name : String) : Eval Datum := do
  match ← find? name with
  | none => fail (.noVariable name)
  | some b =>
    match b.value with
    | .cell id => return .cell id
    | d =>
      let id := (← get).cells.size
      modify fun m => { m with cells := m.cells.push d }
      store name (.cell id)
      return .cell id

def asBool (d : Datum) : Eval Bool := do
  match ← flat d with
  | .bool b => return b
  | d => fail (.mismatch "bool" d)

/-! ## Parts of values -/

/-- The value at an index. -/
def indexed (d i : Datum) : Answer Datum :=
  match d, i with
  | .list l, .int n =>
    match (Library.place? l.length n).bind (l[·]?) with
    | some e => .ok e
    | none => .error (.noIndex n)
  | .blob b, .int n =>
    match (Library.place? b.length n).bind (b[·]?) with
    | some x => .ok (.int x.toNat)
    | none => .error (.noIndex n)
  | .text s, .int n =>
    let cs := s.toList
    match (Library.place? cs.length n).bind (cs[·]?) with
    | some c => .ok (.char c)
    | none => .error (.noIndex n)
  | .text s, .range inclusive a b =>
    let cs := s.toList
    .ok (.text (String.ofList (Library.slice cs (Library.rangePart cs.length inclusive a b))))
  | .record fields, .text key => .ok ((fields.lookup key).getD .unit)
  | .int n, .int k =>
    if -64 ≤ k ∧ k < 64 then
      .ok (.bool ((toWord n >>> UInt64.ofNat (k % 64).toNat) % 2 == 1))
    else .error (.noIndex k)
  | d, _ => .error (.badIndexing d)

/-- The value with another one at an index. -/
def replaced (d i new : Datum) : Answer Datum :=
  match d, i, new with
  | .list l, .int n, e =>
    match Library.place? l.length n with
    | some k => .ok (.list (l.set k e))
    | none => .error (.noIndex n)
  | .blob b, .int n, .int x =>
    match Library.place? b.length n with
    | some k => .ok (.blob (b.set k (Library.byteOf x)))
    | none => .error (.noIndex n)
  | .text s, .int n, .char c =>
    match Library.place? s.toList.length n with
    | some k => .ok (.text (String.ofList (s.toList.set k c)))
    | none => .error (.noIndex n)
  | .record fields, .text key, e => .ok (.record (Fields.insert key e fields))
  | .int n, .int k, .bool b =>
    if -64 ≤ k ∧ k < 64 then
      let bit := (1 : UInt64) <<< UInt64.ofNat (k % 64).toNat
      .ok (.int (ofWord (if b then toWord n ||| bit else toWord n &&& (bit ^^^ 0xffffffffffffffff))))
    else .error (.noIndex k)
  | d, _, _ => .error (.badIndexing d)

/-- Whether a pattern of a choice takes a value. -/
def matchesLiteral (pattern d : Datum) : Bool :=
  pattern.typeName == d.typeName && Library.alike pattern d

def matchesRange (pattern d : Datum) : Bool :=
  match pattern, d with
  | .range inclusive a b, .int n => a ≤ n && (if inclusive then n ≤ b else n < b)
  | _, _ => false

/-- What the handler of an error learns about it. -/
def errorRecord (t : Trouble) : Datum :=
  match t with
  | .raised d => d
  | .fault kind problem => .record [("error", .text kind), ("message", .text problem)]
  | _ => .unit

/-- The value of a call to the library and, if the call changed it, the new first argument. -/
def library (f : Frame) (name : String) (args : List Datum) : Eval (Datum × Option Datum) := do
  match Library.call f.setting name args with
  | .ok (some (.value d)) => return (← checkSize d, none)
  | .ok (some (.update first d)) => return (d, some (← checkSize first))
  | .ok (some (.trouble t)) => fail t
  | .ok none => fail (.noFunction name args)
  | .error b => throw (.brokeDown b)

mutual

def expr (f : Frame) : (fuel : Nat) → Expr → Eval Datum
  | 0, _ => fail .exhausted
  | fuel + 1, e => do
    tick
    match e with
    | .literal d => return d
    | .template parts =>
      let ds ← exprs f fuel parts
      checkSize (.text (String.join (ds.map Datum.display)))
    | .list items => checkSize (.list (← exprs f fuel items))
    | .record fields =>
      let ds ← exprs f fuel (fields.map (·.2))
      checkSize (.record (Fields.ofList ((fields.map (·.1)).zip ds)))
    | .var name =>
      match ← find? name with
      | some b => flat b.value
      | none =>
        if f.program.defines name then return .function name [] else fail (.noVariable name)
    | .self =>
      match (← get).self with
      | some d => flat d
      | none => fail (.fault "ErrorUnboundThis" "'this' not bound")
    | .call name args => callExpr f fuel name args
    | .unary op e => ofAnswer (unaryOp op (← expr f fuel e))
    | .binary op l r =>
      let a ← expr f fuel l
      let b ← expr f fuel r
      ofAnswer (binaryOp op a b)
    | .and l r =>
      if ← asBool (← expr f fuel l) then return .bool (← asBool (← expr f fuel r))
      else return .bool false
    | .or l r =>
      if ← asBool (← expr f fuel l) then return .bool true
      else return .bool (← asBool (← expr f fuel r))
    | .orElse l r =>
      match ← expr f fuel l with
      | .unit => expr f fuel r
      | d => return d
    | .chain root links =>
      let steps ← linkSteps f fuel links
      access f fuel root steps none
    | .statement s => inBlock (stmt f fuel s)
    | .closure name captured => return .function name (← captured.mapM share)

def exprs (f : Frame) : (fuel : Nat) → List Expr → Eval (List Datum)
  | 0, _ => fail .exhausted
  | _ + 1, [] => return []
  | fuel + 1, e :: rest => do
    let d ← expr f fuel e
    let ds ← exprs f fuel rest
    return d :: ds

def linkSteps (f : Frame) : (fuel : Nat) → List Link → Eval (List Step)
  | 0, _ => fail .exhausted
  | _ + 1, [] => return []
  | fuel + 1, l :: rest => do
    let s ← match l with
      | .index e safe => do pure (Step.index (← expr f fuel e) safe)
      | .prop name safe => pure (.prop name safe)
      | .method name args safe => do pure (.method name (← exprs f fuel args) safe)
    return s :: (← linkSteps f fuel rest)

/-- Follows a chain from its root. With `new`, the last step is given a value, alone or by an
operator; the changes on the way go back into the root. -/
def access (f : Frame) : (fuel : Nat) → Expr → List Step → Option (Option String × Datum) →
    Eval Datum
  | 0, _, _, _ => fail .exhausted
  | fuel + 1, root, steps, new => do
    match root with
    | .var name =>
      match ← find? name with
      | none =>
        if f.program.defines name && new.isNone then
          return (← walk f fuel (.function name []) steps new).1
        else fail (.noVariable name)
      | some b =>
        if b.fixed && new.isSome then fail (.fixed name)
        let (d, root') ← walk f fuel b.value steps new
        unless b.fixed do store name root'
        return d
    | .self =>
      match (← get).self with
      | none => fail (.fault "ErrorUnboundThis" "'this' not bound")
      | some d =>
        let (r, d') ← walk f fuel d steps new
        modify fun m => { m with self := some d' }
        return r
    | e =>
      let d ← expr f fuel e
      return (← walk f fuel d steps new).1

/-- Walks along the steps: the value at their end, and the start as the walk leaves it. -/
def walk (f : Frame) : (fuel : Nat) → Datum → List Step → Option (Option String × Datum) →
    Eval (Datum × Datum)
  | 0, _, _, _ => fail .exhausted
  | fuel + 1, .cell id, steps, new => do
    let d ← readCell id
    let (r, d') ← walk f fuel d steps new
    writeCell id d'
    return (r, .cell id)
  | _ + 1, d, [], none => return (d, d)
  | _ + 1, _, [], some (none, new) => return (.unit, new)
  | _ + 1, d, [], some (some op, new) => do
    return (.unit, ← ofAnswer (assignOp op d new))
  | fuel + 1, d, .index i safe :: rest, new => do
    match d with
    | .unit => if safe then return (.unit, d) else fail (.badIndexing d)
    | d =>
      match rest, new with
      | [], some (none, e) => return (.unit, ← ofAnswer (replaced d i e))
      | rest, new =>
        let child ← ofAnswer (indexed d i)
        let (r, child') ← walk f fuel child rest new
        match rest, new with
        | [], none => return (r, d)
        | _, _ =>
          match replaced d i child' with
          | .ok d' => return (r, ← checkSize d')
          | .error t => if new.isSome then fail t else return (r, d)
  | fuel + 1, d, .prop name safe :: rest, new => do
    match d with
    | .unit => if safe then return (.unit, d) else fail (.noProperty name d)
    | .record fields =>
      match fields.lookup name with
      | some child =>
        let (r, child') ← walk f fuel child rest new
        match rest, new with
        | [], none => return (r, d)
        | _, _ => return (r, ← checkSize (.record (Fields.insert name child' fields)))
      | none =>
        match rest, new with
        | [], some (none, e) =>
          return (.unit, ← checkSize (.record (Fields.insert name e fields)))
        | rest, new =>
          let (r, child') ← walk f fuel .unit rest new
          match rest, new with
          | [], some _ => return (r, .record (Fields.insert name child' fields))
          | _, _ => return (r, d)
    | d =>
      match rest, new with
      | [], some _ => fail (.noProperty name d)
      | rest, new =>
        if Library.properties.contains name then
          let (child, _) ← callMethod f fuel d name []
          let (r, _) ← walk f fuel child rest new
          return (r, d)
        else fail (.noProperty name d)
  | fuel + 1, d, .method name args safe :: rest, new => do
    if safe then
      if let .unit := d then return (.unit, d)
    let (child, d') ← callMethod f fuel d name args
    let (r, _) ← walk f fuel child rest new
    return (r, d')

/-- Calls a method: its value, and the object as the call leaves it. -/
def callMethod (f : Frame) : (fuel : Nat) → Datum → String → List Datum → Eval (Datum × Datum)
  | 0, _, _, _ => fail .exhausted
  | fuel + 1, d, name, args => do
    tick
    match d, name with
    | .function fn curried, "call" => return (← callValue f fuel fn curried args none, d)
    | .function fn curried, "curry" => return (.function fn (curried ++ args), d)
    | .function fn _, "name" => return (.text fn, d)
    | .function fn _, "is_anonymous" => return (.bool (fn.startsWith "anon$"), d)
    | .record fields, _ =>
      match fields.lookup name with
      | some (.function fn curried) => callBound f fuel fn curried args d
      | _ => plainMethod f fuel d name args
    | _, _ => plainMethod f fuel d name args

def plainMethod (f : Frame) : (fuel : Nat) → Datum → String → List Datum → Eval (Datum × Datum)
  | 0, _, _, _ => fail .exhausted
  | fuel + 1, d, name, args => do
    match f.program.function? name args.length with
    | some fn =>
      let (r, self) ← runFunction f fuel fn args (some d)
      return (r, self.getD d)
    | none =>
      match d, args with
      | .list l, .function fn curried :: rest => listMethod f fuel name l fn curried rest
      | .list l, [.list l', .function fn curried] =>
        if name == "zip" then
          let r ← zipWith f fuel fn curried l l'
          return (.list r, d)
        else fail (.noFunction name (d :: args))
      | .record fields, [.function fn curried] =>
        recordMethod f fuel name fields fn curried
      | d, args =>
        let args ← args.mapM flat
        let (r, first) ← library f name (d :: args)
        return (r, first.getD d)

/-- Calls a function by name, in the manner of `name(args)`. -/
def callExpr (f : Frame) : (fuel : Nat) → String → List Expr → Eval Datum
  | 0, _, _ => fail .exhausted
  | fuel + 1, name, args => do
    let ds ← exprs f fuel args
    match f.program.function? name ds.length with
    | some fn => return (← runFunction f fuel fn ds none).1
    | none =>
      match name, ds with
      | "call", .function fn curried :: rest => callValue f fuel fn curried rest none
      | "curry", .function fn curried :: rest => return .function fn (curried ++ rest)
      | "Fn", [.text fn] => return .function fn []
      | "is_def_fn", [.text fn, .int n] => return .bool (f.program.function? fn n.toNat).isSome
      | "is_def_var", [.text v] => return .bool (← find? v).isSome
      | "is_shared", [_] =>
        match args with
        | [.var v] =>
          match ← find? v with
          | some ⟨_, .cell _, _⟩ => return .bool true
          | _ => return .bool false
        | _ => return .bool false
      | name, .list l :: .function fn curried :: rest =>
        return (← listMethod f fuel name l fn curried rest).1
      | name, ds =>
        let (r, first) ← library f name ds
        match first, args with
        | some d, .var v :: _ =>
          match ← find? v with
          | some b =>
            if b.fixed then fail (.fixed v)
            match b.value with
            | .cell id => writeCell id d
            | _ => store v d
          | none => pure ()
        | _, _ => pure ()
        return r

/-- Calls a function value. -/
def callValue (f : Frame) : (fuel : Nat) → String → List Datum → List Datum → Option Datum →
    Eval Datum
  | 0, _, _, _, _ => fail .exhausted
  | fuel + 1, name, curried, args, self => do
    let all := curried ++ args
    match f.program.function? name all.length with
    | some fn => return (← runFunction f fuel fn all self).1
    | none =>
      let all ← all.mapM flat
      return (← library f name (self.toList ++ all)).1

/-- Calls a function value with an object bound to `this`. -/
def callBound (f : Frame) : (fuel : Nat) → String → List Datum → List Datum → Datum →
    Eval (Datum × Datum)
  | 0, _, _, _, _ => fail .exhausted
  | fuel + 1, name, curried, args, d => do
    let all := curried ++ args
    match f.program.function? name all.length with
    | some fn =>
      let (r, self) ← runFunction f fuel fn all (some d)
      return (r, self.getD d)
    | none =>
      let all ← all.mapM flat
      let (r, first) ← library f name (d :: all)
      return (r, first.getD d)

/-- Calls back with an item, and its place if the function takes two arguments. A function without
parameters finds the item in `this`. The item as the call leaves it comes back too. -/
def callBack (f : Frame) : (fuel : Nat) → String → List Datum → List Datum → Nat →
    Eval (Datum × Option Datum)
  | 0, _, _, _, _ => fail .exhausted
  | fuel + 1, name, curried, items, place => do
    let n := curried.length
    match f.program.function? name (n + items.length) with
    | some fn => return ((← runFunction f fuel fn (curried ++ items) none).1, none)
    | none =>
      match f.program.function? name (n + items.length + 1) with
      | some fn =>
        return ((← runFunction f fuel fn (curried ++ items ++ [.int place]) none).1, none)
      | none =>
        match f.program.function? name (n + items.length - 1), items with
        | some fn, d :: rest => runFunction f fuel fn (curried ++ rest) (some d)
        | _, _ =>
          let all ← (curried ++ items).mapM flat
          return ((← library f name all).1, none)

/-- Runs a function on its arguments: its value, and `this` as it leaves it. -/
def runFunction (f : Frame) : (fuel : Nat) → Function → List Datum → Option Datum →
    Eval (Datum × Option Datum)
  | 0, _, _, _ => fail .exhausted
  | fuel + 1, fn, args, self => do
    tick
    let outer ← get
    if limits.calls ≤ outer.depth then fail .exhausted
    let scope := (fn.params.zip args).reverse.map fun (name, value) => { name, value : Binding }
    set { outer with scope, self, depth := outer.depth + 1 }
    let restore := modify fun m =>
      { m with scope := outer.scope, self := outer.self, depth := outer.depth }
    try
      let d ← body f fuel fn.body .unit
      let d ← flat d
      let self := (← get).self
      restore
      return (d, self)
    catch
      | .giveBack d =>
        let d ← flat d
        let self := (← get).self
        restore
        return (d, self)
      | s =>
        restore
        throw s

-- Callbacks over lists and records.

def mapItems (f : Frame) : (fuel : Nat) → String → List Datum → Nat → List Datum →
    Eval (List Datum)
  | 0, _, _, _, _ => fail .exhausted
  | _ + 1, _, _, _, [] => return []
  | fuel + 1, fn, curried, i, d :: rest => do
    let (r, _) ← callBack f fuel fn curried [d] i
    let rs ← mapItems f fuel fn curried (i + 1) rest
    return r :: rs

/-- Runs the callback for its effects; it may change the items through `this`. -/
def eachItem (f : Frame) : (fuel : Nat) → String → List Datum → Nat → List Datum →
    Eval (List Datum)
  | 0, _, _, _, _ => fail .exhausted
  | _ + 1, _, _, _, [] => return []
  | fuel + 1, fn, curried, i, d :: rest => do
    let (_, self) ← callBack f fuel fn curried [d] i
    let rs ← eachItem f fuel fn curried (i + 1) rest
    return self.getD d :: rs

/-- The items that the callback holds for, and the others. -/
def partItems (f : Frame) : (fuel : Nat) → String → List Datum → Nat → List Datum →
    Eval (List Datum × List Datum)
  | 0, _, _, _, _ => fail .exhausted
  | _ + 1, _, _, _, [] => return ([], [])
  | fuel + 1, fn, curried, i, d :: rest => do
    let (r, _) ← callBack f fuel fn curried [d] i
    let (yes, no) ← partItems f fuel fn curried (i + 1) rest
    match r with
    | .bool true => return (d :: yes, no)
    | _ => return (yes, d :: no)

/-- The first item that the callback holds for, with its place. -/
def findItem (f : Frame) : (fuel : Nat) → String → List Datum → Nat → List Datum →
    Eval (Option (Nat × Datum))
  | 0, _, _, _, _ => fail .exhausted
  | _ + 1, _, _, _, [] => return none
  | fuel + 1, fn, curried, i, d :: rest => do
    let (r, _) ← callBack f fuel fn curried [d] i
    match r with
    | .bool true => return some (i, d)
    | _ => findItem f fuel fn curried (i + 1) rest

/-- The first value of the callback that is not the unit. -/
def findMapped (f : Frame) : (fuel : Nat) → String → List Datum → Nat → List Datum → Eval Datum
  | 0, _, _, _, _ => fail .exhausted
  | _ + 1, _, _, _, [] => return .unit
  | fuel + 1, fn, curried, i, d :: rest => do
    let (r, _) ← callBack f fuel fn curried [d] i
    match r with
    | .unit => findMapped f fuel fn curried (i + 1) rest
    | r => return r

def reduceItems (f : Frame) : (fuel : Nat) → String → List Datum → Nat → Datum → List Datum →
    Eval Datum
  | 0, _, _, _, _, _ => fail .exhausted
  | _ + 1, _, _, _, acc, [] => return acc
  | fuel + 1, fn, curried, i, acc, d :: rest => do
    let (acc, _) ← callBack f fuel fn curried [acc, d] i
    reduceItems f fuel fn curried (i + 1) acc rest

def zipWith (f : Frame) : (fuel : Nat) → String → List Datum → List Datum → List Datum →
    Eval (List Datum)
  | 0, _, _, _, _ => fail .exhausted
  | fuel + 1, fn, curried, a :: as, b :: bs => do
    let r ← callValue f fuel fn curried [a, b] none
    return r :: (← zipWith f fuel fn curried as bs)
  | _ + 1, _, _, _, _ => return []

/-- Puts an item into an ordered list, after all items that the callback does not put after it. -/
def insertSorted (f : Frame) : (fuel : Nat) → String → List Datum → Datum → List Datum →
    Eval (List Datum)
  | 0, _, _, _, _ => fail .exhausted
  | _ + 1, _, _, a, [] => return [a]
  | fuel + 1, fn, curried, a, b :: rest => do
    match ← callValue f fuel fn curried [b, a] none with
    | .int n =>
      if 0 < n then return a :: b :: rest
      else return b :: (← insertSorted f fuel fn curried a rest)
    | _ => return b :: (← insertSorted f fuel fn curried a rest)

def sortItems (f : Frame) : (fuel : Nat) → String → List Datum → List Datum → List Datum →
    Eval (List Datum)
  | 0, _, _, _, _ => fail .exhausted
  | _ + 1, _, _, done, [] => return done
  | fuel + 1, fn, curried, done, a :: rest => do
    let done ← insertSorted f fuel fn curried a done
    sortItems f fuel fn curried done rest

/-- The methods of lists that call back. -/
def listMethod (f : Frame) : (fuel : Nat) → String → List Datum → String → List Datum →
    List Datum → Eval (Datum × Datum)
  | 0, _, _, _, _, _ => fail .exhausted
  | fuel + 1, name, l, fn, curried, rest => do
    let d := Datum.list l
    match name, rest with
    | "map", [] => return (← checkSize (.list (← mapItems f fuel fn curried 0 l)), d)
    | "filter", [] => return (.list (← partItems f fuel fn curried 0 l).1, d)
    | "for_each", [] => return (.unit, .list (← eachItem f fuel fn curried 0 l))
    | "find", [] => return ((← findItem f fuel fn curried 0 l).elim .unit (·.2), d)
    | "find_map", [] => return (← findMapped f fuel fn curried 0 l, d)
    | "index_of", [] => return (.int ((← findItem f fuel fn curried 0 l).elim (-1) (·.1)), d)
    | "some", [] => return (.bool (← findItem f fuel fn curried 0 l).isSome, d)
    | "all", [] => return (.bool (← partItems f fuel fn curried 0 l).2.isEmpty, d)
    | "reduce", [] => return (← reduceItems f fuel fn curried 0 .unit l, d)
    | "reduce", [acc] => return (← reduceItems f fuel fn curried 0 acc l, d)
    | "reduce_rev", [] => return (← reduceItems f fuel fn curried 0 .unit l.reverse, d)
    | "reduce_rev", [acc] => return (← reduceItems f fuel fn curried 0 acc l.reverse, d)
    | "drain", [] =>
      let (yes, no) ← partItems f fuel fn curried 0 l
      return (.list yes, .list no)
    | "retain", [] =>
      let (yes, no) ← partItems f fuel fn curried 0 l
      return (.list no, .list yes)
    | "sort", [] => return (.unit, .list (← sortItems f fuel fn curried [] l))
    | "order", [] | "order_by", [] => return (.list (← sortItems f fuel fn curried [] l), d)
    | "sort_by", [] => return (.unit, .list (← sortItems f fuel fn curried [] l))
    | "push", [] => return (.unit, .list (l ++ [.function fn curried]))
    | name, rest => fail (.noFunction name (d :: .function fn curried :: rest))

def partFields (f : Frame) : (fuel : Nat) → String → List Datum → Fields →
    Eval (Fields × Fields)
  | 0, _, _, _ => fail .exhausted
  | _ + 1, _, _, [] => return ([], [])
  | fuel + 1, fn, curried, (k, d) :: rest => do
    let r ← callValue f fuel fn curried [.text k, d] none
    let (yes, no) ← partFields f fuel fn curried rest
    match r with
    | .bool true => return ((k, d) :: yes, no)
    | _ => return (yes, (k, d) :: no)

/-- The methods of records that call back. -/
def recordMethod (f : Frame) : (fuel : Nat) → String → Fields → String → List Datum →
    Eval (Datum × Datum)
  | 0, _, _, _, _ => fail .exhausted
  | fuel + 1, name, fields, fn, curried => do
    match name with
    | "filter" => return (.record (← partFields f fuel fn curried fields).1, .record fields)
    | "drain" =>
      let (yes, no) ← partFields f fuel fn curried fields
      return (.record yes, .record no)
    | "retain" =>
      let (yes, no) ← partFields f fuel fn curried fields
      return (.record no, .record yes)
    | name => fail (.noFunction name [.record fields, .function fn curried])

-- Statements.

/-- Statements in turn; the value is that of the last one. -/
def body (f : Frame) : (fuel : Nat) → List Stmt → Datum → Eval Datum
  | 0, _, _ => fail .exhausted
  | _ + 1, [], d => return d
  | fuel + 1, s :: rest, _ => do
    let d ← stmt f fuel s
    body f fuel rest d

def block (f : Frame) : (fuel : Nat) → List Stmt → Eval Datum
  | 0, _ => fail .exhausted
  | fuel + 1, stmts => inBlock (body f fuel stmts .unit)

def optional (f : Frame) : (fuel : Nat) → Option Expr → Eval Datum
  | 0, _ => fail .exhausted
  | _ + 1, none => return .unit
  | fuel + 1, some e => expr f fuel e

def stmt (f : Frame) : (fuel : Nat) → Stmt → Eval Datum
  | 0, _ => fail .exhausted
  | fuel + 1, s => do
    tick
    match s with
    | .expr e => expr f fuel e
    | .nothing => return .unit
    | .define name fixed value =>
      let d ← optional f fuel value
      define name d fixed
      return .unit
    | .assign target op value =>
      let d ← expr f fuel value
      match target with
      | .var name =>
        match ← find? name with
        | none => fail (.noVariable name)
        | some b =>
          if b.fixed then fail (.fixed name)
          let d ← match op with
            | none => pure d
            | some op => do ofAnswer (assignOp op (← flat b.value) d)
          match b.value with
          | .cell id => writeCell id d
          | _ => store name d
          return .unit
      | .self =>
        match (← get).self with
        | none => fail (.fault "ErrorUnboundThis" "'this' not bound")
        | some old =>
          let d ← match op with
            | none => pure d
            | some op => do ofAnswer (assignOp op (← flat old) d)
          modify fun m => { m with self := some d }
          return .unit
      | .chain root links =>
        let steps ← linkSteps f fuel links
        discard <| access f fuel root steps (some (op, d))
        return .unit
      | _ => fail (.fault "ErrorRuntime" "")
    | .block b => block f fuel b
    | .branch cond yes no =>
      if ← asBool (← expr f fuel cond) then block f fuel yes else block f fuel no
    | .choose subject cases =>
      let d ← expr f fuel subject
      match ← pickLiteral f fuel d cases with
      | some e => expr f fuel e
      | none =>
        match ← pickRange f fuel d cases with
        | some e => expr f fuel e
        | none =>
          match cases.findSome? fun
            | .mk [] _ e => some e
            | _ => none with
          | some e => expr f fuel e
          | none => return .unit
    | .loop cond b => repeated f fuel cond b
    | .doLoop b cond goOn => doRepeated f fuel b cond goOn
    | .iterate item counter source b =>
      match ← expr f fuel source with
      | .list l => overItems f fuel item counter b 0 l
      | .text s => overItems f fuel item counter b 0 (s.toList.map .char)
      | .blob bytes => overItems f fuel item counter b 0 (bytes.map fun x => .int x.toNat)
      | .range inclusive first last =>
        overRange f fuel item counter b 0 first (if inclusive then last + 1 else last)
      | d => fail (.fault "ErrorFor" ("For loop expects iterable type: " ++ d.typeName))
    | .leave value => throw (.leave (← optional f fuel value))
    | .next => throw .next
    | .giveBack value => throw (.giveBack (← optional f fuel value))
    | .raise value => fail (.raised (← optional f fuel value))
    | .attempt b name handler =>
      try block f fuel b
      catch
        | .trouble (.raised d) => handle f fuel name (.raised d) handler
        | .trouble (.fault kind problem) => handle f fuel name (.fault kind problem) handler
        | s => throw s

/-- Runs the handler of an error. The handler has no value; an error that it raises without a value
is the one it handles. -/
def handle (f : Frame) : (fuel : Nat) → Option String → Trouble → List Stmt → Eval Datum
  | 0, _, _, _ => fail .exhausted
  | fuel + 1, name, t, handler =>
    inBlock do
      match name with
      | some n => define n (errorRecord t) false
      | none => pure ()
      try
        discard <| block f fuel handler
        return .unit
      catch
        | .trouble (.raised .unit) => fail t
        | s => throw s

/-- The first case with a literal pattern for the value and a guard that holds. -/
def pickLiteral (f : Frame) : (fuel : Nat) → Datum → List Case → Eval (Option Expr)
  | 0, _, _ => fail .exhausted
  | _ + 1, _, [] => return none
  | fuel + 1, d, .mk patterns guard e :: rest => do
    if patterns.any (matchesLiteral · d) then
      if ← guardHolds f fuel guard then return some e
    pickLiteral f fuel d rest

/-- The first case with a range for the value and a guard that holds. -/
def pickRange (f : Frame) : (fuel : Nat) → Datum → List Case → Eval (Option Expr)
  | 0, _, _ => fail .exhausted
  | _ + 1, _, [] => return none
  | fuel + 1, d, .mk patterns guard e :: rest => do
    if patterns.any (matchesRange · d) then
      if ← guardHolds f fuel guard then return some e
    pickRange f fuel d rest

def guardHolds (f : Frame) : (fuel : Nat) → Option Expr → Eval Bool
  | 0, _ => fail .exhausted
  | _ + 1, none => return true
  | fuel + 1, some e => do asBool (← expr f fuel e)

/-- A loop with its condition in front, or without one. -/
def repeated (f : Frame) : (fuel : Nat) → Option Expr → List Stmt → Eval Datum
  | 0, _, _ => fail .exhausted
  | fuel + 1, cond, b => do
    tick
    let go ← match cond with
      | none => pure true
      | some e => do asBool (← expr f fuel e)
    if go then
      match ← onceAround f fuel b with
      | some d => return d
      | none => repeated f fuel cond b
    else return .unit

def doRepeated (f : Frame) : (fuel : Nat) → List Stmt → Expr → Bool → Eval Datum
  | 0, _, _, _ => fail .exhausted
  | fuel + 1, b, cond, goOn => do
    tick
    match ← onceAround f fuel b with
    | some d => return d
    | none =>
      if (← asBool (← expr f fuel cond)) == goOn then doRepeated f fuel b cond goOn
      else return .unit

/-- One round of a loop: the value of the loop if the round leaves it. -/
def onceAround (f : Frame) : (fuel : Nat) → List Stmt → Eval (Option Datum)
  | 0, _ => fail .exhausted
  | fuel + 1, b => fun m =>
    match block f fuel b m with
    | .ok _ m => .ok none m
    | .error .next m => .ok none m
    | .error (.leave d) m => .ok (some d) m
    | .error s m => .error s m

/-- One round of a loop over items, with its variables. -/
def roundWith (f : Frame) : (fuel : Nat) → String → Option String → List Stmt → Nat → Datum →
    Eval (Option Datum)
  | 0, _, _, _, _, _ => fail .exhausted
  | fuel + 1, item, counter, b, i, d => do
    tick
    inBlock do
      match counter with
      | some c => define c (.int i) false
      | none => pure ()
      define item d false
      onceAround f fuel b

def overItems (f : Frame) : (fuel : Nat) → String → Option String → List Stmt → Nat →
    List Datum → Eval Datum
  | 0, _, _, _, _, _ => fail .exhausted
  | _ + 1, _, _, _, _, [] => return .unit
  | fuel + 1, item, counter, b, i, d :: rest => do
    match ← roundWith f fuel item counter b i d with
    | some r => return r
    | none => overItems f fuel item counter b (i + 1) rest

def overRange (f : Frame) : (fuel : Nat) → String → Option String → List Stmt → Nat → Int → Int →
    Eval Datum
  | 0, _, _, _, _, _, _ => fail .exhausted
  | fuel + 1, item, counter, b, i, n, last => do
    if last ≤ n then return .unit
    match ← roundWith f fuel item counter b i (.int n) with
    | some r => return r
    | none => overRange f fuel item counter b (i + 1) (n + 1) last

end

/-! ## Results -/

/-- A value with the contents of its cells in their places. The fuel says how many cells may lie
inside each other. -/
def resolve (cells : Array Datum) : (fuel : Nat) → Datum → Datum
  | 0 => .fill fun _ => .unit
  | fuel + 1 => .fill fun id => resolve cells fuel (cells.getD id .unit)

end Eval

/-- More than the operations of any run. -/
def evalFuel : Nat := 10 * limits.operations

/-- Why a program did not come to its end. -/
inductive Stop
  | trouble (t : Trouble)
  | brokeDown (b : Breakdown)

/-- Runs a program from the given variables: its value or why it stopped, and the variables at its
end. -/
def Program.run (p : Program) (setting : Library.Setting) (scope : List Binding) :
    Except Stop (Datum × List Binding) :=
  let finish (d : Datum) (m : Machine) : Except Stop (Datum × List Binding) :=
    let out := Eval.resolve m.cells m.cells.size
    .ok (out d, m.scope.map fun b => { b with value := out b.value })
  match (Eval.body ⟨p, setting⟩ evalFuel p.body .unit).run { scope } with
  | .ok d m => finish d m
  | .error (.giveBack d) m => finish d m
  | .error (.trouble t) _ => .error (.trouble t)
  | .error (.brokeDown b) _ => .error (.brokeDown b)
  | .error _ m => finish .unit m

end Conduit.Script
