import Conduit.Script.Token
import Conduit.Script.Tree

/-!
# Parsing scripts

A parser by recursive descent. It fails on the first token that fits no rule; what it refuses is a
compile error whatever the reason. Expressions nest at most `maxLevel` deep.
-/

namespace Conduit.Script.Parser

/-- How deep expressions may nest. -/
def maxLevel : Nat := 64

structure State where
  tokens : List Token
  /-- The variables defined so far in the function, the latest first, and whether each is fixed. -/
  scope : List (String × Bool) := []
  /-- Variables that were used but not defined in the closure being read. -/
  free : List String := []
  functions : List Function := []
  closures : Nat := 0

abbrev Parse := StateT State Option

/-- What surrounds the place being read. -/
structure Place where
  /-- How many more levels of nesting are allowed. -/
  level : Nat
  inLoop : Bool := false
  global : Bool := false

def refuse : Parse α := fun _ => none

def deeper (p : Place) : Parse Place :=
  match p.level with
  | 0 => refuse
  | n + 1 => return { p with level := n }

def peek : Parse (Option Token) := return (← get).tokens.head?

def advance : Parse Unit := modify fun s => { s with tokens := s.tokens.tail }

def atMark (m : String) : Parse Bool := do
  match ← peek with
  | some (.mark n) => return n == m
  | _ => return false

def atWord (w : String) : Parse Bool := do
  match ← peek with
  | some (.word n) => return n == w
  | _ => return false

def takeMark (m : String) : Parse Bool := do
  if ← atMark m then
    advance
    return true
  return false

def takeWord (w : String) : Parse Bool := do
  if ← atWord w then
    advance
    return true
  return false

def expectMark (m : String) : Parse Unit := do
  unless ← takeMark m do refuse

def expectWord (w : String) : Parse Unit := do
  unless ← takeWord w do refuse

def keywords : List String :=
  ["let", "const", "if", "else", "while", "do", "until", "loop", "for", "in", "break", "continue",
    "return", "throw", "try", "catch", "switch", "fn", "private", "import", "export", "as", "true",
    "false"]

def reserved : List String :=
  ["var", "static", "begin", "end", "shared", "each", "then", "goto", "unless", "match", "case",
    "public", "protected", "new", "use", "with", "is", "module", "package", "super", "thread",
    "spawn", "go", "await", "async", "sync", "yield", "default", "void", "null", "nil"]

/-- Names of functions that cannot name a variable. -/
def functionWords : List String :=
  ["print", "debug", "type_of", "eval", "Fn", "call", "curry", "is_shared", "is_def_fn",
    "is_def_var"]

/-- Whether a word can name a variable. -/
def isName (w : String) : Bool :=
  !keywords.contains w && !reserved.contains w && !functionWords.contains w && w != "this" &&
    w.any Char.isAlpha

def takeName : Parse String := do
  match ← peek with
  | some (.word w) =>
    if isName w then
      advance
      return w
    else refuse
  | _ => refuse

def addVariable (name : String) (fixed : Bool) : Parse Unit :=
  modify fun s => { s with scope := (name, fixed) :: s.scope }

/-- Notes the use of a variable. -/
def useVariable (name : String) : Parse Unit :=
  modify fun s =>
    if (s.scope.lookup name).isSome || s.free.contains name then s
    else { s with free := s.free ++ [name] }

/-- Runs a parser; the variables it defines end with it. -/
def inScope (p : Parse α) : Parse α := do
  let scope := (← get).scope
  let a ← p
  modify fun s => { s with scope }
  return a

/-- The precedence of an operator and whether it groups to the right. -/
def precedence? : String → Option (Nat × Bool)
  | "||" | "|" | "^" => some (30, false)
  | "&&" | "&" => some (60, false)
  | "==" | "!=" => some (90, false)
  | "in" | "!in" => some (110, false)
  | "<" | "<=" | ">" | ">=" => some (130, false)
  | "??" => some (135, false)
  | ".." | "..=" => some (140, false)
  | "+" | "-" => some (150, false)
  | "*" | "/" | "%" => some (180, false)
  | "**" => some (190, true)
  | "<<" | ">>" => some (210, false)
  | _ => none

/-- The operator at the front of the tokens, how many tokens it takes, and its precedence. -/
def operatorAt : List Token → Option (String × Nat × Nat × Bool)
  | .mark "!" :: .word "in" :: _ => some ("!in", 2, 110, false)
  | .mark m :: _ => (precedence? m).map fun p => (m, 1, p.1, p.2)
  | .word "in" :: _ => some ("in", 1, 110, false)
  | _ => none

def binaryNode (op : String) (l r : Expr) : Expr :=
  match op with
  | "&&" => .and l r
  | "||" => .or l r
  | "??" => .orElse l r
  | "in" => .call "contains" [r, l]
  | "!in" => .unary "!" (.call "contains" [r, l])
  | op => .binary op l r

/-- Adds a link to an expression. -/
def link (e : Expr) (l : Link) : Expr :=
  match e with
  | .chain root links => .chain root (links ++ [l])
  | e => .chain e [l]

def assignments : List String :=
  ["=", "+=", "-=", "*=", "/=", "%=", "**=", "<<=", ">>=", "&=", "|=", "^="]

/-- Whether an expression can stand to the left of an assignment. -/
def isTarget : Expr → Bool
  | .var _ | .self => true
  | .chain _ links =>
    match links.getLast? with
    | some (.method ..) | none => false
    | some _ => true
  | _ => false

/-- A negated literal, or the operator applied. -/
def negate : Expr → Expr
  | .literal (.int n) => if n = -0x8000000000000000 then .unary "-" (.literal (.int n)) else .literal (.int (-n))
  | .literal (.float d) => .literal (.float (-d))
  | e => .unary "-" e

/-- Whether a statement ends without a semicolon. -/
def endsItself : Stmt → Bool
  | .block _ | .branch .. | .choose .. | .loop .. | .iterate .. | .attempt .. | .nothing => true
  | _ => false

/-- A literal, or a range of literals, as a pattern. -/
def pattern? : Expr → Option Datum
  | .literal d => some d
  | .binary ".." (.literal (.int a)) (.literal (.int b)) => some (.range false a b)
  | .binary "..=" (.literal (.int a)) (.literal (.int b)) => some (.range true a b)
  | .unary "-" (.literal (.int n)) => some (.int (-n))
  | _ => none

/-- The patterns of a case written with bars between them. -/
def patterns? : Expr → Option (List Datum)
  | .binary "|" l r => do return (← patterns? l) ++ [← pattern? r]
  | e => (pattern? e).map ([·])

mutual

def parseExpr : (fuel : Nat) → Place → Parse Expr
  | 0, _ => refuse
  | fuel + 1, p => do
    let lhs ← parseUnary fuel (← deeper p)
    parseBinary fuel (← deeper p) 0 lhs

/-- Operators that bind at least as tightly as `least`, after their left operand. -/
def parseBinary : (fuel : Nat) → Place → Nat → Expr → Parse Expr
  | 0, _, _, _ => refuse
  | fuel + 1, p, least, lhs => do
    match operatorAt (← get).tokens with
    | none => return lhs
    | some (op, width, prec, right) =>
      if prec < least ∨ (prec = least ∧ !right) then return lhs
      else
        modify fun s => { s with tokens := s.tokens.drop width }
        let rhs ← parseUnary fuel p
        let rhs ← match operatorAt (← get).tokens with
          | some (_, _, next, _) =>
            if prec < next ∨ (prec = next ∧ right) then parseBinary fuel p prec rhs
            else pure rhs
          | none => pure rhs
        parseBinary fuel (← deeper p) least (binaryNode op lhs rhs)

def parseUnary : (fuel : Nat) → Place → Parse Expr
  | 0, _ => refuse
  | fuel + 1, p => do
    if ← takeMark "-" then return negate (← parseUnary fuel (← deeper p))
    else if ← takeMark "+" then
      match ← parseUnary fuel (← deeper p) with
      | .literal (.int n) => return .literal (.int n)
      | .literal (.float d) => return .literal (.float d)
      | e => return .unary "+" e
    else if ← takeMark "!" then return .unary "!" (← parseUnary fuel (← deeper p))
    else parsePrimary fuel (← deeper p)

def parsePrimary : (fuel : Nat) → Place → Parse Expr
  | 0, _ => refuse
  | fuel + 1, p => do
    match ← peek with
    | some (.int n) =>
      advance
      parsePostfix fuel p (.literal (.int n))
    | some (.float d) =>
      advance
      parsePostfix fuel p (.literal (.float d))
    | some (.char c) =>
      advance
      parsePostfix fuel p (.literal (.char c))
    | some (.text s) =>
      advance
      parsePostfix fuel p (.literal (.text s))
    | some (.template pieces) =>
      advance
      let parts ← parsePieces fuel p pieces
      parsePostfix fuel p (match parts with
        | [.literal (.text s)] => .literal (.text s)
        | parts => .template parts)
    | some (.word w) =>
      if w == "true" then
        advance
        parsePostfix fuel p (.literal (.bool true))
      else if w == "false" then
        advance
        parsePostfix fuel p (.literal (.bool false))
      else if w == "this" then
        advance
        parsePostfix fuel p .self
      else if ["if", "while", "loop", "do", "for", "switch"].contains w then
        let s ← parseStmt fuel { p with global := false }
        parsePostfix fuel p (.statement s)
      else if keywords.contains w || reserved.contains w then refuse
      else
        advance
        if ← atMark "(" then
          advance
          let args ← parseArgs fuel (← deeper p) ")"
          parsePostfix fuel p (.call w args)
        else
          match (← get).tokens with
          | .mark "!" :: .mark "(" :: rest =>
            modify fun s => { s with tokens := rest }
            let args ← parseArgs fuel (← deeper p) ")"
            parsePostfix fuel p (.call w args)
          | .mark "::" :: _ => refuse
          | _ =>
            if isName w then
              useVariable w
              parsePostfix fuel p (.var w)
            else refuse
    | some (.mark "(") =>
      advance
      if ← takeMark ")" then parsePostfix fuel p (.literal .unit)
      else
        let e ← parseExpr fuel (← deeper p)
        expectMark ")"
        parsePostfix fuel p e
    | some (.mark "[") =>
      advance
      let items ← parseArgs fuel (← deeper p) "]"
      parsePostfix fuel p (.list items)
    | some (.mark "#\x7b") =>
      advance
      let fields ← parseFields fuel (← deeper p)
      let names := fields.map (·.1)
      if names.eraseDups.length ≠ names.length then refuse
      parsePostfix fuel p (.record fields)
    | some (.mark "\x7b") =>
      let s ← parseStmt fuel { p with global := false }
      parsePostfix fuel p (.statement s)
    | some (.mark "||") =>
      advance
      parseClosure fuel p []
    | some (.mark "|") =>
      advance
      let params ← parseParams fuel "|"
      parseClosure fuel p params
    | _ => refuse

/-- The links after an expression. -/
def parsePostfix : (fuel : Nat) → Place → Expr → Parse Expr
  | 0, _, _ => refuse
  | fuel + 1, p, e => do
    match (← get).tokens with
    | .mark "[" :: _ =>
      advance
      let i ← parseExpr fuel (← deeper p)
      expectMark "]"
      parsePostfix fuel p (link e (.index i false))
    | .mark "?[" :: _ =>
      advance
      let i ← parseExpr fuel (← deeper p)
      expectMark "]"
      parsePostfix fuel p (link e (.index i true))
    | .mark "." :: .word w :: _ =>
      advance
      advance
      parseMember fuel p e w false
    | .mark "?." :: .word w :: _ =>
      advance
      advance
      parseMember fuel p e w true
    | .mark "." :: _ | .mark "?." :: _ => refuse
    | _ => return e

/-- A property or a method call after its point. -/
def parseMember : (fuel : Nat) → Place → Expr → String → Bool → Parse Expr
  | 0, _, _, _, _ => refuse
  | fuel + 1, p, e, w, safe => do
    if keywords.contains w then refuse
    match (← get).tokens with
    | .mark "(" :: _ =>
      advance
      let args ← parseArgs fuel (← deeper p) ")"
      parsePostfix fuel p (link e (.method w args safe))
    | _ => parsePostfix fuel p (link e (.prop w safe))

/-- Expressions with commas between them, up to the closing mark. -/
def parseArgs : (fuel : Nat) → Place → String → Parse (List Expr)
  | 0, _, _ => refuse
  | fuel + 1, p, close => do
    if ← takeMark close then return []
    let e ← parseExpr fuel p
    if ← takeMark "," then return e :: (← parseArgs fuel p close)
    expectMark close
    return [e]

def parseFields : (fuel : Nat) → Place → Parse (List (String × Expr))
  | 0, _ => refuse
  | fuel + 1, p => do
    if ← takeMark "\x7d" then return []
    let name ← match ← peek with
      | some (.word w) => if keywords.contains w then refuse else pure w
      | some (.text s) => pure s
      | _ => refuse
    advance
    expectMark ":"
    let e ← parseExpr fuel p
    if ← takeMark "," then return (name, e) :: (← parseFields fuel p)
    expectMark "\x7d"
    return [(name, e)]

/-- The texts and the code of a template. -/
def parsePieces : (fuel : Nat) → Place → List (String × List Token) → Parse (List Expr)
  | 0, _, _ => refuse
  | _ + 1, _, [] => return []
  | _ + 1, _, [(s, _)] => return [.literal (.text s)]
  | fuel + 1, p, (s, code) :: rest => do
    let outer := (← get).tokens
    modify fun st => { st with tokens := code }
    let body ← inScope (parseBody fuel { (← deeper p) with global := false })
    unless (← get).tokens.isEmpty do refuse
    modify fun st => { st with tokens := outer }
    let others ← parsePieces fuel p rest
    return .literal (.text s) :: .statement (.block body) :: others

def parseParams : (fuel : Nat) → String → Parse (List String)
  | 0, _ => refuse
  | fuel + 1, close => do
    if ← takeMark close then return []
    let name ← takeName
    let others ←
      if ← takeMark "," then parseParams fuel close
      else do
        expectMark close
        pure []
    if others.contains name then refuse
    return name :: others

/-- The body of a closure. The variables it uses and does not define become its first
parameters. -/
def parseClosure : (fuel : Nat) → Place → List String → Parse Expr
  | 0, _, _ => refuse
  | fuel + 1, _, params => do
    let outer ← get
    set { outer with scope := params.map (·, false), free := [] }
    let body ← parseStmt fuel { level := maxLevel }
    let inner ← get
    let captured := inner.free
    let name := s!"anon${inner.closures}"
    let function : Function := ⟨name, captured ++ params, [body]⟩
    set { inner with
      scope := outer.scope
      free := outer.free
      closures := inner.closures + 1
      functions := inner.functions ++ [function] }
    captured.forM useVariable
    return .closure name captured

/-- Statements up to a closing brace, which stays, or to the end. -/
def parseBody : (fuel : Nat) → Place → Parse (List Stmt)
  | 0, _ => refuse
  | fuel + 1, p => do
    match ← peek with
    | none => return []
    | some (.mark "\x7d") => return []
    | some (.mark ";") =>
      advance
      parseBody fuel p
    | _ =>
      let s ← parseStmt fuel p
      unless endsItself s do
        match ← peek with
        | none => pure ()
        | some (.mark "\x7d") => pure ()
        | _ => expectMark ";"
      let rest ← parseBody fuel p
      return match s with
        | .nothing => rest
        | s => s :: rest

/-- A block in braces. -/
def parseBlock : (fuel : Nat) → Place → Parse (List Stmt)
  | 0, _ => refuse
  | fuel + 1, p => do
    expectMark "\x7b"
    let body ← inScope (parseBody fuel { (← deeper p) with global := false })
    expectMark "\x7d"
    return body

def parseStmt : (fuel : Nat) → Place → Parse Stmt
  | 0, _ => refuse
  | fuel + 1, p => do
    match ← peek with
    | some (.mark "\x7b") => return .block (← parseBlock fuel p)
    | some (.word "let") =>
      advance
      let name ← takeName
      let value ← if ← takeMark "=" then some <$> parseExpr fuel p else pure none
      addVariable name false
      return .define name false value
    | some (.word "const") =>
      advance
      let name ← takeName
      let value ← if ← takeMark "=" then some <$> parseExpr fuel p else pure none
      addVariable name true
      return .define name true value
    | some (.word "if") =>
      advance
      parseBranch fuel p
    | some (.word "switch") =>
      advance
      let subject ← parseExpr fuel (← deeper p)
      expectMark "\x7b"
      let cases ← parseCases fuel (← deeper p)
      return .choose subject cases
    | some (.word "while") =>
      advance
      let cond ← parseExpr fuel (← deeper p)
      return .loop (some cond) (← parseBlock fuel { p with inLoop := true })
    | some (.word "loop") =>
      advance
      return .loop none (← parseBlock fuel { p with inLoop := true })
    | some (.word "do") =>
      advance
      let body ← parseBlock fuel { p with inLoop := true }
      let goOn ← if ← takeWord "while" then pure true else do
        expectWord "until"
        pure false
      return .doLoop body (← parseExpr fuel (← deeper p)) goOn
    | some (.word "for") =>
      advance
      let paired ← takeMark "("
      let item ← takeName
      let counter ←
        if paired then do
          expectMark ","
          let c ← takeName
          expectMark ")"
          if c == item then refuse
          pure (some c)
        else pure none
      expectWord "in"
      let source ← parseExpr fuel (← deeper p)
      let body ← inScope do
        counter.forM (addVariable · false)
        addVariable item false
        parseBlock fuel { p with inLoop := true }
      return .iterate item counter source body
    | some (.word "break") =>
      if !p.inLoop then refuse
      advance
      return .leave (← parseOptional fuel p)
    | some (.word "continue") =>
      if !p.inLoop then refuse
      advance
      return .next
    | some (.word "return") =>
      advance
      return .giveBack (← parseOptional fuel p)
    | some (.word "throw") =>
      advance
      return .raise (← parseOptional fuel p)
    | some (.word "try") =>
      advance
      let body ← parseBlock fuel p
      expectWord "catch"
      let name ← if ← takeMark "(" then do
          let n ← takeName
          expectMark ")"
          pure (some n)
        else pure none
      let handler ← inScope do
        name.forM (addVariable · false)
        parseBlock fuel p
      return .attempt body name handler
    | some (.word "private") =>
      advance
      unless ← atWord "fn" do refuse
      parseFunction fuel p
    | some (.word "fn") => parseFunction fuel p
    | some (.word "import") | some (.word "export") => refuse
    | _ =>
      let e ← parseExpr fuel (← deeper p)
      match ← peek with
      | some (.mark m) =>
        if assignments.contains m then
          advance
          let value ← parseExpr fuel (← deeper p)
          unless isTarget e do refuse
          match e with
          | .var name => if (← get).scope.lookup name == some true then refuse
          | .chain (.var name) _ => if (← get).scope.lookup name == some true then refuse
          | _ => pure ()
          return .assign e (if m == "=" then none else some (m.dropEnd 1).toString) value
        else return .expr e
      | _ => return .expr e

/-- An expression, unless the statement ends here. -/
def parseOptional : (fuel : Nat) → Place → Parse (Option Expr)
  | 0, _ => refuse
  | fuel + 1, p => do
    match ← peek with
    | none | some (.mark ";") | some (.mark "\x7d") => return none
    | _ => return some (← parseExpr fuel (← deeper p))

def parseBranch : (fuel : Nat) → Place → Parse Stmt
  | 0, _ => refuse
  | fuel + 1, p => do
    let cond ← parseExpr fuel (← deeper p)
    let yes ← parseBlock fuel p
    let no ←
      if ← takeWord "else" then
        if ← takeWord "if" then do pure [← parseBranch fuel (← deeper p)]
        else parseBlock fuel p
      else pure []
    return .branch cond yes no

/-- The cases of a choice up to the closing brace. -/
def parseCases : (fuel : Nat) → Place → Parse (List Case)
  | 0, _ => refuse
  | fuel + 1, p => do
    if ← takeMark "\x7d" then return []
    let (patterns, guard) ←
      if ← takeWord "_" then
        if ← atWord "if" then refuse
        pure ([], none)
      else do
        let e ← parseExpr fuel p
        match patterns? e with
        | none => refuse
        | some ps =>
          let guard ← if ← takeWord "if" then some <$> parseExpr fuel p else pure none
          pure (ps, guard)
    expectMark "=>"
    let body ← parseStmt fuel { p with global := false }
    let braced := endsItself body
    let more ← takeMark ","
    if !more ∧ !braced then
      unless ← atMark "\x7d" do refuse
    let rest ← parseCases fuel p
    if patterns.isEmpty ∧ !rest.isEmpty then refuse
    return .mk patterns guard (.statement body) :: rest

/-- A function definition, which stands outside of all blocks. -/
def parseFunction : (fuel : Nat) → Place → Parse Stmt
  | 0, _ => refuse
  | fuel + 1, p => do
    advance
    if !p.global then refuse
    let name ← match ← peek with
      | some (.word w) =>
        if keywords.contains w || reserved.contains w || w == "this" then refuse else pure w
      | _ => refuse
    advance
    expectMark "("
    let params ← parseParams fuel ")"
    let outer ← get
    if outer.functions.any fun f => f.name == name && f.params.length == params.length then refuse
    set { outer with scope := params.map (·, false), free := [] }
    let body ← parseBlock fuel { level := maxLevel }
    let function : Function := ⟨name, params, body⟩
    modify fun s =>
      { s with
        scope := outer.scope
        free := outer.free
        functions := s.functions ++ [function] }
    return .nothing

end

end Parser

/-- The program that a text spells. -/
def Program.parse? (source : String) : Option Program := do
  let tokens ← Token.tokens? source
  let fuel := 40 * (source.length + 10)
  let p : Parser.Place := { level := Parser.maxLevel, global := true }
  let (body, state) ← (Parser.parseBody fuel p).run { tokens }
  if state.tokens.isEmpty then some ⟨body, state.functions⟩ else none

end Conduit.Script
