import Conduit.Json.Reader
import Conduit.Json.Shape

/-!
# Reading values of a known shape

Here a text is read straight into what it means, so that a part of the wrong shape is noticed in
its place. Lists and records are read part by part: a step function reads one item or the value
of one member.

A fault of a record as a whole, such as a missing field, is placed behind the closing bracket if
that comes next, else where reading stopped.
-/

namespace Conduit.Json

/-- A value that is neither list nor object; a bracket in its place stays unread. -/
def readScalar (shape : Shape α) : Reader α := fun s =>
  match skipSpace s with
  | [] => .error (Malformed.endInValue.onto [])
  | b :: rest =>
    if b = 0x5b ∨ b = 0x7b then
      match shape (if b = 0x5b then .array [] else .object []) with
      | .error m => .error (m.before (b :: rest))
      | .ok _ => .error (Malformed.missingValue.onto (b :: rest))
    else
      match readValue 1 0 (b :: rest) with
      | .error e => .error e
      | .ok (v, rest) =>
        match shape v with
        | .error m => .error (m.before rest)
        | .ok a => .ok (a, rest)

/-! ## Lists -/

/-- The start of the next item, or nothing in front of the closing bracket. -/
def nextItem (first : Bool) (s : Bytes) : Except Fault (Option Bytes) :=
  match skipSpace s with
  | [] => .error (Malformed.endInList.onto [])
  | b :: rest =>
    if b = 0x5d then .ok none
    else if first then .ok (some (b :: rest))
    else if b = 0x2c then
      match skipSpace rest with
      | [] => .error (Malformed.endInValue.onto [])
      | c :: more =>
        if c = 0x5d then .error (Malformed.trailingComma.onto (c :: more))
        else .ok (some (c :: more))
    else .error (Malformed.missingListComma.onto (b :: rest))

/-- Passes the closing bracket of a list all items of which have been read. -/
def closeList (s : Bytes) : Except Fault Bytes :=
  match skipSpace s with
  | [] => .error (Malformed.endInList.onto [])
  | b :: rest =>
    if b = 0x5d then .ok rest
    else if b = 0x2c then
      match skipSpace rest with
      | c :: more =>
        if c = 0x5d then .error (Malformed.trailingComma.onto (c :: more))
        else .error (Malformed.trailingCharacters.onto (c :: more))
      | [] => .error (Malformed.trailingCharacters.onto [])
    else .error (Malformed.trailingCharacters.onto (b :: rest))

/-- Where a fault of a list as a whole is placed. -/
def behindList (s : Bytes) : Bytes :=
  match skipSpace s with
  | 0x5d :: rest => rest
  | 0x2c :: rest => skipSpace rest
  | rest => rest

/-- Items up to the closing bracket. -/
def readItemsOf (item : Reader α) : (fuel : Nat) → (first : Bool) → Bytes →
    Except Fault (List α × Bytes)
  | 0, _, s => .error (Malformed.endInList.onto s)
  | fuel + 1, first, s => do
    match ← nextItem first s with
    | none => return ([], ← closeList s)
    | some s =>
      let (a, rest) ← item s
      let (as, rest) ← readItemsOf item fuel false rest
      return (a :: as, rest)

def readList (depth : Nat) (item : (depth : Nat) → Reader α) : Reader (List α) := fun s =>
  match skipSpace s with
  | 0x5b :: rest =>
    match depth with
    | 0 => .error (Malformed.tooDeep.onto (0x5b :: rest))
    | depth + 1 => readItemsOf (item depth) (rest.length + 1) true rest
  | 0x7b :: rest => .error ((Mismatch.type .map "a sequence").before (0x7b :: rest))
  | s => readScalar (fun v => .error (.type (.ofValue v) "a sequence")) s

/-! ## Objects -/

def readColon (s : Bytes) : Except Fault Bytes :=
  match skipSpace s with
  | [] => .error (Malformed.endInObject.onto [])
  | b :: rest =>
    if b = 0x3a then .ok rest else .error (Malformed.missingColon.onto (b :: rest))

/-- Passes the closing brace of an object all members of which have been read. -/
def closeObject (s : Bytes) : Except Fault Bytes :=
  match skipSpace s with
  | [] => .error (Malformed.endInObject.onto [])
  | b :: rest =>
    if b = 0x7d then .ok rest
    else if b = 0x2c then .error (Malformed.trailingComma.onto (b :: rest))
    else .error (Malformed.trailingCharacters.onto (b :: rest))

/-- Where a fault of an object as a whole is placed. -/
def behindObject (s : Bytes) : Bytes :=
  match skipSpace s with
  | 0x7d :: rest => rest
  | rest => rest

/-- Runs a step for each key up to the closing brace, which stays unread. The step starts behind
the key, in front of the colon. -/
def foldMembers (step : σ → String → Bytes → Except Fault (σ × Bytes)) :
    (fuel : Nat) → (first : Bool) → σ → Bytes → Except Fault (σ × Bytes)
  | 0, _, _, s => .error (Malformed.endInObject.onto s)
  | fuel + 1, first, state, s => do
    let member := fun s => do
      let (key, rest) ← readString s
      let (state, rest) ← step state key rest
      foldMembers step fuel false state rest
    match skipSpace s with
    | [] => .error (Malformed.endInObject.onto [])
    | b :: rest =>
      if b = 0x7d then return (state, b :: rest)
      else if first then
        if b = 0x22 then member rest else .error (Malformed.keyNotString.onto (b :: rest))
      else if b = 0x2c then
        match skipSpace rest with
        | [] => .error (Malformed.endInValue.onto [])
        | c :: more =>
          if c = 0x22 then member more
          else if c = 0x7d then .error (Malformed.trailingComma.onto (c :: more))
          else .error (Malformed.keyNotString.onto (c :: more))
      else .error (Malformed.missingObjectComma.onto (b :: rest))

/-- Reads the value of a field that must not have come before. -/
def readField (name : String) (old : Option α) (value : Reader α) : Reader (Option α) := fun s =>
  match old with
  | some _ => .error ((Mismatch.duplicateField name).before (behindObject s))
  | none => do
    let rest ← readColon s
    let (a, rest) ← value rest
    return (some a, rest)

/-- Reads an object: the members with `step` and the whole with `finish`. -/
def readObject (expected : String) (depth : Nat) (start : σ)
    (step : (depth : Nat) → σ → String → Bytes → Except Fault (σ × Bytes))
    (finish : σ → Except Mismatch α) : Reader α := fun s =>
  match skipSpace s with
  | 0x7b :: rest =>
    match depth with
    | 0 => .error (Malformed.tooDeep.onto (0x7b :: rest))
    | depth + 1 => do
      let (state, rest) ← foldMembers (step depth) (rest.length + 1) true start rest
      match finish state with
      | .error m => .error (m.before (behindObject rest))
      | .ok a => return (a, ← closeObject rest)
  | 0x5b :: rest => .error ((Mismatch.type .list expected).before (0x5b :: rest))
  | s => readScalar (fun v => .error (.type (.ofValue v) expected)) s

/-! ## Records by position

A record may also be written as a list of its fields in their order. -/

/-- The next item of a list, or what stands for it if the list is over. -/
def readItemOr (first : Bool) (item : Reader α) (missing : Except Mismatch α) : Reader α :=
  fun s => do
    match ← nextItem first s with
    | some s => item s
    | none =>
      match missing with
      | .ok a => return (a, s)
      | .error m => .error (m.before (behindList s))

/-- Reads a record written either way. -/
def readRecord (expected : String) (depth : Nat) (start : σ)
    (step : (depth : Nat) → σ → String → Bytes → Except Fault (σ × Bytes))
    (finish : σ → Except Mismatch α) (items : (depth : Nat) → Reader α) : Reader α := fun s =>
  match skipSpace s with
  | 0x5b :: rest =>
    match depth with
    | 0 => .error (Malformed.tooDeep.onto (0x5b :: rest))
    | depth + 1 => do
      let (a, rest) ← items depth rest
      return (a, ← closeList rest)
  | s => readObject expected depth start step finish s

/-! ## Passing over a value

A value that nobody asked for is passed over with fewer checks: neither the size of its numbers nor
the code points of its strings nor its depth matter. -/

/-- Passes the digits, the fraction and the exponent of a number. -/
def skipNumber (s : Bytes) : Except Fault Bytes := do
  let rest ← match s with
    | [] => .error (Malformed.badNumber.before [])
    | d :: more =>
      if d = 0x30 then
        if more.head?.any isDigit then .error (Malformed.badNumber.onto more) else pure more
      else if isDigit d then pure (more.dropWhile isDigit)
      else .error (Malformed.badNumber.before more)
  let rest ← match rest with
    | 0x2e :: more =>
      if more.head?.any isDigit then pure (more.dropWhile isDigit)
      else .error (Malformed.badNumber.onto more)
    | rest => pure rest
  match rest with
  | 0x65 :: more | 0x45 :: more =>
    let digits := match more with
      | 0x2b :: digits | 0x2d :: digits => digits
      | digits => digits
    match digits with
    | [] => .error (Malformed.badNumber.before [])
    | d :: after =>
      if isDigit d then return after.dropWhile isDigit
      else .error (Malformed.badNumber.before after)
  | rest => return rest

/-- Passes a string whose opening quote has been read. -/
def skipString : Bytes → Except Fault Bytes
  | [] => .error (Malformed.endInString.before [])
  | b :: rest =>
    if b = 0x22 then .ok rest
    else if b = 0x5c then
      match rest with
      | [] => .error (Malformed.endInString.before [])
      | e :: rest =>
        if e = 0x75 then
          match rest with
          | h₁ :: h₂ :: h₃ :: h₄ :: rest =>
            if (hex4? h₁ h₂ h₃ h₄).isSome then skipString rest
            else .error (Malformed.badEscape.before rest)
          | _ => .error (Malformed.endInString.before [])
        else if (escaped? e).isSome then skipString rest
        else .error (Malformed.badEscape.before rest)
    else if b < 0x20 then .error (Malformed.controlCharacter.before (b :: rest))
    else skipString rest

/-- Passes a key, whose opening quote comes next, and its colon. -/
def skipKey (s : Bytes) : Except Fault Bytes :=
  match skipSpace s with
  | [] => .error (Malformed.endInObject.onto [])
  | b :: rest =>
    if b = 0x22 then do
      let rest ← skipString rest
      readColon rest
    else .error (Malformed.keyNotString.onto (b :: rest))

mutual

/-- Passes values until the brackets of the given list, the innermost first, are all closed. -/
def skipInside : (fuel : Nat) → List UInt8 → Bytes → Except Fault Bytes
  | 0, _, s => .error (Malformed.endInValue.onto s)
  | fuel + 1, opened, s =>
    match skipSpace s with
    | [] => .error (Malformed.endInValue.onto [])
    | b :: rest => do
      if b = 0x5b ∨ b = 0x7b then skipOn fuel false (b :: opened) rest
      else
        let rest ←
          if b = 0x6e then readWord [0x75, 0x6c, 0x6c] rest
          else if b = 0x74 then readWord [0x72, 0x75, 0x65] rest
          else if b = 0x66 then readWord [0x61, 0x6c, 0x73, 0x65] rest
          else if b = 0x2d then skipNumber rest
          else if isDigit b then skipNumber (b :: rest)
          else if b = 0x22 then skipString rest
          else .error (Malformed.missingValue.onto (b :: rest))
        skipOn fuel true opened rest

/-- Goes on behind a value or an opening bracket. -/
def skipOn : (fuel : Nat) → (behindValue : Bool) → List UInt8 → Bytes → Except Fault Bytes
  | 0, _, _, s => .error (Malformed.endInValue.onto s)
  | _ + 1, _, [], s => .ok s
  | fuel + 1, behindValue, bracket :: opened, s =>
    let isList := bracket == 0x5b
    match skipSpace s with
    | [] => .error ((if isList then Malformed.endInList else Malformed.endInObject).onto [])
    | b :: rest => do
      if b = (if isList then 0x5d else 0x7d) then skipOn fuel true opened rest
      else if b = 0x2c ∧ behindValue then
        let rest ← if isList then pure rest else skipKey rest
        skipInside fuel (bracket :: opened) rest
      else if behindValue then
        .error ((if isList then Malformed.missingListComma else .missingObjectComma).onto
          (b :: rest))
      else
        let rest ← if isList then pure (b :: rest) else skipKey (b :: rest)
        skipInside fuel (bracket :: opened) rest

end

/-- Passes over the colon and the value of a member. -/
def skipMember (s : Bytes) : Except Fault Bytes := do
  let rest ← readColon s
  skipInside (2 * rest.length + 2) [] rest

end Conduit.Json
