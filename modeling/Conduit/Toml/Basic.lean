/-!
# TOML values

A table remembers how it came to be: by a header of its own or only on the way to another, and
whether by a dotted key. That decides whether it may still be added to. A table within braces is
complete at once.
-/

namespace Conduit

inductive Toml
  | string (s : String)
  | integer (n : Int)
  | float
  | boolean (b : Bool)
  | datetime
  | array (items : List Toml)
  /-- A table within braces. -/
  | inlineTable (implied dotted : Bool) (entries : List (String × Toml))
  | table (implied dotted : Bool) (entries : List (String × Toml))
  /-- The tables of an array, the latest first. -/
  | tables (items : List Toml)
deriving Inhabited

namespace Toml

abbrev Entries := List (String × Toml)

def empty : Toml := .table false false []

def entries? : Toml → Option Entries
  | .inlineTable _ _ entries => some entries
  | .table _ _ entries => some entries
  | _ => none

/-- Puts an entry in its place, or at the end. -/
def setEntry (key : String) (t : Toml) : Entries → Entries
  | [] => [(key, t)]
  | (k, u) :: rest => if k = key then (key, t) :: rest else (k, u) :: setEntry key t rest

/-! ## Building tables -/

/-- Adds a key to the table that a dotted key leads to. A table made by a header may not be reached
by a dotted key, and no key may be given twice. -/
def addKey (value : Toml) : Toml → (path : List String) → (last : String) → (dotted : Bool) →
    Option Toml
  | .table implied isDotted entries, [], last, dotted =>
    if isDotted ≠ dotted ∨ (entries.lookup last).isSome then none
    else some (.table implied isDotted (entries ++ [(last, value)]))
  | .inlineTable implied isDotted entries, [], last, dotted =>
    if isDotted ≠ dotted ∨ (entries.lookup last).isSome then none
    else some (.inlineTable implied isDotted (entries ++ [(last, value)]))
  | .table implied isDotted entries, key :: path, last, _ =>
    match entries.lookup key with
    | none =>
      (addKey value (.table true true []) path last true).map fun t =>
        .table implied isDotted (entries ++ [(key, t)])
    | some (.table true d es) =>
      (addKey value (.table true d es) path last true).map fun t =>
        .table implied isDotted (setEntry key t entries)
    | some (.tables (t :: ts)) =>
      (addKey value t path last true).map fun t =>
        .table implied isDotted (setEntry key (.tables (t :: ts)) entries)
    | _ => none
  | .inlineTable implied isDotted entries, key :: path, last, _ =>
    match entries.lookup key with
    | none =>
      (addKey value (.inlineTable true true []) path last true).map fun t =>
        .inlineTable implied isDotted (entries ++ [(key, t)])
    | some (.inlineTable true d es) =>
      (addKey value (.inlineTable true d es) path last true).map fun t =>
        .inlineTable implied isDotted (setEntry key t entries)
    | _ => none
  | _, _, _, _ => none
termination_by _ path => path.length

/-- Changes the entry that the keys of a header lead to. Tables on the way are made; of an array
of tables the latest is meant. -/
def atHeader (change : Option Toml → Option Toml) : Toml → List String → Option Toml
  | .table implied dotted entries, [key] =>
    (change (entries.lookup key)).map fun t => .table implied dotted (setEntry key t entries)
  | .table implied dotted entries, key :: path =>
    match entries.lookup key with
    | none =>
      (atHeader change (.table true false []) path).map fun t =>
        .table implied dotted (entries ++ [(key, t)])
    | some (.table i d es) =>
      (atHeader change (.table i d es) path).map fun t =>
        .table implied dotted (setEntry key t entries)
    | some (.tables (t :: ts)) =>
      (atHeader change t path).map fun t =>
        .table implied dotted (setEntry key (.tables (t :: ts)) entries)
    | _ => none
  | _, _ => none
termination_by _ path => path.length

/-- A header names a table that is new, or was so far only on the way to others. -/
def openTable : Option Toml → Option Toml
  | none => some empty
  | some (.table true false entries) => some (.table false false entries)
  | _ => none

/-- A header with two brackets adds a table to an array of tables. -/
def openNext : Option Toml → Option Toml
  | none => some (.tables [empty])
  | some (.tables ts) => some (.tables (empty :: ts))
  | _ => none

/-- Adds a key to the table opened last. -/
def addUnder (root : Toml) (header : List String) (path : List String) (last : String)
    (value : Toml) : Option Toml :=
  let add := fun t => addKey value t path last (!path.isEmpty)
  if header.isEmpty then add root
  else atHeader (fun
    | some (.tables (t :: ts)) => (add t).map fun t => .tables (t :: ts)
    | some t => add t
    | none => none) root header

end Toml

end Conduit
