import Conduit.Number.Reading
import Conduit.Text.Blank
import Conduit.Json.Basic

/-!
# Paths into values

A dotted path is a list of segments. A segment names a member of an object, or the place of an
item of an array as an unsigned whole number. Looking up and removing walk the same segments.
-/

namespace Conduit

/-- A segment as the place of an item. -/
def segmentIndex? (segment : String) : Option Nat := Number.natBelow? 0x10000000000000000 segment

namespace Value

/-- One step of a walk. -/
def child? (v : Value) (segment : String) : Option Value :=
  match v with
  | .object members => members.lookup segment
  | .array items => (segmentIndex? segment).bind (items[·]?)
  | _ => none

/-- The value that a walk along the segments ends at. -/
def walk? (v : Value) : List String → Option Value
  | [] => some v
  | segment :: rest => (v.child? segment).bind (walk? · rest)

/-- The segments of a dotted path. The empty path has none and leads to the whole value. -/
def segments (path : String) : List String :=
  if path = "" then [] else Text.split '.' path

/-- The value at a dotted path. -/
def lookup (v : Value) (path : String) : Option Value := v.walk? (segments path)

/-- Takes one child out, if it is there. -/
def removeChild? (v : Value) (segment : String) : Option Value :=
  match v with
  | .object members =>
    if (members.lookup segment).isSome then some (.object (Members.remove segment members))
    else none
  | .array items =>
    match segmentIndex? segment with
    | some i => if i < items.length then some (.array (items.eraseIdx i)) else none
    | none => none
  | _ => none

/-- Puts a value in the place of a child. -/
def replaceChild (v : Value) (segment : String) (new : Value) : Value :=
  match v with
  | .object members => .object (Members.update segment (fun _ => new) members)
  | .array items =>
    match segmentIndex? segment with
    | some i => .array (items.set i new)
    | none => v
  | _ => v

/-- Takes out what the segments lead to. The empty list leads to the value itself, which stays. -/
def removeAt? (v : Value) : List String → Option Value
  | [] => none
  | [segment] => v.removeChild? segment
  | segment :: rest =>
    (v.child? segment).bind fun c => (c.removeAt? rest).map (v.replaceChild segment ·)

/-- Takes out what a dotted path leads to; `none` if there is nothing. Here the empty path is one
empty segment. -/
def remove? (v : Value) (path : String) : Option Value := v.removeAt? (Text.split '.' path)

/-- Sets every member of `extra` in an object; any other value becomes an object first. An empty
`extra` changes nothing. -/
def merge (v : Value) (extra : Members) : Value :=
  if extra.isEmpty then v
  else
    let members := match v with
      | .object members => members
      | _ => []
    .object (Members.insertAll members extra)

end Value

end Conduit
