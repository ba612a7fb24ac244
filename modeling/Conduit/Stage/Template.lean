import Conduit.Json.Path
import Conduit.Json.Printer
import Conduit.Text.Blank

/-!
# Templates

The strings of a template may hold placeholders, a path between `$` with an opening brace and the
next closing brace. A string that is one placeholder stands for the value itself; in a longer
string each placeholder is replaced by the text of its value, in one pass from left to right.
-/

namespace Conduit.Template

/-- What the placeholders refer to: the document by a plain path, the metadata by `meta` and by
paths that start with `meta.`. -/
structure Sources where
  document : Option Value
  metadata : Value

/-- What follows a given start, if the text starts so. -/
def after? (start : List Char) (chars : List Char) : Option (List Char) :=
  if start.isPrefixOf chars then some (chars.drop start.length) else none

def Sources.resolve (s : Sources) (path : String) : Option Value :=
  match after? ['m', 'e', 't', 'a', '.'] path.toList with
  | some rest => s.metadata.lookup (String.ofList rest)
  | none => if path = "meta" then some s.metadata else s.document.bind (·.lookup path)

/-- A value within a text: a string as it is, null as nothing, anything else as JSON. -/
def valueText : Value → String
  | .string s => s
  | .null => ""
  | v => v.toText

inductive Piece
  | literal (c : Char)
  | placeholder (path : List Char)
deriving DecidableEq, Repr

/-- The characters up to the first closing brace, and those behind it. -/
def untilClose : List Char → Option (List Char × List Char)
  | [] => none
  | c :: rest =>
    if c = '}' then some ([], rest) else (untilClose rest).map fun r => (c :: r.1, r.2)

theorem length_lt_of_untilClose {chars path rest : List Char}
    (h : untilClose chars = some (path, rest)) : rest.length < chars.length := by
  induction chars generalizing path rest with
  | nil => simp [untilClose] at h
  | cons c cs ih =>
    unfold untilClose at h
    split at h
    · simp only [Option.some.injEq, Prod.mk.injEq] at h
      simp [← h.2]
    · obtain ⟨r, hr, hr'⟩ := Option.map_eq_some_iff.1 h
      have := @ih r.1 r.2 hr
      simp only [Prod.mk.injEq] at hr'
      rw [← hr'.2, List.length_cons]
      omega

/-- Cuts a template into its characters and placeholders. An opening without a closing brace is
plain text. -/
def pieces (chars : List Char) : List Piece :=
  match chars with
  | [] => []
  | '$' :: '{' :: rest =>
    match h : untilClose rest with
    | some (path, behind) =>
      have := length_lt_of_untilClose h
      .placeholder path :: pieces behind
    | none => .literal '$' :: .literal '{' :: rest.map .literal
  | c :: rest => .literal c :: pieces rest
termination_by chars.length

def Piece.text (s : Sources) : Piece → List Char
  | .literal c => [c]
  | .placeholder path =>
    match s.resolve (String.ofList (Text.trimChars path)) with
    | some v => (valueText v).toList
    | none => []

/-- The path of a text that is one placeholder and nothing else. -/
def whole? (chars : List Char) : Option (List Char) := do
  let rest ← after? ['$', '{'] chars
  let path := rest.dropLast
  if rest.getLast? = some '}' ∧ ¬ Text.occurs ['$', '{'] path ∧ '}' ∉ path then some path else none

def renderString (template : String) (s : Sources) : Value :=
  match whole? (Text.trimChars template.toList) with
  | some path => (s.resolve (String.ofList (Text.trimChars path))).getD .null
  | none => .string (String.ofList ((pieces template.toList).flatMap (Piece.text s)))

mutual

/-- Renders every string in the template; the keys of objects stay as they are. -/
def render (s : Sources) : Value → Value
  | .string text => renderString text s
  | .array items => .array (renderItems s items)
  | .object members => .object (renderMembers s members)
  | v => v

def renderItems (s : Sources) : List Value → List Value
  | [] => []
  | v :: rest => render s v :: renderItems s rest

def renderMembers (s : Sources) : List (String × Value) → List (String × Value)
  | [] => []
  | (k, v) :: rest => (k, render s v) :: renderMembers s rest

end

end Conduit.Template
