import Conduit.Stage.Template
import Conduit.Proofs.Json.Places
import Conduit.Proofs.Text.Cuts

/-!
# Rendering templates

A template text falls, from left to right, into literal runs and placeholders (`Template.Cut`). How
it does so is settled by the template alone: what is put in for a placeholder is never cut again.
Every string of a template is rendered in its place, and all else stays (`Template.renders_once`).
-/

namespace Conduit.Template

variable {s : Sources} {text before behind path rest chars : List Char} {c : Char}

/-- What a placeholder begins with. -/
def opening : List Char := ['$', '{']

/-! ## Literal runs and placeholders -/

inductive Fragment
  | literal (text : List Char)
  | placeholder (path : List Char)

/-- A text cut from left to right: up to the first opening it is literal, from there to the next
closing brace it is a placeholder. An opening that is never closed is literal with all behind it. -/
inductive Cut : List Char → List Fragment → Prop
  | plain {text : List Char} : ¬ opening <:+: text → Cut text [.literal text]
  | unclosed {before behind : List Char} : ¬ opening <:+: before ++ ['$'] → '}' ∉ behind →
      Cut (before ++ (opening ++ behind)) [.literal (before ++ (opening ++ behind))]
  | placeholder {before path rest : List Char} {fragments : List Fragment} :
      ¬ opening <:+: before ++ ['$'] → '}' ∉ path → Cut rest fragments →
      Cut (before ++ (opening ++ (path ++ '}' :: rest)))
        (.literal before :: .placeholder path :: fragments)

/-- What a fragment becomes: a literal run stays, a placeholder is replaced by the text of its
value, or by nothing. -/
def Fragment.filled (s : Sources) : Fragment → List Char
  | .literal text => text
  | .placeholder path =>
    match s.resolve (String.ofList (Text.trimChars path)) with
    | some v => (valueText v).toList
    | none => []

def Fragment.pieces : Fragment → List Piece
  | .literal text => text.map .literal
  | .placeholder path => [.placeholder path]

theorem Fragment.flatMap_pieces (s : Sources) (f : Fragment) :
    f.pieces.flatMap (Piece.text s) = f.filled s := by
  cases f with
  | literal text =>
    rw [pieces, List.flatMap_map]
    exact List.flatMap_pure_eq_map _ _ |>.trans (List.map_id _)
  | placeholder path => exact List.append_nil _

/-! ## The next closing brace -/

theorem untilClose_append (h : '}' ∉ path) (rest : List Char) :
    untilClose (path ++ '}' :: rest) = some (path, rest) := by
  induction path with
  | nil => rfl
  | cons c path ih =>
    obtain ⟨hne, hpath⟩ := List.ne_and_not_mem_of_not_mem_cons h
    rw [List.cons_append, untilClose, if_neg hne.symm, ih hpath]
    rfl

theorem untilClose_of_notMem (h : '}' ∉ chars) : untilClose chars = none := by
  induction chars with
  | nil => rfl
  | cons c rest ih =>
    obtain ⟨hne, hrest⟩ := List.ne_and_not_mem_of_not_mem_cons h
    rw [untilClose, if_neg hne.symm, ih hrest]
    rfl

/-! ## Pieces -/

theorem pieces_cons (h : ¬ opening <+: c :: rest) :
    pieces (c :: rest) = .literal c :: pieces rest := by
  rw [pieces]
  rintro more rfl rfl
  exact h (List.prefix_append opening more)

theorem pieces_closed (h : '}' ∉ path) (rest : List Char) :
    pieces (opening ++ (path ++ '}' :: rest)) = .placeholder path :: pieces rest := by
  rw [opening, List.cons_append, List.cons_append, List.nil_append, pieces]
  split
  · rename_i hclose
    cases (untilClose_append h rest).symm.trans hclose
    rfl
  · rename_i hclose
    cases (untilClose_append h rest).symm.trans hclose

theorem pieces_unclosed (h : '}' ∉ behind) :
    pieces (opening ++ behind) = (opening ++ behind).map .literal := by
  rw [opening, List.cons_append, List.cons_append, List.nil_append, pieces]
  split
  · rename_i hclose
    cases (untilClose_of_notMem h).symm.trans hclose
  · rfl

theorem pieces_of_plain (h : ¬ opening <:+: text) : pieces text = text.map .literal := by
  induction text with
  | nil => rw [pieces, List.map_nil]
  | cons c rest ih =>
    obtain ⟨hstarts, hrest⟩ := not_or.1 (mt List.infix_cons_iff.2 h)
    rw [pieces_cons hstarts, ih hrest, List.map_cons]

/-- Up to the first opening a text is literal. -/
theorem pieces_append (h : ¬ opening <:+: before ++ ['$']) (behind : List Char) :
    pieces (before ++ (opening ++ behind)) = before.map .literal ++ pieces (opening ++ behind) := by
  induction before with
  | nil => rfl
  | cons c before ih =>
    obtain ⟨hstarts, hbefore⟩ := not_or.1 (mt List.infix_cons_iff.2 h)
    rw [List.cons_append, pieces_cons, ih hbefore, List.map_cons, List.cons_append]
    -- The first two characters are the same with and without what follows the opening.
    refine fun hopening ↦ hstarts (List.prefix_of_prefix_length_le hopening ?_ ?_)
    · exact ⟨'{' :: behind, by simp [opening]⟩
    · simp [opening]

theorem pieces_of_cut {fragments : List Fragment} (h : Cut text fragments) :
    pieces text = fragments.flatMap Fragment.pieces := by
  induction h with
  | plain h => rw [pieces_of_plain h, List.flatMap_singleton, Fragment.pieces]
  | unclosed hbefore hbehind =>
    rw [pieces_append hbefore, pieces_unclosed hbehind, ← List.map_append, List.flatMap_singleton,
      Fragment.pieces]
  | placeholder hbefore hpath _ ih =>
    rw [pieces_append hbefore, pieces_closed hpath, ih]
    rfl

/-! ## Every text can be cut -/

theorem exists_first_opening (h : opening <:+: text) :
    ∃ before behind, text = before ++ (opening ++ behind) ∧ ¬ opening <:+: before ++ ['$'] := by
  induction text with
  | nil => exact absurd (List.infix_nil.1 h) (List.cons_ne_nil _ _)
  | cons c rest ih =>
    by_cases hstarts : opening <+: c :: rest
    · obtain ⟨behind, hbehind⟩ := hstarts
      exact ⟨[], behind, hbehind.symm, by decide⟩
    · obtain ⟨before, behind, rfl, hfirst⟩ := ih ((List.infix_cons_iff.1 h).resolve_left hstarts)
      refine ⟨c :: before, behind, rfl, fun hinfix ↦ ?_⟩
      rcases List.infix_cons_iff.1 hinfix with hopening | hopening
      · refine hstarts (hopening.trans ?_)
        exact ⟨'{' :: behind, by simp [opening]⟩
      · exact hfirst hopening

theorem exists_cut (text : List Char) : ∃ fragments, Cut text fragments := by
  induction hn : text.length using Nat.strong_induction_on generalizing text with
  | _ n ih =>
    by_cases hopening : opening <:+: text
    · obtain ⟨before, behind, rfl, hfirst⟩ := exists_first_opening hopening
      by_cases hclose : '}' ∈ behind
      · -- The cut goes on behind the placeholder, on a shorter text.
        obtain ⟨path, rest, rfl, hpath⟩ := List.eq_append_cons_of_mem hclose
        obtain ⟨fragments, hcut⟩ := ih rest.length (by simp [← hn]; omega) rest rfl
        exact ⟨_, .placeholder hfirst hpath hcut⟩
      · exact ⟨_, .unclosed hfirst hclose⟩
    · exact ⟨_, .plain hopening⟩

/-! ## A text that is one placeholder -/

/-- The text is one placeholder, with blank space around it at most. -/
def IsPlaceholder (text : String) (path : List Char) : Prop :=
  (Text.trim text).toList = opening ++ (path ++ ['}']) ∧ ¬ opening <:+: path ∧ '}' ∉ path

theorem after?_eq_some_iff {start : List Char} :
    after? start chars = some rest ↔ chars = start ++ rest := by
  rw [after?]
  constructor
  · intro h
    split at h
    · rename_i hstarts
      obtain ⟨more, rfl⟩ := List.isPrefixOf_iff_prefix.1 hstarts
      rw [List.drop_left] at h
      rw [Option.some.inj h]
    · cases h
  · rintro rfl
    rw [if_pos (List.isPrefixOf_iff_prefix.2 (List.prefix_append _ _)), List.drop_left]

theorem whole?_eq_some_iff :
    whole? chars = some path ↔
      chars = opening ++ (path ++ ['}']) ∧ ¬ opening <:+: path ∧ '}' ∉ path := by
  rw [whole?, Option.bind_eq_bind, Option.bind_eq_some_iff]
  constructor
  · rintro ⟨rest, hrest, h⟩
    obtain rfl := after?_eq_some_iff.1 hrest
    dsimp only at h
    split at h
    · rename_i hcond
      obtain ⟨hlast, hopening, hclose⟩ := hcond
      cases h
      obtain ⟨front, rfl⟩ := List.getLast?_eq_some_iff.1 hlast
      rw [List.dropLast_concat] at hopening hclose ⊢
      exact ⟨rfl, fun hinfix ↦ hopening (Text.occurs_iff.2 hinfix), hclose⟩
    · cases h
  · rintro ⟨rfl, hopening, hclose⟩
    refine ⟨path ++ ['}'], after?_eq_some_iff.2 rfl, ?_⟩
    rw [List.dropLast_concat, List.getLast?_concat]
    exact if_pos ⟨rfl, fun hoccurs ↦ hopening (Text.occurs_iff.1 hoccurs), hclose⟩

theorem isPlaceholder_iff {text : String} :
    IsPlaceholder text path ↔ whole? (Text.trimChars text.toList) = some path := by
  rw [whole?_eq_some_iff, IsPlaceholder, Text.trim, String.toList_ofList]

theorem renderString_of_isPlaceholder {text : String} (h : IsPlaceholder text path) (s : Sources) :
    renderString text s = (s.resolve (String.ofList (Text.trimChars path))).getD .null := by
  rw [renderString, isPlaceholder_iff.1 h]

theorem renderString_of_cut {text : String} {fragments : List Fragment}
    (hnot : ∀ path, ¬ IsPlaceholder text path) (h : Cut text.toList fragments) (s : Sources) :
    renderString text s = .string (String.ofList (fragments.flatMap (Fragment.filled s))) := by
  have hwhole : whole? (Text.trimChars text.toList) = none :=
    Option.eq_none_iff_forall_ne_some.2 fun path hpath ↦ hnot path (isPlaceholder_iff.2 hpath)
  rw [renderString, hwhole, pieces_of_cut h, List.flatMap_assoc]
  simp only [Fragment.flatMap_pieces]

/-- A text in which nothing opens stays as it is. -/
theorem renderString_of_plain {text : String} (h : ¬ opening <:+: text.toList) (s : Sources) :
    renderString text s = .string text := by
  have hnot (path : List Char) : ¬ IsPlaceholder text path := fun hpath ↦ by
    rw [IsPlaceholder, Text.trim, String.toList_ofList] at hpath
    have hstarts : opening <+: Text.trimChars text.toList := ⟨_, hpath.1.symm⟩
    exact h (hstarts.isInfix.trans (Text.trimChars_infix _))
  rw [renderString_of_cut hnot (.plain h), List.flatMap_singleton, Fragment.filled,
    String.ofList_toList]

/-! ## Values -/

theorem renderItems_eq_map (s : Sources) (items : List Value) :
    renderItems s items = items.map (render s) := by
  induction items with
  | nil => rfl
  | cons v rest ih => rw [renderItems, ih, List.map_cons]

theorem keys_renderMembers (s : Sources) (members : Members) :
    Members.keys (renderMembers s members) = members.keys := by
  induction members with
  | nil => rfl
  | cons m rest ih =>
    obtain ⟨key, v⟩ := m
    rw [renderMembers, Members.keys_cons, ih, Members.keys_cons]

theorem lookup_renderMembers (s : Sources) (members : Members) (key : String) :
    (renderMembers s members).lookup key = (members.lookup key).map (render s) := by
  induction members with
  | nil => rfl
  | cons m rest ih =>
    obtain ⟨k, v⟩ := m
    rw [renderMembers, lookup_cons_eq_ite, lookup_cons_eq_ite, ih]
    split <;> rfl

/-- What becomes of one value of a template: a string is rendered, an object keeps its keys and
their order, an array its length, and any other value stays. -/
inductive Renders (s : Sources) : Value → Value → Prop
  | string (text : String) : Renders s (.string text) (renderString text s)
  | array {items news : List Value} : news.length = items.length →
      Renders s (.array items) (.array news)
  | object {members news : Members} : news.keys = members.keys →
      Renders s (.object members) (.object news)
  | null : Renders s .null .null
  | bool (b : Bool) : Renders s (.bool b) (.bool b)
  | number (n : Number) : Renders s (.number n) (.number n)

theorem renders_render (s : Sources) (v : Value) : Renders s v (render s v) := by
  cases v with
  | string text => rw [render]; exact .string text
  | array items => rw [render]; exact .array (by rw [renderItems_eq_map, List.length_map])
  | object members => rw [render]; exact .object (keys_renderMembers s members)
  | null => exact .null
  | bool b => exact .bool b
  | number n => exact .number n

theorem part?_render {v part : Value} {place : Place} (h : v.part? place = some part) :
    (render s v).part? place = some (render s part) := by
  cases place with
  | member key =>
    obtain ⟨members, rfl, hpart⟩ := Value.exists_object_of_part? h
    rw [render, Value.part?, lookup_renderMembers, hpart, Option.map_some]
  | item i =>
    obtain ⟨items, rfl, hpart⟩ := Value.exists_array_of_part? h
    rw [render, Value.part?, renderItems_eq_map, List.getElem?_map, hpart, Option.map_some]

/-- What stands at an address of the template stands there rendered. -/
theorem at?_render {template part : Value} {address : Address}
    (h : template.at? address = some part) :
    (render s template).at? address = some (render s part) := by
  induction address generalizing template with
  | nil => rw [← Option.some.inj h]; rfl
  | cons place rest ih =>
    obtain ⟨child, hchild, hpart⟩ := Option.bind_eq_some_iff.1 h
    rw [Value.at?_cons_of_part? (part?_render hchild)]
    exact ih hpart

/-- Nothing opens in a text. -/
@[simp]
def IsPlain : Value → Prop
  | .string text => ¬ opening <:+: text.toList
  | _ => True

mutual

theorem render_of_plain (s : Sources) (v : Value) (h : v.All IsPlain) : render s v = v := by
  cases v with
  | string text => rw [render, renderString_of_plain (Value.all_string.1 h)]
  | array items =>
    rw [Value.All] at h
    rw [render, renderItems_of_plain s items h.2]
  | object members =>
    rw [Value.All] at h
    rw [render, renderMembers_of_plain s members h.2]
  | _ => rw [render] <;> simp

theorem renderItems_of_plain (s : Sources) (items : List Value) (h : Value.AllItems IsPlain items) :
    renderItems s items = items := by
  cases items with
  | nil => rfl
  | cons v rest =>
    rw [Value.AllItems] at h
    rw [renderItems, render_of_plain s v h.1, renderItems_of_plain s rest h.2]

theorem renderMembers_of_plain (s : Sources) (members : Members)
    (h : Value.AllMembers IsPlain members) : renderMembers s members = members := by
  match members with
  | [] => rfl
  | (key, v) :: rest =>
    rw [Value.AllMembers] at h
    rw [renderMembers, render_of_plain s v h.1, renderMembers_of_plain s rest h.2]

end

/-- A text that is one placeholder becomes the value itself. Any other is cut once, and each
placeholder of it is replaced by the text of its value. A template is rendered string by string;
without a placeholder it stays as it is. -/
theorem renders_once (s : Sources) :
    (∀ text path, IsPlaceholder text path →
      renderString text s = (s.resolve (String.ofList (Text.trimChars path))).getD .null) ∧
    (∀ text, (∀ path, ¬ IsPlaceholder text path) → (∃ fragments, Cut text.toList fragments) ∧
      ∀ fragments, Cut text.toList fragments →
        renderString text s = .string (String.ofList (fragments.flatMap (Fragment.filled s)))) ∧
    (∀ (template part : Value) address, template.at? address = some part →
      ∃ new, (render s template).at? address = some new ∧ Renders s part new) ∧
    ∀ template : Value, template.All IsPlain → render s template = template := by
  refine ⟨fun text path h ↦ renderString_of_isPlaceholder h s, fun text hnot ↦ ?_,
    fun template part address h ↦ ?_, fun template h ↦ render_of_plain s template h⟩
  · exact ⟨exists_cut text.toList, fun fragments h ↦ renderString_of_cut hnot h s⟩
  · exact ⟨_, at?_render h, renders_render s part⟩

/-- A whole placeholder in blank space, a text with placeholders side by side, one without a value
and one that is not closed, a value that looks like a placeholder, and a text within an array. -/
theorem renders_once_report :
    let s : Sources := ⟨some (.object [("a", .string "$\x7bmeta\x7d")]), .object [("n", .bool true)]⟩
    let text := "$\x7ba\x7d$\x7bmeta.n\x7d: $\x7bnone\x7d$\x7ba"
    IsPlaceholder " $\x7b meta.n \x7d " [' ', 'm', 'e', 't', 'a', '.', 'n', ' '] ∧
      renderString " $\x7b meta.n \x7d " s = .bool true ∧
      (∀ path, ¬ IsPlaceholder text path) ∧
      renderString text s = .string "$\x7bmeta\x7dtrue: $\x7ba" ∧
      (∃ new, (render s (.array [.null, .string text])).at? [.item 1] = some new ∧
        Renders s (.string text) new) ∧
      (Value.array [.string "$"]).All IsPlain ∧
      render s (.array [.string "$"]) = .array [.string "$"] := by
  intro s text
  have hwhole : IsPlaceholder " $\x7b meta.n \x7d " [' ', 'm', 'e', 't', 'a', '.', 'n', ' '] :=
    isPlaceholder_iff.2 (by decide +kernel)
  have hnot (path : List Char) : ¬ IsPlaceholder text path := fun h ↦ by
    have hnone : whole? (Text.trimChars text.toList) = none := by decide +kernel
    cases hnone.symm.trans (isPlaceholder_iff.1 h)
  have hcut : Cut text.toList [.literal [], .placeholder ['a'], .literal [],
      .placeholder ['m', 'e', 't', 'a', '.', 'n'], .literal [':', ' '],
      .placeholder ['n', 'o', 'n', 'e'], .literal ['$', '{', 'a']] := by
    have hplain : ¬ opening <:+: [] ++ ['$'] := by decide
    have hopen : ¬ opening <:+: [':', ' '] ++ ['$'] := by decide
    have hrest : Cut ([] ++ (opening ++ ['a'])) _ := .unclosed hplain (by decide)
    have htext : text.toList = [] ++ (opening ++ (['a'] ++ '}' ::
        ([] ++ (opening ++ (['m', 'e', 't', 'a', '.', 'n'] ++ '}' ::
          ([':', ' '] ++ (opening ++ (['n', 'o', 'n', 'e'] ++ '}' ::
            ([] ++ (opening ++ ['a'])))))))))) := by decide +kernel
    rw [htext]
    exact .placeholder hplain (by decide) (.placeholder hplain (by decide)
      (.placeholder hopen (by decide) hrest))
  have hplain : (Value.array [.string "$"]).All IsPlain := by
    simp [Value.All, Value.AllItems]
    decide +kernel
  obtain ⟨hvalue, htext, hat, hsame⟩ := renders_once s
  refine ⟨hwhole, (hvalue _ _ hwhole).trans ?_, hnot, ((htext text hnot).2 _ hcut).trans ?_,
    hat _ _ _ rfl, hplain, hsame _ hplain⟩
  · decide +kernel
  · decide +kernel

end Conduit.Template
