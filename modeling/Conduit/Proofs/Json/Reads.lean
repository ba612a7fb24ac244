import Conduit.Json.Record
import Conduit.Proofs.Json.RoundTrip

/-!
# Readers of known shapes on spelled values

That a reader takes the text of a value to what the value means (`Json.Reads`) is shown part by
part: a list by its items (`Json.reads_list`), an object by what the step function makes of its
members one after the other (`Json.Takes`, `Json.reads_object`).
-/

namespace Conduit.Json

open Utf8

variable {α β σ : Type}

/-- The reader takes the text of the value, with whatever follows it, to `a`. -/
def Reads (L : Layout) (d : Nat) (reader : Reader α) (v : Value) (a : α) : Prop :=
  ∀ ⦃s rest : Bytes⦄, Ends rest →
    skipSpace s = skipSpace (encodeChars (spell L d v) ++ rest) → reader s = .ok (a, rest)

variable {L : Layout} {d depth : Nat}

theorem length_skipSpace_le (s : Bytes) : (skipSpace s).length ≤ s.length := by
  induction s with
  | nil => exact Nat.le_refl _
  | cons b s ih =>
    rw [skipSpace]
    split
    · exact Nat.le_succ_of_le ih
    · exact Nat.le_refl _

/-- Any value is read as itself. -/
theorem reads_value {v : Value} (hdepth : v.nesting ≤ depth) (hwhole : v.AllWhole)
    (hdistinct : v.Distinct) :
    Reads L d (fun s ↦ readValue (2 * s.length + 2) depth s) v v := by
  intro s rest hrest hs
  refine readValue_spell L d v hs ?_ hdepth hwhole hdistinct hrest
  obtain ⟨b, bs, hbytes, hspace, -⟩ := encodeChars_spell_eq_cons L d hwhole
  have hlen := length_skipSpace_le s
  rw [hs, hbytes, List.cons_append, skipSpace_cons hspace, ← List.cons_append, ← hbytes,
    List.length_append] at hlen
  omega

/-! ## Strings -/

theorem reads_string (t : String) : Reads L d (readScalar .string) (.string t) t := by
  intro s rest _ hs
  rw [spell, encodeChars_writeString, skipSpace_cons rfl] at hs
  rw [readScalar, hs]
  dsimp only
  rw [if_neg (by decide), readValue_string, readString_written]
  rfl

/-! ## Lists -/

section

variable {item : Reader α} {fuel : Nat}

theorem nextItem_first {s more : Bytes} {c : UInt8} (h : skipSpace s = c :: more) (hc : c ≠ 0x5d) :
    nextItem true s = .ok (some (c :: more)) := by
  simp [nextItem, h, hc]

theorem nextItem_comma {s more : Bytes} {c : UInt8} (h : skipSpace s = c :: more) (hc : c ≠ 0x5d) :
    nextItem false (0x2c :: s) = .ok (some (c :: more)) := by
  simp [nextItem, skipSpace_cons (show isSpace 0x2c = false from rfl), h, hc]

theorem nextItem_close {first : Bool} {s more : Bytes} (h : skipSpace s = 0x5d :: more) :
    nextItem first s = .ok none := by
  simp [nextItem, h]

theorem closeList_close {s more : Bytes} (h : skipSpace s = 0x5d :: more) :
    closeList s = .ok more := by
  simp [closeList, h]

/-- Behind a comma the items go on as they began. -/
theorem readItemsOf_comma {s more : Bytes} {c : UInt8} (h : skipSpace s = c :: more)
    (hc : c ≠ 0x5d) :
    readItemsOf item (fuel + 1) false (0x2c :: s) = readItemsOf item (fuel + 1) true s := by
  rw [readItemsOf, readItemsOf, nextItem_first h hc, nextItem_comma h hc]
  rfl

theorem readItemsOf_close {first : Bool} {s more : Bytes} (h : skipSpace s = 0x5d :: more) :
    readItemsOf item (fuel + 1) first s = .ok ([], more) := by
  rw [readItemsOf, nextItem_close h]
  change (closeList s).bind _ = _
  rw [closeList_close h]
  rfl

theorem readItemsOf_cons {s more rest : Bytes} {c : UInt8} {a : α} (h : skipSpace s = c :: more)
    (hc : c ≠ 0x5d) (hitem : item (c :: more) = .ok (a, rest)) :
    readItemsOf item (fuel + 1) true s =
      (readItemsOf item fuel false rest).map fun r ↦ (a :: r.1, r.2) := by
  rw [readItemsOf, nextItem_first h hc]
  change (item (c :: more)).bind _ = _
  rw [hitem]
  rfl

theorem readItemsOf_spell {vs : List Value} {as : List α}
    (h : List.Forall₂ (Reads L d item) vs as) (hwhole : ∀ v ∈ vs, v.AllWhole)
    (hfuel : vs.length < fuel) {tail rest : Bytes} (hclose : skipSpace tail = 0x5d :: rest)
    (htail : Ends tail) :
    readItemsOf item fuel true (encodeChars (spellItems L d vs) ++ tail) = .ok (as, rest) := by
  induction h generalizing fuel with
  | nil =>
    obtain ⟨fuel, rfl⟩ : ∃ n, fuel = n + 1 := ⟨fuel - 1, by simp at hfuel; omega⟩
    rw [spellItems]
    exact readItemsOf_close hclose
  | @cons v a vs as hitem hitems ih =>
    rw [List.length_cons] at hfuel
    obtain ⟨fuel, rfl⟩ : ∃ n, fuel = n + 1 + 1 := ⟨fuel - 2, by omega⟩
    obtain ⟨c, more, hnext, hc⟩ :=
      skipSpace_spellItems L d (hwhole v List.mem_cons_self) vs tail
    cases hitems with
    | nil =>
      have hread : item (c :: more) = .ok (a, tail) := by
        refine hitem htail ?_
        rw [← hnext, skipSpace_skipSpace, encodeChars_spellItems_one,
          skipSpace_blank (L.blank_line d)]
      rw [readItemsOf_cons hnext hc hread, readItemsOf_close hclose]
      rfl
    | @cons w b ws bs hw hws =>
      obtain ⟨c', more', hnext', hc'⟩ := skipSpace_spellItems L d
        (hwhole w (List.mem_cons_of_mem _ List.mem_cons_self)) ws tail
      have hread : item (c :: more) =
          .ok (a, 0x2c :: (encodeChars (spellItems L d (w :: ws)) ++ tail)) := by
        refine hitem (ends_cons (by decide) _) ?_
        rw [← hnext, skipSpace_skipSpace, encodeChars_spellItems_cons,
          skipSpace_blank (L.blank_line d)]
      rw [readItemsOf_cons hnext hc hread, readItemsOf_comma hnext' hc',
        ih (fun x hx ↦ hwhole x (List.mem_cons_of_mem _ hx)) (Nat.lt_of_succ_lt_succ hfuel)]
      rfl

theorem length_le_spellItems {vs : List Value} (hwhole : ∀ v ∈ vs, v.AllWhole) :
    vs.length ≤ (encodeChars (spellItems L d vs)).length := by
  induction vs with
  | nil => exact Nat.zero_le _
  | cons v vs ih =>
    obtain ⟨b, bs, hbytes, -⟩ := encodeChars_spell_eq_cons L d (hwhole v List.mem_cons_self)
    cases vs with
    | nil =>
      simp only [spellItems, encodeChars_append, List.length_append, hbytes, List.length_cons,
        List.length_nil]
      omega
    | cons w vs =>
      have hrest := ih fun x hx ↦ hwhole x (List.mem_cons_of_mem _ hx)
      simp only [spellItems, encodeChars_append, encodeChars_cons, List.length_append, hbytes,
        List.length_cons] at hrest ⊢
      omega

/-- A list is read item by item. -/
theorem reads_list {item : (depth : Nat) → Reader α} {vs : List Value} {as : List α}
    (hdepth : (Value.array vs).nesting ≤ depth) (hwhole : (Value.array vs).AllWhole)
    (h : ∀ depth', depth = depth' + 1 → List.Forall₂ (Reads L (d + 1) (item depth')) vs as) :
    Reads L d (readList depth item) (.array vs) as := by
  intro s rest _ hs
  obtain ⟨depth, rfl⟩ : ∃ n, depth = n + 1 :=
    ⟨depth - 1, by simp [Value.nesting] at hdepth; omega⟩
  have hitems := h depth rfl
  cases vs with
  | nil =>
    obtain rfl := List.forall₂_nil_left_iff.1 hitems
    have hs : skipSpace s = 0x5b :: 0x5d :: rest := by
      rw [hs, spell]
      exact skipSpace_cons rfl _
    rw [readList, hs]
    exact readItemsOf_close (skipSpace_cons rfl _)
  | cons v vs =>
    rw [encodeChars_spell_array, skipSpace_cons rfl] at hs
    have hlen := length_le_spellItems (L := L) (d := d + 1) (Value.allWhole_array.1 hwhole)
    rw [readList, hs]
    refine readItemsOf_spell hitems (Value.allWhole_array.1 hwhole) ?_ ?_ ?_
    · rw [List.length_append]
      omega
    · rw [skipSpace_blank (L.blank_line d), skipSpace_cons rfl]
    · exact (ends_cons (by decide) rest).blank (L.blank_line d)

end

/-! ## Objects -/

section

variable {step : σ → String → Bytes → Except Fault (σ × Bytes)} {fuel : Nat}

theorem readColon_colon (s : Bytes) : readColon (0x3a :: s) = .ok s := by
  rw [readColon, skipSpace_cons rfl]
  rfl

/-- A field that has not come before. -/
theorem readField_spell {reader : Reader α} {v : Value} {a : α} (h : Reads L d reader v a)
    (name : String) {rest : Bytes} (hrest : Ends rest) :
    readField name none reader
      (0x3a :: (encodeChars L.gap ++ (encodeChars (spell L d v) ++ rest))) =
        .ok (some a, rest) := by
  unfold readField
  rw [readColon_colon]
  change (reader _).bind _ = _
  rw [h hrest (skipSpace_blank L.blank_gap _)]
  rfl

/-- The step function takes the spelled members one after the other, each from its colon on. -/
inductive Takes (L : Layout) (d : Nat) (step : σ → String → Bytes → Except Fault (σ × Bytes)) :
    σ → Members → σ → Prop
  | nil (a : σ) : Takes L d step a [] a
  | cons {a b c : σ} {key : String} {v : Value} {ms : Members}
      (first : ∀ rest, Ends rest →
        step a key (0x3a :: (encodeChars L.gap ++ (encodeChars (spell L d v) ++ rest))) =
          .ok (b, rest))
      (others : Takes L d step b ms c) : Takes L d step a ((key, v) :: ms) c

theorem Takes.append {a b c : σ} {ms ns : Members} (h : Takes L d step a ms b)
    (h' : Takes L d step b ns c) : Takes L d step a (ms ++ ns) c := by
  induction h with
  | nil => exact h'
  | cons first _ ih => exact .cons first (ih h')

theorem foldMembers_close {first : Bool} {a : σ} {s more : Bytes} (h : skipSpace s = 0x7d :: more) :
    foldMembers step (fuel + 1) first a s = .ok (a, 0x7d :: more) := by
  rw [foldMembers, h]
  rfl

/-- Behind a comma the members go on as they began. -/
theorem foldMembers_comma {a : σ} {s more : Bytes} (h : skipSpace s = 0x22 :: more) :
    foldMembers step (fuel + 1) false a (0x2c :: s) = foldMembers step (fuel + 1) true a s := by
  rw [foldMembers, foldMembers, h, skipSpace_cons rfl]
  simp [h]

theorem foldMembers_cons {a b : σ} {key : String} {s more colon rest : Bytes}
    (h : skipSpace s = 0x22 :: more) (hkey : readString more = .ok (key, colon))
    (hstep : step a key colon = .ok (b, rest)) :
    foldMembers step (fuel + 1) true a s = foldMembers step fuel false b rest := by
  rw [foldMembers, h]
  dsimp only
  rw [if_neg (by decide), if_pos rfl, if_pos rfl, hkey]
  change (step a key colon).bind _ = _
  rw [hstep]
  rfl

theorem foldMembers_spell {a b : σ} {ms : Members} (h : Takes L d step a ms b)
    (hfuel : ms.length < fuel) {tail rest : Bytes} (hclose : skipSpace tail = 0x7d :: rest)
    (htail : Ends tail) :
    foldMembers step fuel true a (encodeChars (spellMembers L d ms) ++ tail) =
      .ok (b, 0x7d :: rest) := by
  induction h generalizing fuel with
  | nil a =>
    obtain ⟨fuel, rfl⟩ : ∃ n, fuel = n + 1 := ⟨fuel - 1, by simp at hfuel; omega⟩
    rw [spellMembers]
    exact foldMembers_close hclose
  | @cons a b c key v ms first others ih =>
    rw [List.length_cons] at hfuel
    obtain ⟨fuel, rfl⟩ : ∃ n, fuel = n + 1 + 1 := ⟨fuel - 2, by omega⟩
    cases others with
    | nil =>
      rw [encodeChars_spellMembers_one, foldMembers_cons (skipSpace_key (L.blank_line d) key _)
        (readString_written key _) (first tail htail), foldMembers_close hclose]
    | @cons _ b' _ key' w ms first' others =>
      obtain ⟨more, hnext⟩ := skipSpace_spellMembers L d (key', w) ms tail
      rw [encodeChars_spellMembers_cons, foldMembers_cons (skipSpace_key (L.blank_line d) key _)
        (readString_written key _) (first _ (ends_cons (by decide) _)), foldMembers_comma hnext,
        ih (Nat.lt_of_succ_lt_succ hfuel)]

theorem length_le_spellMembers (ms : Members) :
    ms.length ≤ (encodeChars (spellMembers L d ms)).length := by
  induction ms with
  | nil => exact Nat.zero_le _
  | cons m ms ih =>
    obtain ⟨key, v⟩ := m
    have hkey := congrArg List.length (encodeChars_writeString key [])
    simp only [List.append_nil, List.length_cons] at hkey
    cases ms with
    | nil =>
      simp only [spellMembers, encodeChars_append, List.length_append, List.length_cons,
        List.length_nil]
      omega
    | cons n ms =>
      simp only [spellMembers, encodeChars_append, encodeChars_cons, List.length_append,
        List.length_cons] at ih ⊢
      omega

/-- An object is read member by member. -/
theorem reads_object {expected : String} {start : σ}
    {step : (depth : Nat) → σ → String → Bytes → Except Fault (σ × Bytes)}
    {finish : σ → Except Mismatch α} {ms : Members} {state : σ} {a : α}
    (h : Takes L (d + 1) (step depth) start ms state) (hfinish : finish state = .ok a) :
    Reads L d (readObject expected (depth + 1) start step finish) (.object ms) a := by
  intro s rest _ hs
  obtain ⟨inside, hs, hfold⟩ : ∃ inside, skipSpace s = 0x7b :: inside ∧
      foldMembers (step depth) (inside.length + 1) true start inside =
        .ok (state, 0x7d :: rest) := by
    cases ms with
    | nil =>
      cases h
      refine ⟨0x7d :: rest, ?_, foldMembers_close (skipSpace_cons rfl _)⟩
      rw [hs, spell]
      exact skipSpace_cons rfl _
    | cons m ms =>
      rw [encodeChars_spell_object, skipSpace_cons rfl] at hs
      refine ⟨_, hs, foldMembers_spell h ?_ ?_ ?_⟩
      · have hlen := length_le_spellMembers (L := L) (d := d + 1) (m :: ms)
        rw [List.length_append]
        omega
      · rw [skipSpace_blank (L.blank_line d), skipSpace_cons rfl]
      · exact (ends_cons (by decide) rest).blank (L.blank_line d)
  have hbrace : closeObject (0x7d :: rest) = .ok rest := by
    rw [closeObject, skipSpace_cons rfl]
    rfl
  rw [readObject, hs]
  change (foldMembers _ _ true start inside).bind _ = _
  rw [hfold]
  dsimp only [Except.bind]
  rw [hfinish]
  change (closeObject _).bind _ = _
  rw [hbrace]
  rfl

/-- A record is written as an object. -/
theorem reads_record {expected : String} {start : σ}
    {step : (depth : Nat) → σ → String → Bytes → Except Fault (σ × Bytes)}
    {finish : σ → Except Mismatch α} {items : (depth : Nat) → Reader α} {ms : Members} {state : σ}
    {a : α} (h : Takes L (d + 1) (step depth) start ms state) (hfinish : finish state = .ok a) :
    Reads L d (readRecord expected (depth + 1) start step finish items) (.object ms) a := by
  intro s rest hrest hs
  obtain ⟨inside, hbrace⟩ : ∃ inside, skipSpace s = 0x7b :: inside := by
    cases ms with
    | nil => exact ⟨_, hs.trans (by rw [spell]; exact skipSpace_cons rfl _)⟩
    | cons m ms => exact ⟨_, hs.trans (by rw [encodeChars_spell_object]; exact skipSpace_cons rfl _)⟩
  have hreads : Reads L d (readObject expected (depth + 1) start step finish) (.object ms) a :=
    reads_object h hfinish
  have hobject := hreads hrest ((skipSpace_skipSpace s).trans hs)
  rw [readRecord]
  rw [hbrace] at hobject ⊢
  exact hobject

end

end Conduit.Json
