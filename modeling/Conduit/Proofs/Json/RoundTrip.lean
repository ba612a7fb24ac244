import Conduit.Proofs.Json.Layout
import Conduit.Proofs.Json.Parts
import Conduit.Proofs.Json.Scalars

/-!
# Values read back

A value with distinct keys and whole numbers that nests no deeper than the reader allows is read
back from its text, in whatever layout it is written (`Json.readValue_spell`) and also as a whole
text (`Json.parse_spell`).
-/

namespace Conduit.Json

open Utf8

/-! ## What a value begins and ends with -/

theorem ends_cons {b : UInt8} (h : isDigit b = false ∧ b ≠ 0x2e ∧ b ≠ 0x65 ∧ b ≠ 0x45)
    (s : Bytes) : Ends (b :: s) := fun _ hb ↦ Option.some.inj hb ▸ h

theorem Ends.blank {cs : List Char} (h : IsBlank cs) {s : Bytes} (hs : Ends s) :
    Ends (encodeChars cs ++ s) := by
  cases cs with
  | nil => exact hs
  | cons c cs =>
    rcases h c List.mem_cons_self with rfl | rfl | rfl | rfl <;> exact ends_cons (by decide) _

theorem digitBytes_eq_cons (n : Nat) : ∃ b bs, digitBytes n = b :: bs ∧ isDigit b = true := by
  obtain ⟨c, cs, hcs⟩ := List.exists_cons_of_ne_nil (Nat.toDigits_ne_nil (n := n) (b := 10))
  refine ⟨asciiByte c, cs.map asciiByte, by rw [digitBytes, hcs]; rfl, ?_⟩
  exact isDigit_asciiByte (isDigit_of_mem_toDigits (hcs ▸ List.mem_cons_self))

theorem encodeChars_writeWhole (n : Int) : encodeChars (writeWhole n) =
    if n < 0 then 0x2d :: digitBytes n.natAbs else digitBytes n.natAbs := by
  unfold writeWhole
  split
  · rw [encodeChars_cons, encodeChars_toDigits]
    rfl
  · exact encodeChars_toDigits _

/-- The first byte of a value is neither blank nor a closing bracket. -/
theorem encodeChars_spell_eq_cons (L : Layout) (d : Nat) {v : Value} (h : v.AllWhole) :
    ∃ b bs, encodeChars (spell L d v) = b :: bs ∧ isSpace b = false ∧ b ≠ 0x5d ∧ b ≠ 0x7d := by
  match v with
  | .null => exact ⟨_, _, by rw [spell]; rfl, by decide⟩
  | .bool true => exact ⟨_, _, by rw [spell]; rfl, by decide⟩
  | .bool false => exact ⟨_, _, by rw [spell]; rfl, by decide⟩
  | .string s => exact ⟨_, _, by rw [spell]; rfl, by decide⟩
  | .array [] => exact ⟨_, _, by rw [spell]; rfl, by decide⟩
  | .array (v :: rest) => exact ⟨_, _, by rw [spell]; rfl, by decide⟩
  | .object [] => exact ⟨_, _, by rw [spell]; rfl, by decide⟩
  | .object (m :: rest) => exact ⟨_, _, by rw [spell]; rfl, by decide⟩
  | .number (.whole n) =>
    rw [spell, writeNumber, encodeChars_writeWhole]
    split
    · exact ⟨_, _, rfl, by decide⟩
    · obtain ⟨b, bs, hbytes, hdigit⟩ := digitBytes_eq_cons n.val.natAbs
      refine ⟨b, bs, hbytes, Bool.eq_false_iff.2 fun hspace ↦ ?_, ?_, ?_⟩
      · simp only [isSpace, Bool.or_eq_true, beq_iff_eq] at hspace
        rcases hspace with ((rfl | rfl) | rfl) | rfl <;> exact absurd hdigit (by decide)
      · rintro rfl
        exact absurd hdigit (by decide)
      · rintro rfl
        exact absurd hdigit (by decide)
  | .number (.double d) => exact absurd h (by simp [Value.AllWhole])

/-! ## The reader, by what comes next -/

variable {fuel depth : Nat}

/-- Blank space in front of a value does not matter. -/
theorem readValue_congr {s t : Bytes} (h : skipSpace s = skipSpace t) :
    readValue (fuel + 1) depth s = readValue (fuel + 1) depth t := by
  rw [readValue, readValue, h]

theorem readValue_string (s : Bytes) : readValue (fuel + 1) depth (0x22 :: s) =
    (readString s).map fun r ↦ (.string r.1, r.2) := by
  rw [readValue]
  rfl

theorem readValue_digits {n : Nat} (hn : n < 0x10000000000000000) {rest : Bytes} (h : Ends rest) :
    readValue (fuel + 1) depth (digitBytes n ++ rest) =
      (wholeOrDouble false n rest).map fun r ↦ (.number r.1, r.2) := by
  rw [← readNumber_digits hn h]
  obtain ⟨b, bs, hbytes, hdigit⟩ := digitBytes_eq_cons n
  have hne {c : UInt8} (hc : isDigit c = false) : b ≠ c :=
    fun heq ↦ absurd (heq ▸ hdigit) (by simp [hc])
  have hspace : isSpace b = false := by
    simp [isSpace, hne (c := 0x20), hne (c := 0x0a), hne (c := 0x09), hne (c := 0x0d), isDigit]
  rw [hbytes, List.cons_append, readValue, skipSpace_cons hspace]
  dsimp only
  rw [if_neg (hne rfl), if_neg (hne rfl), if_neg (hne rfl), if_neg (hne rfl), if_pos hdigit]

theorem readValue_minus (s : Bytes) : readValue (fuel + 1) depth (0x2d :: s) =
    (readNumber true s).map fun r ↦ (.number r.1, r.2) := by
  rw [readValue]
  rfl

/-- A whole number is read back. -/
theorem readValue_whole (n : Whole) {rest : Bytes} (h : Ends rest) :
    readValue (fuel + 1) depth (encodeChars (writeWhole n.val) ++ rest) =
      .ok (.number (.whole n), rest) := by
  have hn : n.val.natAbs < 0x10000000000000000 := by
    have := n.property
    omega
  rw [encodeChars_writeWhole]
  split
  · rename_i hneg
    rw [List.cons_append, readValue_minus, readNumber_digits hn h,
      wholeOrDouble_natAbs (by simp [hneg])]
    rfl
  · rename_i hneg
    rw [readValue_digits hn h, wholeOrDouble_natAbs (by simp [hneg])]
    rfl

theorem readValue_written (s : String) (rest : Bytes) :
    readValue (fuel + 1) depth (encodeChars (writeString s) ++ rest) = .ok (.string s, rest) := by
  rw [encodeChars_writeString, readValue_string, readString_written]
  rfl

theorem readValue_array {c : UInt8} {s more : Bytes} (h : skipSpace s = c :: more)
    (hc : c ≠ 0x5d) : readValue (fuel + 1) (depth + 1) (0x5b :: s) =
      (readItems fuel depth (c :: more)).map fun r ↦ (.array r.1, r.2) := by
  rw [readValue, skipSpace_cons rfl]
  simp [h, hc, isDigit]

theorem readValue_object {s more : Bytes} (h : skipSpace s = 0x22 :: more) :
    readValue (fuel + 1) (depth + 1) (0x7b :: s) =
      (readMembers fuel depth more).map fun r ↦ (.object (Members.ofList r.1), r.2) := by
  rw [readValue, skipSpace_cons rfl]
  simp [h, isDigit]

/-- The last item. -/
theorem readItems_last {s rest more : Bytes} {v : Value}
    (hv : readValue fuel depth s = .ok (v, rest)) (h : skipSpace rest = 0x5d :: more) :
    readItems (fuel + 1) depth s = .ok ([v], more) := by
  rw [readItems, hv]
  simp [h]

/-- An item with another one behind it. -/
theorem readItems_more {s rest more after : Bytes} {d : UInt8} {v : Value}
    (hv : readValue fuel depth s = .ok (v, rest)) (h : skipSpace rest = 0x2c :: more)
    (hd : skipSpace more = d :: after) (hne : d ≠ 0x5d) :
    readItems (fuel + 1) depth s =
      (readItems fuel depth (d :: after)).map fun r ↦ (v :: r.1, r.2) := by
  rw [readItems, hv]
  simp [h, hd, hne]

/-- The last member. -/
theorem readMembers_last {s colon rest more : Bytes} {key : String} {v : Value}
    (hkey : readString s = .ok (key, 0x3a :: colon))
    (hv : readValue fuel depth colon = .ok (v, rest)) (h : skipSpace rest = 0x7d :: more) :
    readMembers (fuel + 1) depth s = .ok ([(key, v)], more) := by
  rw [readMembers, hkey]
  dsimp only
  rw [skipSpace_cons rfl]
  simp [hv, h]

/-- A member with another one behind it. -/
theorem readMembers_more {s colon rest more after : Bytes} {key : String} {v : Value}
    (hkey : readString s = .ok (key, 0x3a :: colon))
    (hv : readValue fuel depth colon = .ok (v, rest)) (h : skipSpace rest = 0x2c :: more)
    (hd : skipSpace more = 0x22 :: after) :
    readMembers (fuel + 1) depth s =
      (readMembers fuel depth after).map fun r ↦ ((key, v) :: r.1, r.2) := by
  rw [readMembers, hkey]
  dsimp only
  rw [skipSpace_cons rfl]
  simp [hv, h, hd]

/-! ## Values in a layout -/

/-- Blank space, a string and a colon: the key of a member. -/
theorem skipSpace_key {cs : List Char} (h : IsBlank cs) (key : String) (s : Bytes) :
    skipSpace (encodeChars cs ++ (encodeChars (writeString key) ++ s)) =
      0x22 :: (encodeChars (key.toList.flatMap escapeChar) ++ 0x22 :: s) := by
  rw [skipSpace_blank h, encodeChars_writeString, skipSpace_cons rfl]

section

variable (L : Layout) (d : Nat)

theorem encodeChars_spell_array (v : Value) (items : List Value) (s : Bytes) :
    encodeChars (spell L d (.array (v :: items))) ++ s =
      0x5b :: (encodeChars (spellItems L (d + 1) (v :: items)) ++
        (encodeChars (L.line d) ++ 0x5d :: s)) := by
  simp [spell, show String.utf8EncodeChar '[' = [0x5b] from rfl,
    show String.utf8EncodeChar ']' = [0x5d] from rfl]

theorem encodeChars_spell_object (m : String × Value) (members : Members) (s : Bytes) :
    encodeChars (spell L d (.object (m :: members))) ++ s =
      0x7b :: (encodeChars (spellMembers L (d + 1) (m :: members)) ++
        (encodeChars (L.line d) ++ 0x7d :: s)) := by
  simp [spell, show String.utf8EncodeChar '\x7b' = [0x7b] from rfl,
    show String.utf8EncodeChar '\x7d' = [0x7d] from rfl]

theorem encodeChars_spellItems_one (v : Value) (s : Bytes) :
    encodeChars (spellItems L d [v]) ++ s =
      encodeChars (L.line d) ++ (encodeChars (spell L d v) ++ s) := by
  simp [spellItems]

theorem encodeChars_spellItems_cons (v w : Value) (items : List Value) (s : Bytes) :
    encodeChars (spellItems L d (v :: w :: items)) ++ s =
      encodeChars (L.line d) ++ (encodeChars (spell L d v) ++
        0x2c :: (encodeChars (spellItems L d (w :: items)) ++ s)) := by
  simp [spellItems, show String.utf8EncodeChar ',' = [0x2c] from rfl]

theorem encodeChars_spellMembers_one (k : String) (v : Value) (s : Bytes) :
    encodeChars (spellMembers L d [(k, v)]) ++ s =
      encodeChars (L.line d) ++ (encodeChars (writeString k) ++
        0x3a :: (encodeChars L.gap ++ (encodeChars (spell L d v) ++ s))) := by
  simp [spellMembers, show String.utf8EncodeChar ':' = [0x3a] from rfl]

theorem encodeChars_spellMembers_cons (k : String) (v : Value) (m : String × Value)
    (members : Members) (s : Bytes) :
    encodeChars (spellMembers L d ((k, v) :: m :: members)) ++ s =
      encodeChars (L.line d) ++ (encodeChars (writeString k) ++
        0x3a :: (encodeChars L.gap ++ (encodeChars (spell L d v) ++
          0x2c :: (encodeChars (spellMembers L d (m :: members)) ++ s)))) := by
  simp [spellMembers, show String.utf8EncodeChar ':' = [0x3a] from rfl,
    show String.utf8EncodeChar ',' = [0x2c] from rfl]

end

/-- The first item comes next. -/
theorem skipSpace_spellItems (L : Layout) (d : Nat) {v : Value} (h : v.AllWhole)
    (items : List Value) (s : Bytes) :
    ∃ b bs, skipSpace (encodeChars (spellItems L d (v :: items)) ++ s) = b :: bs ∧ b ≠ 0x5d := by
  obtain ⟨b, bs, hbytes, hspace, hne, -⟩ := encodeChars_spell_eq_cons L d h
  cases items with
  | nil =>
    rw [encodeChars_spellItems_one, skipSpace_blank (L.blank_line d), hbytes, List.cons_append,
      skipSpace_cons hspace]
    exact ⟨b, _, rfl, hne⟩
  | cons w items =>
    rw [encodeChars_spellItems_cons, skipSpace_blank (L.blank_line d), hbytes, List.cons_append,
      skipSpace_cons hspace]
    exact ⟨b, _, rfl, hne⟩

/-- The first key comes next. -/
theorem skipSpace_spellMembers (L : Layout) (d : Nat) (m : String × Value) (members : Members)
    (s : Bytes) :
    ∃ bs, skipSpace (encodeChars (spellMembers L d (m :: members)) ++ s) = 0x22 :: bs := by
  cases members with
  | nil =>
    rw [encodeChars_spellMembers_one, skipSpace_key (L.blank_line d)]
    exact ⟨_, rfl⟩
  | cons n members =>
    rw [encodeChars_spellMembers_cons, skipSpace_key (L.blank_line d)]
    exact ⟨_, rfl⟩

mutual

/-- A value is read back from its text, whatever follows that ends it. -/
theorem readValue_spell (L : Layout) (d : Nat) (v : Value) {fuel depth : Nat} {s rest : Bytes}
    (hs : skipSpace s = skipSpace (encodeChars (spell L d v) ++ rest))
    (hfuel : (encodeChars (spell L d v)).length ≤ fuel) (hdepth : v.nesting ≤ depth)
    (hwhole : v.AllWhole) (hdistinct : v.Distinct) (hrest : Ends rest) :
    readValue fuel depth s = .ok (v, rest) := by
  obtain ⟨b, bs, hbytes, -⟩ := encodeChars_spell_eq_cons L d hwhole
  obtain ⟨fuel, rfl⟩ : ∃ n, fuel = n + 1 := ⟨fuel - 1, by simp [hbytes] at hfuel; omega⟩
  clear hbytes
  rw [readValue_congr hs]
  clear hs
  match v with
  | .null =>
    rw [spell, readValue]
    rfl
  | .bool true =>
    rw [spell, readValue]
    rfl
  | .bool false =>
    rw [spell, readValue]
    rfl
  | .number (.whole n) =>
    rw [spell, writeNumber]
    exact readValue_whole n hrest
  | .number (.double _) => exact absurd hwhole (by simp [Value.AllWhole])
  | .string s =>
    rw [spell]
    exact readValue_written s rest
  | .array [] =>
    obtain ⟨depth, rfl⟩ : ∃ n, depth = n + 1 := ⟨depth - 1, by simp [Value.nesting] at hdepth; omega⟩
    rw [spell, readValue]
    rfl
  | .object [] =>
    obtain ⟨depth, rfl⟩ : ∃ n, depth = n + 1 := ⟨depth - 1, by simp [Value.nesting] at hdepth; omega⟩
    rw [spell, readValue]
    rfl
  | .array (v :: items) =>
    obtain ⟨depth, rfl⟩ : ∃ n, depth = n + 1 := ⟨depth - 1, by simp [Value.nesting] at hdepth; omega⟩
    have hlen := congrArg List.length (encodeChars_spell_array L d v items [])
    rw [List.append_nil] at hlen
    rw [encodeChars_spell_array]
    generalize htail : encodeChars (L.line d) ++ 0x5d :: rest = tail
    have hclose : skipSpace tail = 0x5d :: rest := by
      rw [← htail, skipSpace_blank (L.blank_line d), skipSpace_cons rfl]
    have hends : Ends tail := htail ▸ (ends_cons (by decide) rest).blank (L.blank_line d)
    obtain ⟨c, more, hnext, hc⟩ := skipSpace_spellItems L (d + 1)
      (Value.allWhole_array.1 hwhole v List.mem_cons_self) items tail
    rw [readValue_array hnext hc, readItems_spell L (d + 1) (v :: items) (List.cons_ne_nil _ _)
      (by rw [← hnext, skipSpace_skipSpace]) hclose hends (by simp at hlen; omega)
      (Value.nesting_array_le_iff.1 hdepth) (Value.allWhole_array.1 hwhole)
      (Value.distinct_array.1 hdistinct)]
    rfl
  | .object (m :: members) =>
    obtain ⟨depth, rfl⟩ : ∃ n, depth = n + 1 := ⟨depth - 1, by simp [Value.nesting] at hdepth; omega⟩
    have hlen := congrArg List.length (encodeChars_spell_object L d m members [])
    rw [List.append_nil] at hlen
    rw [encodeChars_spell_object]
    generalize htail : encodeChars (L.line d) ++ 0x7d :: rest = tail
    have hclose : skipSpace tail = 0x7d :: rest := by
      rw [← htail, skipSpace_blank (L.blank_line d), skipSpace_cons rfl]
    have hends : Ends tail := htail ▸ (ends_cons (by decide) rest).blank (L.blank_line d)
    obtain ⟨more, hnext⟩ := skipSpace_spellMembers L (d + 1) m members tail
    obtain ⟨hkeys, hvalues⟩ := Value.distinct_object.1 hdistinct
    rw [readValue_object hnext, readMembers_spell L (d + 1) (m :: members) (List.cons_ne_nil _ _)
      hnext hclose hends (by simp at hlen; omega) (Value.nesting_object_le_iff.1 hdepth)
      (Value.allWhole_object.1 hwhole) hvalues]
    change Except.ok (Value.object (Members.ofList (m :: members)), rest) = _
    rw [Members.ofList_of_nodup hkeys]

theorem readItems_spell (L : Layout) (d : Nat) (items : List Value) {fuel depth : Nat}
    {s tail rest : Bytes} (hne : items ≠ [])
    (hs : skipSpace s = skipSpace (encodeChars (spellItems L d items) ++ tail))
    (hclose : skipSpace tail = 0x5d :: rest) (htail : Ends tail)
    (hfuel : (encodeChars (spellItems L d items)).length + 1 ≤ fuel)
    (hdepth : ∀ v ∈ items, v.nesting ≤ depth) (hwhole : ∀ v ∈ items, v.AllWhole)
    (hdistinct : ∀ v ∈ items, v.Distinct) :
    readItems fuel depth s = .ok (items, rest) := by
  obtain ⟨fuel, rfl⟩ : ∃ n, fuel = n + 1 := ⟨fuel - 1, by omega⟩
  match items with
  | [] => exact absurd rfl hne
  | [v] =>
    have hlen := congrArg List.length (encodeChars_spellItems_one L d v [])
    simp only [List.append_nil, List.length_append] at hlen
    refine readItems_last ?_ hclose
    rw [encodeChars_spellItems_one, skipSpace_blank (L.blank_line d)] at hs
    exact readValue_spell L d v hs (by omega) (hdepth v List.mem_cons_self)
      (hwhole v List.mem_cons_self) (hdistinct v List.mem_cons_self) htail
  | v :: w :: items =>
    have hlen := congrArg List.length (encodeChars_spellItems_cons L d v w items [])
    simp only [List.append_nil, List.length_append, List.length_cons] at hlen
    rw [encodeChars_spellItems_cons, skipSpace_blank (L.blank_line d)] at hs
    have hv : readValue fuel depth s =
        .ok (v, 0x2c :: (encodeChars (spellItems L d (w :: items)) ++ tail)) :=
      readValue_spell L d v hs (by omega) (hdepth v List.mem_cons_self)
        (hwhole v List.mem_cons_self) (hdistinct v List.mem_cons_self) (ends_cons (by decide) _)
    obtain ⟨c, more, hnext, hc⟩ := skipSpace_spellItems L d
      (hwhole w (List.mem_cons_of_mem _ List.mem_cons_self)) items tail
    rw [readItems_more hv (skipSpace_cons rfl _) hnext hc,
      readItems_spell L d (w :: items) (List.cons_ne_nil _ _) (by rw [← hnext, skipSpace_skipSpace])
        hclose htail (by omega) (fun x hx ↦ hdepth x (List.mem_cons_of_mem _ hx))
        (fun x hx ↦ hwhole x (List.mem_cons_of_mem _ hx))
        fun x hx ↦ hdistinct x (List.mem_cons_of_mem _ hx)]
    rfl

theorem readMembers_spell (L : Layout) (d : Nat) (members : List (String × Value))
    {fuel depth : Nat} {s tail rest : Bytes} (hne : members ≠ [])
    (hs : skipSpace (encodeChars (spellMembers L d members) ++ tail) = 0x22 :: s)
    (hclose : skipSpace tail = 0x7d :: rest) (htail : Ends tail)
    (hfuel : (encodeChars (spellMembers L d members)).length + 1 ≤ fuel)
    (hdepth : ∀ m ∈ members, m.2.nesting ≤ depth) (hwhole : ∀ m ∈ members, m.2.AllWhole)
    (hdistinct : ∀ m ∈ members, m.2.Distinct) :
    readMembers fuel depth s = .ok (members, rest) := by
  obtain ⟨fuel, rfl⟩ : ∃ n, fuel = n + 1 := ⟨fuel - 1, by omega⟩
  match members with
  | [] => exact absurd rfl hne
  | [(k, v)] =>
    have hlen := congrArg List.length (encodeChars_spellMembers_one L d k v [])
    simp only [List.append_nil, List.length_append, List.length_cons] at hlen
    rw [encodeChars_spellMembers_one, skipSpace_key (L.blank_line d)] at hs
    obtain rfl := List.tail_eq_of_cons_eq hs
    refine readMembers_last (readString_written k _) ?_ hclose
    exact readValue_spell L d v (skipSpace_blank L.blank_gap _) (by omega)
      (hdepth _ List.mem_cons_self) (hwhole _ List.mem_cons_self) (hdistinct _ List.mem_cons_self)
      htail
  | (k, v) :: m :: members =>
    have hlen := congrArg List.length (encodeChars_spellMembers_cons L d k v m members [])
    simp only [List.append_nil, List.length_append, List.length_cons] at hlen
    rw [encodeChars_spellMembers_cons, skipSpace_key (L.blank_line d)] at hs
    obtain rfl := List.tail_eq_of_cons_eq hs
    have hv : readValue fuel depth (encodeChars L.gap ++ (encodeChars (spell L d v) ++
        0x2c :: (encodeChars (spellMembers L d (m :: members)) ++ tail))) =
          .ok (v, 0x2c :: (encodeChars (spellMembers L d (m :: members)) ++ tail)) :=
      readValue_spell L d v (skipSpace_blank L.blank_gap _) (by omega)
        (hdepth _ List.mem_cons_self) (hwhole _ List.mem_cons_self)
        (hdistinct _ List.mem_cons_self) (ends_cons (by decide) _)
    obtain ⟨more, hnext⟩ := skipSpace_spellMembers L d m members tail
    rw [readMembers_more (readString_written k _) hv (skipSpace_cons rfl _) hnext,
      readMembers_spell L d (m :: members) (List.cons_ne_nil _ _) hnext hclose htail (by omega)
        (fun x hx ↦ hdepth x (List.mem_cons_of_mem _ hx))
        (fun x hx ↦ hwhole x (List.mem_cons_of_mem _ hx))
        fun x hx ↦ hdistinct x (List.mem_cons_of_mem _ hx)]
    rfl

end

/-! ## Whole texts -/

/-- Nothing but the value in a text. -/
theorem parse_spell (L : Layout) {v : Value} (hdepth : v.nesting ≤ maxDepth) (hwhole : v.AllWhole)
    (hdistinct : v.Distinct) : parse (encodeChars (spell L 0 v)) = .ok v := by
  have hv : readValue (2 * (encodeChars (spell L 0 v)).length + 2) maxDepth
      (encodeChars (spell L 0 v)) = .ok (v, []) :=
    readValue_spell L 0 v (by rw [List.append_nil]) (by omega) hdepth hwhole hdistinct ends_nil
  rw [parse, runReader, hv]
  rfl

end Conduit.Json

namespace Conduit.Value

/-- A value is read back from its compact text. -/
theorem parse_toBytes {v : Value} (hdepth : v.nesting ≤ Json.maxDepth) (hwhole : v.AllWhole)
    (hdistinct : v.Distinct) : Json.parse v.toBytes = .ok v := by
  rw [toBytes, ← Json.spell_compact 0]
  exact Json.parse_spell .compact hdepth hwhole hdistinct

/-- The compact text is text. -/
theorem decode_toBytes (v : Value) : Utf8.decode v.toBytes = .ok v.toText :=
  Utf8.decode_encodeChars _

end Conduit.Value
