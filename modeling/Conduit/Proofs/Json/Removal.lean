import Mathlib.Data.List.Perm.Subperm
import Conduit.Proofs.Json.Places
import Conduit.Proofs.Text.Cuts

/-!
# Taking parts out of values

Looking up and removing resolve every path alike: there is something to remove just if there is
something to find (`Value.removeAt?_isSome_iff`). What is removed is one part of an object or of an
array (`Value.Lacks`); all parts beside the way to it stay what they are, and nothing new appears
(`Value.Without`).
-/

namespace Conduit

namespace Value

variable {v w part less : Value} {place other : Place} {segment : String} {way : List String}
variable {address above b c : Address}

/-! ## One place -/

/-- The second value is the first one without what stands at a place. -/
inductive Lacks : Place → Value → Value → Prop
  | member {key : String} {members less : Members} : (members.lookup key).isSome →
      less.lookup key = none →
      (∀ other, other ≠ key → less.lookup other = members.lookup other) →
      Lacks (.member key) (.object members) (.object less)
  | item {i : Nat} {items : List Value} : i < items.length →
      Lacks (.item i) (.array items) (.array (items.eraseIdx i))

theorem removeChild?_isSome_iff : (v.removeChild? segment).isSome ↔ (v.child? segment).isSome := by
  cases v with
  | object members =>
    rw [removeChild?, child?]
    split <;> simp_all
  | array items =>
    rw [removeChild?, child?]
    cases segmentIndex? segment with
    | none => simp
    | some i =>
      simp only [Option.bind_some, isSome_getElem?]
      split <;> simp_all
  | _ => rfl

/-- What is taken out at a segment is what the segment leads to. -/
theorem lacks_of_removeChild? (hv : v.Distinct) (h : v.removeChild? segment = some less) :
    ∃ place part, v.place? segment = some place ∧ v.part? place = some part ∧
      Lacks place v less := by
  cases v with
  | object members =>
    rw [removeChild?] at h
    split at h
    · rename_i hsome
      obtain ⟨part, hpart⟩ := Option.isSome_iff_exists.1 hsome
      cases h
      have hlookup (other : String) :
          (Members.remove segment members).lookup other =
            if other = segment then none else members.lookup other :=
        Members.lookup_remove (distinct_object.1 hv).1 hpart
      refine ⟨.member segment, part, rfl, hpart, .member hsome ?_ fun other hne ↦ ?_⟩
      · rw [hlookup, if_pos rfl]
      · rw [hlookup, if_neg hne]
    · cases h
  | array items =>
    rw [removeChild?] at h
    split at h
    · rename_i i hi
      split at h
      · rename_i hlt
        cases h
        refine ⟨.item i, items[i], ?_, List.getElem?_eq_getElem hlt, .item hlt⟩
        rw [place?, hi, Option.map_some]
      · cases h
    · cases h
  | _ => cases h

/-- Another value is put in one place, and no other place changes. -/
theorem part?_replaceChild (hplace : v.place? segment = some place)
    (hpart : v.part? place = some part) :
    (v.replaceChild segment w).part? other = if other = place then some w else v.part? other := by
  cases v with
  | object members =>
    cases hplace
    cases other with
    | member key =>
      rw [replaceChild, part?, Members.lookup_update, part?]
      rw [part?] at hpart
      simp [hpart]
    | item i => simp [replaceChild, part?]
  | array items =>
    obtain ⟨i, hi, rfl⟩ := Option.map_eq_some_iff.1 hplace
    rw [part?] at hpart
    obtain ⟨hlt, -⟩ := List.getElem?_eq_some_iff.1 hpart
    rw [replaceChild, hi]
    cases other with
    | member key => simp [part?]
    | item j =>
      dsimp only [part?]
      rw [List.getElem?_set]
      simp [hlt, eq_comm]
  | _ => cases hplace

/-! ## Along an address -/

/-- The second value is the first one without what stands at an address. -/
inductive Drops : Address → Value → Value → Prop
  | here {v less : Value} {place : Place} : v.Lacks place less → Drops [place] v less
  | inside {v w part less : Value} {place : Place} {rest : Address} :
      v.part? place = some part → Drops rest part less → w.part? place = some less →
      (∀ other, other ≠ place → w.part? other = v.part? other) → Drops (place :: rest) v w

theorem Drops.ne_nil (h : Drops address v w) : address ≠ [] := by
  cases h <;> exact List.cons_ne_nil _ _

/-- There is something to take out just if there is something. -/
theorem removeAt?_isSome_iff (h : way ≠ []) :
    (v.removeAt? way).isSome ↔ (v.walk? way).isSome := by
  induction way generalizing v with
  | nil => exact absurd rfl h
  | cons segment rest ih =>
    cases rest with
    | nil =>
      rw [removeAt?, removeChild?_isSome_iff, walk?]
      cases v.child? segment <;> rfl
    | cons next rest =>
      rw [removeAt?, walk?]
      · cases v.child? segment with
        | none => rfl
        | some child => rw [Option.bind_some, Option.isSome_map, ih (List.cons_ne_nil _ _)]; rfl
      · exact List.cons_ne_nil _ _

theorem removeAt?_eq_none_iff (h : way ≠ []) : v.removeAt? way = none ↔ v.walk? way = none := by
  rw [← Option.not_isSome_iff_eq_none, removeAt?_isSome_iff h, Option.not_isSome_iff_eq_none]

/-- What is taken out below a segment is taken out of the part that the segment leads to. -/
theorem exists_of_removeAt?_cons {rest : List String} (hrest : rest ≠ [])
    (h : v.removeAt? (segment :: rest) = some w) :
    ∃ place part less, v.place? segment = some place ∧ v.part? place = some part ∧
      part.removeAt? rest = some less ∧ w = v.replaceChild segment less := by
  rw [removeAt?, child?_eq_bind] at h
  · obtain ⟨part, hchild, hmap⟩ := Option.bind_eq_some_iff.1 h
    obtain ⟨place, hplace, hpart⟩ := Option.bind_eq_some_iff.1 hchild
    obtain ⟨less, hless, rfl⟩ := Option.map_eq_some_iff.1 hmap
    exact ⟨place, part, less, hplace, hpart, hless, rfl⟩
  · exact hrest

/-- What is taken out stands at the address that the segments mean. -/
theorem drops_of_removeAt? (hv : v.Distinct) (h : v.removeAt? way = some w) :
    ∃ address, v.address? way = some address ∧ Drops address v w := by
  induction way generalizing v w with
  | nil => cases h
  | cons segment rest ih =>
    cases rest with
    | nil =>
      obtain ⟨place, part, hplace, hpart, hlacks⟩ := lacks_of_removeChild? hv h
      refine ⟨[place], ?_, .here hlacks⟩
      rw [address?, hplace, Option.bind_some, hpart]
      rfl
    | cons next rest =>
      obtain ⟨place, part, less, hplace, hpart, hless, rfl⟩ :=
        exists_of_removeAt?_cons (List.cons_ne_nil _ _) h
      obtain ⟨address, haddress, hdrops⟩ := ih (All.of_part? hv hpart) hless
      refine ⟨place :: address, ?_, .inside hpart hdrops ?_ fun other hne ↦ ?_⟩
      · rw [address?, hplace, Option.bind_some, hpart, Option.bind_some, haddress]
        rfl
      · rw [part?_replaceChild hplace hpart, if_pos rfl]
      · rw [part?_replaceChild hplace hpart, if_neg hne]

/-! ## What stays -/

/-- Where a part is once what stands at an address is taken out: behind an item taken out, the
items of its array move up by one. -/
def closeUp : Address → Address → Address
  | [.item i], .item j :: rest => .item (if i < j then j - 1 else j) :: rest
  | place :: more, other :: rest =>
    if other = place then other :: closeUp more rest else other :: rest
  | _, address => address

theorem closeUp_cons {place : Place} {more rest : Address} (h : more ≠ []) :
    closeUp (place :: more) (other :: rest) =
      if other = place then other :: closeUp more rest else other :: rest := by
  obtain ⟨next, more, rfl⟩ := List.exists_cons_of_ne_nil h
  rw [closeUp]
  simp

theorem Lacks.at?_closeUp (h : Lacks place v w) (hne : b ≠ []) (hbeside : ¬ [place] <+: b) :
    w.at? (closeUp [place] b) = v.at? b := by
  obtain ⟨other, rest, rfl⟩ := List.exists_cons_of_ne_nil hne
  have hother : other ≠ place := fun heq ↦ hbeside (heq ▸ List.prefix_append [place] rest)
  cases h with
  | @member key members less hsome hnone hless =>
    have hclose : closeUp [.member key] (other :: rest) = other :: rest := by
      cases other <;> simp [closeUp]
    rw [hclose, at?, at?]
    cases other with
    | member k => rw [part?, part?, hless k fun heq ↦ hother (congrArg _ heq)]
    | item j => rfl
  | @item i items hi =>
    cases other with
    | member k => simp [closeUp, at?, part?]
    | item j =>
      have hj : j ≠ i := fun heq ↦ hother (congrArg _ heq)
      have hitem : (items.eraseIdx i)[if i < j then j - 1 else j]? = items[j]? := by
        rw [List.getElem?_eraseIdx]
        by_cases hlt : i < j
        · rw [if_pos hlt, if_neg (by omega), Nat.sub_add_cancel (by omega)]
        · rw [if_neg hlt, if_pos (by omega)]
      rw [closeUp, at?, at?, part?, part?, hitem]

/-- What is neither taken out, nor in it, nor on the way to it, stays as it is. -/
theorem Drops.at?_closeUp (h : Drops address v w) (hway : ¬ b <+: address)
    (hbeside : ¬ address <+: b) : w.at? (closeUp address b) = v.at? b := by
  induction h generalizing b with
  | here hlacks =>
    exact hlacks.at?_closeUp (fun heq ↦ hway (heq ▸ List.nil_prefix)) hbeside
  | @inside v w part less place more hv hdrops hw hrest ih =>
    cases b with
    | nil => exact absurd List.nil_prefix hway
    | cons other rest =>
      rw [closeUp_cons hdrops.ne_nil]
      split
      · rename_i heq
        subst heq
        rw [at?_cons_of_part? hw, at?_cons_of_part? hv]
        exact ih (fun hpre ↦ hway (List.cons_prefix_cons.2 ⟨rfl, hpre⟩))
          (fun hpre ↦ hbeside (List.cons_prefix_cons.2 ⟨rfl, hpre⟩))
      · rename_i hne
        rw [at?, at?, hrest other hne]

theorem Lacks.exists_closeUp (h : Lacks place v w) (hc : (w.at? c).isSome) (hne : c ≠ []) :
    ∃ b, ¬ b <+: [place] ∧ ¬ [place] <+: b ∧ closeUp [place] b = c := by
  obtain ⟨other, rest, rfl⟩ := List.exists_cons_of_ne_nil hne
  have hbeside {new : Place} (hnew : new ≠ place) :
      ¬ new :: rest <+: [place] ∧ ¬ [place] <+: new :: rest :=
    ⟨fun hpre ↦ hnew (List.cons_prefix_cons.1 hpre).1,
      fun hpre ↦ hnew (List.cons_prefix_cons.1 hpre).1.symm⟩
  cases h with
  | @member key members less hsome hnone hless =>
    have hother : other ≠ .member key := by
      rintro rfl
      rw [at?, part?, hnone] at hc
      cases hc
    refine ⟨other :: rest, (hbeside hother).1, (hbeside hother).2, ?_⟩
    cases other <;> simp [closeUp]
  | @item i items hi =>
    cases other with
    | member k => simp [at?, part?] at hc
    | item j =>
      have hnew : Place.item (if i ≤ j then j + 1 else j) ≠ .item i := by
        intro heq
        rw [Place.item.injEq] at heq
        split at heq <;> omega
      refine ⟨.item (if i ≤ j then j + 1 else j) :: rest, (hbeside hnew).1, (hbeside hnew).2, ?_⟩
      rw [closeUp]
      congr 2
      split <;> split <;> omega

/-- What is there afterwards is on the way to what was taken out, or was there before. -/
theorem Drops.exists_closeUp (h : Drops address v w) (hc : (w.at? c).isSome) :
    (c <+: address ∧ c ≠ address) ∨
      ∃ b, ¬ b <+: address ∧ ¬ address <+: b ∧ closeUp address b = c := by
  induction h generalizing c with
  | here hlacks =>
    by_cases hne : c = []
    · exact .inl ⟨hne ▸ List.nil_prefix, hne ▸ (List.cons_ne_nil _ _).symm⟩
    · exact .inr (hlacks.exists_closeUp hc hne)
  | @inside v w part less place more hv hdrops hw hrest ih =>
    cases c with
    | nil => exact .inl ⟨List.nil_prefix, (List.cons_ne_nil _ _).symm⟩
    | cons other rest =>
      by_cases heq : other = place
      · subst heq
        rw [at?_cons_of_part? hw] at hc
        rcases ih hc with ⟨hpre, hne⟩ | ⟨b, hway, hbeside, hclose⟩
        · exact .inl ⟨List.cons_prefix_cons.2 ⟨rfl, hpre⟩, fun h ↦ hne (List.cons.inj h).2⟩
        · refine .inr ⟨other :: b, fun hpre ↦ hway (List.cons_prefix_cons.1 hpre).2,
            fun hpre ↦ hbeside (List.cons_prefix_cons.1 hpre).2, ?_⟩
          rw [closeUp_cons hdrops.ne_nil, if_pos rfl, hclose]
      · refine .inr ⟨other :: rest, fun hpre ↦ heq (List.cons_prefix_cons.1 hpre).1,
          fun hpre ↦ heq (List.cons_prefix_cons.1 hpre).1.symm, ?_⟩
        rw [closeUp_cons hdrops.ne_nil, if_neg heq]

/-! ## Where it was taken out -/

theorem Drops.exists_lacks (h : Drops (above ++ [place]) v w) :
    ∃ old new, v.at? above = some old ∧ w.at? above = some new ∧ Lacks place old new := by
  induction above generalizing v w with
  | nil =>
    cases h with
    | here hlacks => exact ⟨v, w, rfl, rfl, hlacks⟩
    | inside _ hdrops => exact absurd rfl hdrops.ne_nil
  | cons first above ih =>
    generalize haddress : first :: above ++ [place] = address at h
    cases h with
    | here hlacks => simp at haddress
    | inside hv hdrops hw hrest =>
      obtain ⟨rfl, rfl⟩ := List.cons.inj haddress
      obtain ⟨old, new, hold, hnew, hlacks⟩ := ih hdrops
      exact ⟨old, new, (at?_cons_of_part? hv).trans hold, (at?_cons_of_part? hw).trans hnew, hlacks⟩

/-- Once a member is taken out, nothing is found where it was. -/
theorem Drops.walk?_eq_none {key : String} (h : Drops address v w)
    (hlast : address.getLast? = some (.member key)) (haddress : v.address? way = some address) :
    w.walk? way = none := by
  induction h generalizing way with
  | @here v less place hlacks =>
    cases way with
    | nil => cases haddress
    | cons segment rest =>
      cases hlast
      cases hlacks with
      | member hsome hnone hless =>
        obtain ⟨place, _, _, hplace, -, -, hcons⟩ := exists_of_address?_cons haddress
        cases (List.cons.inj hcons).1
        cases hplace
        rw [walk?, child?, hnone]
        rfl
  | @inside v w part less place more hv hdrops hw hrest ih =>
    -- The first segment still means the same place: the value has kept its kind.
    cases way with
    | nil => cases haddress
    | cons segment rest =>
      obtain ⟨first, part', more', hplace, hpart, hmore, hcons⟩ := exists_of_address?_cons haddress
      obtain ⟨rfl, rfl⟩ := List.cons.inj hcons
      cases hv.symm.trans hpart
      rw [walk?, child?_eq_bind, place?_congr hv hw, hplace, Option.bind_some, hw, Option.bind_some]
      refine ih ?_ hmore
      rwa [List.getLast?_cons, List.getLast?_eq_some_getLast hdrops.ne_nil] at *

/-! ## What is true of all parts -/

section

variable {P : Value → Prop}
  (hobject : ∀ members less : Members, less.keys.Subperm members.keys →
    P (.object members) → P (.object less))
  (harray : ∀ items less : List Value, P (.array items) → P (.array less))
include hobject harray

theorem All.removeChild? (hv : v.All P) (h : v.removeChild? segment = some w) : w.All P := by
  cases v with
  | object members =>
    rw [Value.removeChild?] at h
    split at h
    · rename_i hsome
      obtain ⟨part, hpart⟩ := Option.isSome_iff_exists.1 hsome
      obtain ⟨hmembers, hparts⟩ := all_object.1 hv
      cases h
      refine all_object.2 ⟨hobject members _ ?_ hmembers, fun m hm ↦ hparts m ?_⟩
      · have hkeys := (Members.keys_remove_perm hpart).symm
        exact (List.sublist_cons_self _ _).subperm.trans hkeys.subperm
      · exact (Members.perm_remove hpart).mem_iff.2 (List.mem_cons_of_mem _ hm)
    · cases h
  | array items =>
    obtain ⟨hitems, hparts⟩ := all_array.1 hv
    rw [Value.removeChild?] at h
    split at h
    · split at h
      · cases h
        exact all_array.2 ⟨harray items _ hitems, fun v hv ↦ hparts v (List.mem_of_mem_eraseIdx hv)⟩
      · cases h
    · cases h
  | _ => cases h

theorem All.replaceChild (hv : v.All P) (hw : w.All P) : (v.replaceChild segment w).All P := by
  cases v with
  | object members =>
    obtain ⟨hmembers, hparts⟩ := all_object.1 hv
    rw [Value.replaceChild]
    refine all_object.2 ⟨hobject members _ ?_ hmembers, fun m hm ↦ ?_⟩
    · rw [Members.keys_update]
    · rcases Members.mem_update hm with hm | ⟨_, -, rfl⟩
      · exact hparts m hm
      · exact hw
  | array items =>
    obtain ⟨hitems, hparts⟩ := all_array.1 hv
    rw [Value.replaceChild]
    split
    · refine all_array.2 ⟨harray items _ hitems, fun part hpart ↦ ?_⟩
      rcases List.mem_or_eq_of_mem_set hpart with hmem | rfl
      · exact hparts part hmem
      · exact hw
    · exact hv
  | _ => exact hv

/-- What is true of all parts stays true of all, if it is so for what has lost a part. -/
theorem All.removeAt? (hv : v.All P) (h : v.removeAt? way = some w) : w.All P := by
  induction way generalizing v w with
  | nil => cases h
  | cons segment rest ih =>
    cases rest with
    | nil => exact hv.removeChild? hobject harray h
    | cons next rest =>
      obtain ⟨place, part, less, -, hpart, hless, rfl⟩ :=
        exists_of_removeAt?_cons (List.cons_ne_nil _ _) h
      exact hv.replaceChild hobject harray (ih (hv.of_part? hpart) hless)

end

theorem Distinct.removeAt? (hv : v.Distinct) (h : v.removeAt? way = some w) : w.Distinct := by
  refine All.removeAt? (fun members less hkeys hnodup ↦ ?_) (fun _ _ _ ↦ trivial) hv h
  obtain ⟨_, hperm, hsub⟩ := hkeys
  exact hperm.nodup_iff.1 (List.Nodup.sublist hsub hnodup)

/-! ## Paths -/

theorem segments_eq_split {path : String} (h : path ≠ "") : segments path = Text.split '.' path :=
  if_neg h

/-- Goes to what the segments lead to, and puts there what a function makes of it. -/
def changeAt? (v : Value) (way : List String) (f : Value → Option Value) : Option Value :=
  match way with
  | [] => f v
  | segment :: rest =>
    (v.child? segment).bind fun c => (c.changeAt? rest f).map (v.replaceChild segment ·)

theorem removeAt?_concat (v : Value) (way : List String) (last : String) :
    v.removeAt? (way ++ [last]) = v.changeAt? way (·.removeChild? last) := by
  induction way generalizing v with
  | nil => rfl
  | cons segment rest ih =>
    rw [List.cons_append, removeAt?, changeAt?]
    · exact Option.bind_congr fun c _ ↦ by rw [ih]
    · simp

/-- To remove is to go where the path leads up to its last dot, and to take out there what its last
segment names. -/
theorem remove?_append {above last : String} (h : '.' ∉ last.toList) :
    v.remove? (above ++ "." ++ last) =
      v.changeAt? (Text.split '.' above) (·.removeChild? last) := by
  rw [remove?, ← removeAt?_concat]
  exact congrArg v.removeAt? (Text.split_append h)

/-- The second value is the first one without what stands at the last place of an address, and with
all else that was there. -/
structure Without (v w : Value) (above : Address) (last : Place) : Prop where
  /-- What the part stood in has lost this part and no other. -/
  around : ∃ old new, v.at? above = some old ∧ w.at? above = some new ∧ Lacks last old new
  /-- What is neither the part, nor in it, nor around it, is unchanged. -/
  beside : ∀ b, ¬ b <+: above ++ [last] → ¬ above ++ [last] <+: b →
    w.at? (closeUp (above ++ [last]) b) = v.at? b
  /-- There is nothing else. -/
  nothing_else : ∀ c, (w.at? c).isSome → c <+: above ∨
    ∃ b, ¬ b <+: above ++ [last] ∧ ¬ above ++ [last] <+: b ∧ closeUp (above ++ [last]) b = c

theorem Drops.without (h : Drops (above ++ [place]) v w) : Without v w above place where
  around := h.exists_lacks
  beside _ := h.at?_closeUp
  nothing_else _ hc := (h.exists_closeUp hc).imp_left fun hpre ↦
    (List.prefix_concat_iff.1 hpre.1).resolve_left hpre.2

/-- Removing finds what looking up finds, and takes out that part only. A removed member is gone;
behind a removed item, the others of the array move up by one. -/
theorem remove?_agrees (hv : v.Distinct) {path : String} (hpath : path ≠ "") :
    ((v.remove? path).isSome ↔ (v.lookup path).isSome) ∧
      (v.lookup path = none → (v.remove? path).getD v = v) ∧
      ∀ w, v.remove? path = some w → ∃ above last,
        v.address? (segments path) = some (above ++ [last]) ∧ Without v w above last ∧
          ((∃ key, last = .member key) → w.lookup path = none) ∧ w.Distinct := by
  have hsplit := segments_eq_split hpath
  rw [lookup, hsplit]
  have hne := Text.split_ne_nil '.' path
  refine ⟨removeAt?_isSome_iff hne, fun hnone ↦ ?_, fun w hw ↦ ?_⟩
  · rw [remove?, (removeAt?_eq_none_iff hne).2 hnone, Option.getD_none]
  obtain ⟨address, haddress, hdrops⟩ := drops_of_removeAt? hv hw
  obtain ⟨above, last, rfl⟩ := (List.eq_nil_or_concat' address).resolve_left hdrops.ne_nil
  refine ⟨above, last, haddress, hdrops.without, ?_, hv.removeAt? hw⟩
  rintro ⟨key, rfl⟩
  rw [lookup, hsplit]
  exact hdrops.walk?_eq_none List.getLast?_concat haddress

/-- The first of two items, in another spelling: the second item moves up. -/
theorem remove?_agrees_item :
    let doc := Value.object [("a", .object [("b", .array [.bool true, .null])]), ("x", .string "y")]
    let less := Value.object [("a", .object [("b", .array [.null])]), ("x", .string "y")]
    doc.remove? "a.b.+0" = some less ∧ less.lookup "a.b.0" = some .null ∧
      ∃ above last, doc.address? (segments "a.b.+0") = some (above ++ [last]) ∧
        Without doc less above last ∧ ((∃ key, last = .member key) → less.lookup "a.b.+0" = none) ∧
          less.Distinct :=
  ⟨by decide +kernel, by decide +kernel,
    (remove?_agrees (by simp [Distinct, Members.keys]) (by decide)).2.2 _ (by decide +kernel)⟩

end Value

end Conduit
