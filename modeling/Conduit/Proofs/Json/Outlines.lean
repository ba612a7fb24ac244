import Conduit.Proofs.Json.Removal

/-!
# Values without arrays

A value without arrays is given, but for the order of members, by what is at every path: a scalar,
an object or nothing (`Value.reorders_of_outline`). To take out what a path leads to is to have
nothing at the paths that go through it, and at all others what was there
(`Value.outline_walk?_removeAt?`).
-/

namespace Conduit

namespace Value

variable {v w part : Value} {address b : Address} {way path : List String}

/-! ## Documents without arrays -/

@[simp]
def IsNoArray : Value → Prop
  | .array _ => False
  | _ => True

/-- There is no array in the value. -/
def ArrayFree (v : Value) : Prop := v.All IsNoArray

theorem ArrayFree.removeAt? (hv : v.ArrayFree) (h : v.removeAt? way = some w) : w.ArrayFree :=
  All.removeAt? (fun _ _ _ _ ↦ trivial) (fun _ _ h ↦ h) hv h

theorem ArrayFree.child?_eq (hv : v.ArrayFree) (segment : String) :
    v.child? segment = v.part? (.member segment) := by
  cases v with
  | array items => exact (all_array.1 hv).1.elim
  | _ => rfl

theorem ArrayFree.walk?_eq (hv : v.ArrayFree) (way : List String) :
    v.walk? way = v.at? (way.map .member) := by
  induction way generalizing v with
  | nil => rfl
  | cons segment rest ih =>
    rw [walk?, List.map_cons, at?, hv.child?_eq]
    exact Option.bind_congr fun part hpart ↦ ih (All.of_part? hv hpart)

theorem ArrayFree.address?_eq (hv : v.ArrayFree) (h : v.address? way = some address) :
    address = way.map .member := by
  induction way generalizing v address with
  | nil => exact (Option.some.inj h).symm
  | cons segment rest ih =>
    obtain ⟨place, part, more, hplace, hpart, hmore, rfl⟩ := exists_of_address?_cons h
    rw [List.map_cons, ih (All.of_part? hv hpart) hmore]
    cases v with
    | object members => cases hplace; rfl
    | array items => exact (all_array.1 hv).1.elim
    | _ => cases hplace

theorem walk?_append (v : Value) (way path : List String) :
    v.walk? (way ++ path) = (v.walk? way).bind (·.walk? path) := by
  induction way generalizing v with
  | nil => rfl
  | cons segment rest ih =>
    rw [List.cons_append, walk?, walk?, Option.bind_assoc]
    exact Option.bind_congr fun part _ ↦ ih part

theorem walk?_eq_none_beyond (h : v.walk? way = none) (hpre : way <+: path) :
    v.walk? path = none := by
  obtain ⟨rest, rfl⟩ := hpre
  rw [walk?_append, h, Option.bind_none]

/-! ## Outlines -/

/-- A value without its parts. -/
def outline : Value → Value
  | .object _ => .object []
  | .array _ => .array []
  | v => v

/-- The value has no parts. -/
def IsScalar : Value → Prop
  | .object _ => False
  | .array _ => False
  | _ => True

/-- Only a scalar has its outline. -/
theorem IsScalar.eq_of_outline (hv : v.IsScalar) (h : w.outline = v.outline) : w = v := by
  cases v with
  | object members => exact hv.elim
  | array items => exact hv.elim
  | _ => cases w <;> cases h; rfl

theorem exists_object_of_outline {members : Members}
    (h : w.outline = (Value.object members).outline) : ∃ others, w = .object others := by
  cases w <;> cases h
  exact ⟨_, rfl⟩

theorem outline_congr {place : Place} {x y : Value} (hv : v.part? place = some x)
    (hw : w.part? place = some y) : w.outline = v.outline := by
  cases place with
  | member key =>
    obtain ⟨_, rfl, -⟩ := exists_object_of_part? hv
    obtain ⟨_, rfl, -⟩ := exists_object_of_part? hw
    rfl
  | item i =>
    obtain ⟨_, rfl, -⟩ := exists_array_of_part? hv
    obtain ⟨_, rfl, -⟩ := exists_array_of_part? hw
    rfl

/-- If all places on the way are members, what is there afterwards is what was there, but for what
was taken out. -/
theorem Drops.outline_at? (h : Drops address v w)
    (hmembers : ∀ place ∈ address, ∃ key, place = .member key) (b : Address) :
    (w.at? b).map outline = if address <+: b then none else (v.at? b).map outline := by
  induction h generalizing b with
  | @here v less place hlacks =>
    obtain ⟨key, rfl⟩ := hmembers place List.mem_cons_self
    cases hlacks with
    | @member _ members less hsome hnone hless =>
      cases b with
      | nil => simp [at?, outline]
      | cons other rest =>
        rw [at?, at?]
        by_cases heq : other = .member key
        · rw [heq, if_pos (List.cons_prefix_cons.2 ⟨rfl, List.nil_prefix⟩), part?, hnone]
          rfl
        · rw [if_neg fun hpre ↦ heq (List.cons_prefix_cons.1 hpre).1.symm]
          cases other with
          | member k => rw [part?, part?, hless k fun hk ↦ heq (congrArg _ hk)]
          | item i => rfl
  | @inside v w part less place more hv hdrops hw hrest ih =>
    cases b with
    | nil => simp [at?, outline_congr hv hw]
    | cons other rest =>
      by_cases heq : other = place
      · subst heq
        rw [at?_cons_of_part? hw, at?_cons_of_part? hv,
          ih (fun place hplace ↦ hmembers place (List.mem_cons_of_mem _ hplace))]
        exact if_congr (by rw [List.cons_prefix_cons]; simp) rfl rfl
      · rw [if_neg fun hpre ↦ heq (List.cons_prefix_cons.1 hpre).1.symm, at?, at?, hrest other heq]

/-- After one removal, whether it found something or not, nothing is where it led to, and all else
is as before. -/
theorem outline_walk?_removeAt? (hv : v.Distinct) (hfree : v.ArrayFree) (hway : way ≠ [])
    (path : List String) :
    (((v.removeAt? way).getD v).walk? path).map outline =
      if way <+: path then none else (v.walk? path).map outline := by
  cases hless : v.removeAt? way with
  | none =>
    rw [Option.getD_none]
    split
    · rename_i hpre
      rw [walk?_eq_none_beyond ((removeAt?_eq_none_iff hway).1 hless) hpre]
      rfl
    · rfl
  | some less =>
    obtain ⟨address, haddress, hdrops⟩ := drops_of_removeAt? hv hless
    have hmap := hfree.address?_eq haddress
    subst hmap
    have hiff : way.map Place.member <+: path.map .member ↔ way <+: path := by
      refine ⟨fun h ↦ ?_, fun h ↦ h.map _⟩
      obtain ⟨front, hfront, heq⟩ := List.prefix_map_iff.1 h
      rwa [List.map_injective_iff.2 (fun _ _ hp ↦ Place.member.inj hp) heq]
    rw [Option.getD_some, (hfree.removeAt? hless).walk?_eq, hfree.walk?_eq,
      hdrops.outline_at? (by simp)]
    exact if_congr hiff rfl rfl

/-! ## Equality but for the order of members -/

/-- The values are equal but for the order of members. -/
inductive Reorders : Value → Value → Prop
  | refl (v : Value) : Reorders v v
  | array {items others : List Value} : items.length = others.length →
      (∀ (i : Nat) v w, items[i]? = some v → others[i]? = some w → Reorders v w) →
      Reorders (.array items) (.array others)
  | object {members others : Members} : members.keys.Perm others.keys →
      (∀ key v w, members.lookup key = some v → others.lookup key = some w → Reorders v w) →
      Reorders (.object members) (.object others)

theorem keys_perm_of_isSome_eq {members others : Members} (hm : members.keys.Nodup)
    (ho : others.keys.Nodup) (h : ∀ key, (members.lookup key).isSome = (others.lookup key).isSome) :
    members.keys.Perm others.keys := by
  refine (List.perm_ext_iff_of_nodup hm ho).2 fun key ↦ ?_
  rw [Members.keys, Members.keys, ← lookup_isSome_iff_mem, ← lookup_isSome_iff_mem, h]

theorem nesting_lt_of_lookup {members : Members} {key : String} (h : members.lookup key = some v) :
    v.nesting < (Value.object members).nesting := by
  rw [nesting, Nat.lt_succ_iff]
  exact nestingMembers_le_iff.1 (Nat.le_refl _) _ (mem_of_lookup h)

/-- Values without arrays that show the same at every path are equal but for the order of
members. -/
theorem reorders_of_outline (hv : v.Distinct) (hw : w.Distinct) (hfree : v.ArrayFree)
    (h : ∀ path, (v.walk? path).map outline = (w.walk? path).map outline) : Reorders v w := by
  -- Members of the two objects belong together by their keys and not by where they stand, so the
  -- induction is on the nesting and not on the members.
  induction hn : v.nesting using Nat.strong_induction_on generalizing v w with
  | _ n ih =>
    have houtline : w.outline = v.outline := Option.some.inj (h []).symm
    cases v with
    | array items => exact (all_array.1 hfree).1.elim
    | object members =>
      obtain ⟨others, rfl⟩ := exists_object_of_outline houtline
      have hpart (key : String) (path : List String) :
          ((members.lookup key).bind (·.walk? path)).map outline =
            ((others.lookup key).bind (·.walk? path)).map outline := h (key :: path)
      refine .object (keys_perm_of_isSome_eq (distinct_object.1 hv).1 (distinct_object.1 hw).1
        fun key ↦ ?_) fun key a b ha hb ↦ ?_
      · simpa [walk?] using congrArg Option.isSome (hpart key [])
      · refine ih a.nesting (hn ▸ nesting_lt_of_lookup ha)
          ((distinct_object.1 hv).2 _ (mem_of_lookup ha))
          ((distinct_object.1 hw).2 _ (mem_of_lookup hb))
          ((all_object.1 hfree).2 _ (mem_of_lookup ha)) (fun path ↦ ?_) rfl
        have hpath := hpart key path
        rwa [ha, hb] at hpath
    | _ =>
      rw [IsScalar.eq_of_outline (by trivial) houtline]
      exact .refl _

end Value

end Conduit
