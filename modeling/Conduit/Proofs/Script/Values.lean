import Conduit.Script.Datum
import Conduit.Proofs.Json.Outlines

/-!
# Values in scripts and back

What a JSON value becomes in a script has no cells in it (`Datum.fill_ofValue`), and as long as all
whole numbers are in the range of scripts it becomes the same value again, with the members of every
object in the order of their names (`Datum.exists_reorders`).
-/

namespace Conduit

open Script

namespace Value

/-- A whole number is in the range of scripts. -/
@[simp]
def IsInRange : Value → Prop
  | .number (.whole n) => n.val < 0x8000000000000000
  | _ => True

/-- All whole numbers in the value are in the range of scripts. -/
def InRange (v : Value) : Prop := v.All IsInRange

theorem Reorders.exists_object {members : Members} {w : Value} (h : (Value.object members).Reorders w) :
    ∃ others, w = .object others := by
  cases h with
  | refl => exact ⟨members, rfl⟩
  | object => exact ⟨_, rfl⟩

end Value

namespace Script

variable {name : String} {d : Datum} {fields : Fields} {members : Members} {v : Value}

theorem Fields.insert_perm (h : name ∉ fields.map Prod.fst) :
    (insert name d fields).Perm ((name, d) :: fields) := by
  induction fields with
  | nil => exact .refl _
  | cons f rest ih =>
    obtain ⟨n, e⟩ := f
    obtain ⟨hne, hrest⟩ := not_or.1 (mt List.mem_cons.2 h)
    rw [insert]
    split
    · exact .refl _
    · exact ((ih hrest).cons _).trans (.swap _ _ _)

namespace Datum

/-! ## Values without cells -/

theorem fillFields_insert (content : Nat → Datum) (name : String) (d : Datum) (fields : Fields) :
    fillFields content (Fields.insert name d fields) =
      Fields.insert name (d.fill content) (fillFields content fields) := by
  induction fields with
  | nil => rfl
  | cons f rest ih =>
    obtain ⟨n, e⟩ := f
    rw [Fields.insert, fillFields, Fields.insert]
    split
    · rfl
    · split
      · rfl
      · rw [fillFields, ih]

theorem fill_ofValue (content : Nat → Datum) (v : Value) : (ofValue v).fill content = ofValue v := by
  induction v using Value.parts_induction with
  | null => rfl
  | bool b => rfl
  | number n =>
    cases n with
    | whole n =>
      rw [ofValue]
      split <;> rfl
    | double d => rfl
  | string s => rfl
  | array items ih =>
    rw [ofValue, fill]
    congr 1
    induction items with
    | nil => rfl
    | cons v rest ihrest =>
      rw [ofValues, fillItems, ih v List.mem_cons_self,
        ihrest fun w hw ↦ ih w (List.mem_cons_of_mem _ hw)]
  | object members ih =>
    rw [ofValue, fill]
    congr 1
    induction members with
    | nil => rfl
    | cons m rest ihrest =>
      obtain ⟨key, v⟩ := m
      rw [ofMembers, fillFields_insert, ih _ List.mem_cons_self,
        ihrest fun m hm ↦ ih m (List.mem_cons_of_mem _ hm)]

/-! ## Back to JSON -/

theorem ofValues_eq_map (items : List Value) : ofValues items = items.map ofValue := by
  induction items with
  | nil => rfl
  | cons v rest ih => rw [ofValues, ih, List.map_cons]

/-- The fields of a record are the members of the object, in another order. -/
theorem ofMembers_perm (h : members.keys.Nodup) :
    (ofMembers members).Perm (members.map fun m ↦ (m.1, ofValue m.2)) := by
  induction members with
  | nil => exact .refl _
  | cons m rest ih =>
    obtain ⟨key, v⟩ := m
    obtain ⟨hkey, hrest⟩ := List.nodup_cons.1 h
    have hperm := ih hrest
    refine (Fields.insert_perm ?_).trans (hperm.cons _)
    rw [(hperm.map Prod.fst).mem_iff, List.map_map]
    exact hkey

theorem toValues?_eq_some {ds : List Datum} (h : ∀ d ∈ ds, d.toValue?.isSome) :
    toValues? ds = some (ds.map fun d ↦ d.toValue?.getD .null) := by
  induction ds with
  | nil => rfl
  | cons d rest ih =>
    obtain ⟨hd, hrest⟩ := List.forall_mem_cons.1 h
    obtain ⟨v, hv⟩ := Option.isSome_iff_exists.1 hd
    rw [toValues?, hv, ih hrest, List.map_cons, hv]
    rfl

theorem toMembers?_eq_some (h : ∀ f ∈ fields, f.2.toValue?.isSome) :
    toMembers? fields = some (fields.map fun f ↦ (f.1, f.2.toValue?.getD .null)) := by
  induction fields with
  | nil => rfl
  | cons f rest ih =>
    obtain ⟨n, d⟩ := f
    obtain ⟨hd, hrest⟩ := List.forall_mem_cons.1 h
    obtain ⟨v, hv⟩ := Option.isSome_iff_exists.1 hd
    rw [toMembers?, hv, ih hrest, List.map_cons, hv]
    rfl

/-- A number in the range of scripts comes back as it was. -/
theorem toValue?_ofValue_number {n : Number} (h : (Value.number n).InRange) :
    (ofValue (.number n)).toValue? = some (.number n) := by
  cases n with
  | whole n =>
    have hn : n.val < 0x8000000000000000 := Value.all_number.1 h
    rw [ofValue, if_pos hn, toValue?, intValue, Number.ofInt?, dif_pos n.property]
  | double d =>
    rw [ofValue, toValue?, floatValue, Number.ofDouble?, dif_pos d.property]

/-- A value in the range of scripts comes back from a script as it went in, but for the order of
members. -/
theorem exists_reorders (hv : v.Distinct) (hrange : v.InRange) :
    ∃ w, (ofValue v).toValue? = some w ∧ v.Reorders w := by
  induction v using Value.parts_induction with
  | null => exact ⟨_, rfl, .refl _⟩
  | bool b => exact ⟨_, rfl, .refl _⟩
  | number n => exact ⟨_, toValue?_ofValue_number hrange, .refl _⟩
  | string s => exact ⟨_, rfl, .refl _⟩
  | array items ih =>
    have hback : ∀ v ∈ items, ∃ w, (ofValue v).toValue? = some w ∧ v.Reorders w := fun v hv' ↦
      ih v hv' (Value.distinct_array.1 hv v hv') ((Value.all_array.1 hrange).2 v hv')
    refine ⟨.array ((ofValues items).map fun d ↦ d.toValue?.getD .null), ?_, .array ?_ ?_⟩
    · rw [ofValue, toValue?, toValues?_eq_some, Option.map_some]
      intro d hd
      rw [ofValues_eq_map] at hd
      obtain ⟨v, hv', rfl⟩ := List.mem_map.1 hd
      obtain ⟨w, hw, -⟩ := hback v hv'
      exact Option.isSome_iff_exists.2 ⟨w, hw⟩
    · rw [ofValues_eq_map, List.length_map, List.length_map]
    · intro i v w hi hw
      obtain ⟨x, hx, hreorders⟩ := hback v (List.mem_of_getElem? hi)
      rw [ofValues_eq_map, List.map_map, List.getElem?_map, hi] at hw
      obtain rfl := Option.some.inj hw
      rwa [Function.comp_apply, hx]
  | object members ih =>
    obtain ⟨hkeys, hparts⟩ := Value.distinct_object.1 hv
    have hback : ∀ m ∈ members, ∃ w, (ofValue m.2).toValue? = some w ∧ m.2.Reorders w :=
      fun m hm ↦ ih m hm (hparts m hm) ((Value.all_object.1 hrange).2 m hm)
    have hfield {f : String × Datum} (hf : f ∈ ofMembers members) :
        ∃ m ∈ members, f = (m.1, ofValue m.2) := by
      obtain ⟨m, hm, rfl⟩ := List.mem_map.1 ((ofMembers_perm hkeys).mem_iff.1 hf)
      exact ⟨m, hm, rfl⟩
    refine ⟨.object ((ofMembers members).map fun f ↦ (f.1, f.2.toValue?.getD .null)), ?_,
      .object ?_ ?_⟩
    · rw [ofValue, toValue?, toMembers?_eq_some, Option.map_some]
      intro f hf
      obtain ⟨m, hm, rfl⟩ := hfield hf
      obtain ⟨w, hw, -⟩ := hback m hm
      exact Option.isSome_iff_exists.2 ⟨w, hw⟩
    · have hperm := ((ofMembers_perm hkeys).map Prod.fst).symm
      rw [List.map_map] at hperm
      rw [Members.keys, Members.keys, List.map_map]
      exact hperm
    · intro key v w hlookup hw
      obtain ⟨f, hf, heq⟩ := List.mem_map.1 (mem_of_lookup hw)
      obtain ⟨m, hm, rfl⟩ := hfield hf
      obtain ⟨rfl, rfl⟩ := Prod.mk.inj heq
      rw [(Members.mem_iff_lookup hkeys).1 hm] at hlookup
      obtain rfl := Option.some.inj hlookup
      obtain ⟨x, hx, hreorders⟩ := hback m hm
      rwa [hx]

end Datum

end Script

end Conduit
