import Conduit.Stage.Routing
import Conduit.Proofs.Json.Parts
import Conduit.Proofs.Basic

/-!
# Routing written and read back

The members that a routing is written as are read back as the routing, together with any members
that are not its own (`Routing.ofMembers_toMembers`).
-/

namespace Conduit.Stage.Routing

open Json

/-! ## Members that may be missing -/

/-- A member, if there is a value for it. -/
def given (field : String × Option Value) : Members := (field.2.map (field.1, ·)).toList

theorem keys_flatMap_given_sublist (fields : List (String × Option Value)) :
    ((fields.flatMap given).map Prod.fst).Sublist (fields.map Prod.fst) := by
  induction fields with
  | nil => exact List.Sublist.refl _
  | cons f fields ih =>
    obtain ⟨name, value⟩ := f
    rw [List.flatMap_cons, List.map_append]
    cases value with
    | none => exact ih.cons name
    | some v => exact ih.cons_cons name

/-- Where fields are distinct, each shows its own value. -/
theorem lookup_flatMap_given {fields : List (String × Option Value)}
    (h : (fields.map Prod.fst).Nodup) {name : String} {value : Option Value}
    (hmem : (name, value) ∈ fields) : (fields.flatMap given).lookup name = value := by
  induction fields with
  | nil => exact absurd hmem List.not_mem_nil
  | cons f fields ih =>
    obtain ⟨other, w⟩ := f
    obtain ⟨hother, hrest⟩ := List.nodup_cons.1 h
    rw [List.flatMap_cons, List.lookup_append]
    rcases List.mem_cons.1 hmem with heq | hin
    · obtain ⟨rfl, rfl⟩ := Prod.mk.inj heq
      have hnone : (fields.flatMap given).lookup name = none :=
        lookup_eq_none_of_notMem fun hin ↦ hother ((keys_flatMap_given_sublist fields).subset hin)
      rw [hnone, Option.or_none]
      cases value with
      | none => rfl
      | some v => simp [given]
    · have hne : name ≠ other := by
        rintro rfl
        exact hother (List.mem_map.2 ⟨_, hin, rfl⟩)
      have hnone : (given (other, w)).lookup name = none := by
        cases w with
        | none => rfl
        | some v => exact (lookup_cons_eq_ite _ _ _ _).trans (if_neg hne)
      rw [hnone, Option.none_or, ih hrest hin]

/-! ## The fields of a routing -/

/-- The fields and what is written for them. -/
def written (r : Routing) : List (String × Option Value) :=
  [("name", r.name.map .string), ("expect", r.expect.map (.string ·.name)),
    ("not", if r.negate then some (.bool true) else none),
    ("redirect", if r.redirect.isEmpty then none else some (.array (r.redirect.map .string))),
    ("metadata", if r.metadata.isEmpty then none else some (.object r.metadata)),
    ("goto", r.goto.map .string), ("goto_passed", r.gotoPassed.map .string),
    ("goto_rejected", r.gotoRejected.map .string)]

theorem toMembers_eq (r : Routing) : r.toMembers = r.written.flatMap given := by
  obtain ⟨name, expect, negate, redirect, metadata, goto, passed, rejected⟩ := r
  have htext (name : String) (text : Option String) :
      textMember name text = given (name, text.map .string) := by
    cases text <;> rfl
  cases expect <;> cases negate <;> cases redirect <;> cases metadata <;>
    simp [toMembers, written, htext, given]

theorem keys_written (r : Routing) : r.written.map Prod.fst = shapes.map Prod.fst := rfl

theorem nodup_fields : (shapes.map Prod.fst).Nodup := by decide

theorem isField_iff {name : String} : isField name = true ↔ name ∈ shapes.map Prod.fst :=
  lookup_isSome_iff_mem

/-- Other members do not get in the way of a field. -/
theorem get?_written {r : Routing} {others : Members} (hothers : ∀ m ∈ others, isField m.1 = false)
    {name : String} {value : Option Value} (h : (name, value) ∈ r.written) :
    Members.get? (r.toMembers ++ others) name = value := by
  have hfield : name ∈ shapes.map Prod.fst := keys_written r ▸ List.mem_map.2 ⟨_, h, rfl⟩
  have hnone : others.lookup name = none := lookup_eq_none_of_notMem fun hin ↦ by
    obtain ⟨m, hm, rfl⟩ := List.mem_map.1 hin
    exact absurd (isField_iff.2 hfield) (by simp [hothers m hm])
  rw [Members.get?, List.lookup_append, toMembers_eq, lookup_flatMap_given _ h, hnone,
    Option.or_none]
  exact keys_written r ▸ nodup_fields

theorem mem_toMembers {r : Routing} {m : String × Value} (h : m ∈ r.toMembers) :
    (m.1, some m.2) ∈ r.written := by
  rw [toMembers_eq] at h
  obtain ⟨⟨name, value⟩, hfield, hm⟩ := List.mem_flatMap.1 h
  obtain ⟨v, hv, rfl⟩ := Option.map_eq_some_iff.1 (Option.mem_toList.1 hm)
  exact hv ▸ hfield

theorem keys_toMembers_sublist (r : Routing) :
    (r.toMembers.map Prod.fst).Sublist (shapes.map Prod.fst) := by
  rw [toMembers_eq]
  exact keys_flatMap_given_sublist r.written

theorem isField_of_mem_toMembers {r : Routing} {m : String × Value} (h : m ∈ r.toMembers) :
    isField m.1 = true :=
  isField_iff.2 ((keys_toMembers_sublist r).subset (List.mem_map_of_mem h))

/-! ## Reading -/

theorem items_string (texts : List String) :
    Shape.items Shape.string (texts.map .string) = .ok texts := by
  induction texts with
  | nil => rfl
  | cons text texts ih =>
    rw [List.map_cons, Shape.items, ih]
    rfl

/-- What is written for a field is what the field is checked for. -/
theorem check_written {r : Routing} {name : String} {v : Value} (h : (name, some v) ∈ r.written)
    {check : Shape Unit} (hcheck : shapes.lookup name = some check) : check v = .ok () := by
  simp only [written, List.mem_cons, Prod.mk.injEq, List.not_mem_nil, or_false] at h
  have htext {text : Option String} (hv : some v = text.map .string)
      (hcheck : some target.check = some check) : check v = .ok () := by
    obtain ⟨s, -, rfl⟩ := Option.map_eq_some_iff.1 hv.symm
    exact Option.some.inj hcheck ▸ rfl
  rcases h with ⟨rfl, h⟩ | ⟨rfl, h⟩ | ⟨rfl, h⟩ | ⟨rfl, h⟩ | ⟨rfl, h⟩ | ⟨rfl, h⟩ | ⟨rfl, h⟩ |
    ⟨rfl, h⟩
  case inl => exact htext h hcheck
  case inr.inl =>
    obtain ⟨kind, -, rfl⟩ := Option.map_eq_some_iff.1 h.symm
    obtain rfl := Option.some.inj hcheck
    cases kind <;> rfl
  case inr.inr.inl =>
    obtain rfl := Option.some.inj hcheck
    split at h <;> cases h
    rfl
  case inr.inr.inr.inl =>
    obtain rfl := Option.some.inj hcheck
    split at h <;> cases h
    rw [Shape.check, redirects, Shape.list, items_string]
    rfl
  case inr.inr.inr.inr.inl =>
    obtain rfl := Option.some.inj hcheck
    split at h <;> cases h
    rfl
  case inr.inr.inr.inr.inr.inl => exact htext h hcheck
  case inr.inr.inr.inr.inr.inr.inl => exact htext h hcheck
  case inr.inr.inr.inr.inr.inr.inr => exact htext h hcheck

/-- Members that do not name a field twice are checked one by one. -/
theorem checkOnce_eq_ok {seen : List String} {ms : Members} (hnodup : ms.keys.Nodup)
    (hseen : ∀ m ∈ ms, m.1 ∉ seen)
    (hcheck : ∀ m ∈ ms, ∀ check, shapes.lookup m.1 = some check → check m.2 = .ok ()) :
    checkOnce seen ms = .ok () := by
  induction ms generalizing seen with
  | nil => rfl
  | cons m ms ih =>
    obtain ⟨name, v⟩ := m
    obtain ⟨hname, hrest⟩ := List.nodup_cons.1 hnodup
    have hseen' := fun m hm ↦ hseen m (List.mem_cons_of_mem _ hm)
    have hcheck' := fun m hm ↦ hcheck m (List.mem_cons_of_mem _ hm)
    rw [checkOnce]
    split
    · exact ih hrest hseen' hcheck'
    · rename_i check hlookup
      rw [if_neg (by simpa using hseen _ List.mem_cons_self),
        hcheck _ List.mem_cons_self check hlookup]
      refine ih hrest (fun m hm hin ↦ ?_) hcheck'
      rcases List.mem_cons.1 hin with heq | hin
      · exact hname (List.mem_map.2 ⟨m, hm, heq⟩)
      · exact hseen' m hm hin

section

variable {r : Routing} {others : Members}

theorem checkOnce_toMembers (hkeys : others.keys.Nodup) (hothers : ∀ m ∈ others, isField m.1 = false) :
    checkOnce [] (r.toMembers ++ others) = .ok () := by
  have hsub := keys_toMembers_sublist r
  refine checkOnce_eq_ok ?_ (fun _ _ ↦ List.not_mem_nil) fun m hm check hcheck ↦ ?_
  · rw [Members.keys, List.map_append]
    refine (nodup_fields.sublist hsub).append hkeys fun name hin hin' ↦ ?_
    obtain ⟨m, hm, rfl⟩ := List.mem_map.1 hin'
    exact absurd (isField_iff.2 (hsub.subset hin)) (by simp [hothers m hm])
  · rcases List.mem_append.1 hm with hm | hm
    · exact check_written (mem_toMembers hm) hcheck
    · have hfield : isField m.1 = true := by rw [isField, hcheck]; rfl
      exact absurd hfield (by simp [hothers m hm])

/-- A routing is read back from its members, whatever other members there are. -/
theorem ofMembers_toMembers (hkeys : others.keys.Nodup)
    (hothers : ∀ m ∈ others, isField m.1 = false) :
    ofMembers (r.toMembers ++ others) = .ok r := by
  have hget (name : String) (value : Option Value) (h : (name, value) ∈ r.written) :
      Members.get? (r.toMembers ++ others) name = value := get?_written hothers h
  have htext (name : String) (text : Option String) (h : (name, text.map .string) ∈ r.written) :
      withDefault (r.toMembers ++ others) name target none = .ok text := by
    rw [withDefault, hget name _ h]
    cases text <;> rfl
  have hexpect : withDefault (r.toMembers ++ others) "expect" expectation none = .ok r.expect := by
    rw [withDefault, hget "expect" (r.expect.map (.string ·.name)) (by simp [written])]
    rcases r.expect with - | - | - | - <;> rfl
  have hnot : withDefault (r.toMembers ++ others) "not" .flag false = .ok r.negate := by
    rw [withDefault, hget "not" (if r.negate then some (.bool true) else none)
      (by simp [written])]
    cases r.negate <;> rfl
  have hredirect : withDefault (r.toMembers ++ others) "redirect" redirects [] = .ok r.redirect := by
    rw [withDefault, hget "redirect" (if r.redirect.isEmpty then none else
      some (.array (r.redirect.map .string))) (by simp [written])]
    rcases r.redirect with - | ⟨q, qs⟩
    · rfl
    · exact items_string (q :: qs)
  have hmetadata : withDefault (r.toMembers ++ others) "metadata" .members [] = .ok r.metadata := by
    rw [withDefault, hget "metadata" (if r.metadata.isEmpty then none else
      some (.object r.metadata)) (by simp [written])]
    rcases r.metadata with - | ⟨m, ms⟩ <;> rfl
  rw [ofMembers, checkOnce_toMembers hkeys hothers, htext "name" r.name (by simp [written]),
    hexpect, hnot, hredirect, hmetadata, htext "goto" r.goto (by simp [written]),
    htext "goto_passed" r.gotoPassed (by simp [written]),
    htext "goto_rejected" r.gotoRejected (by simp [written])]
  rfl

end

end Conduit.Stage.Routing
