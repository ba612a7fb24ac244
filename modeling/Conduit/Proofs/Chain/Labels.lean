import Conduit.Chain.Route
import Mathlib.Data.List.Nodup

/-!
# Labels and the places that they name

The places of labels are gathered from front to back, with those seen so far in an accumulator. A
chain is accepted exactly when its labels can stand (`labels_isOk_iff`): none is used twice and none
names the end. Otherwise the first stage whose label cannot stand is named (`exists_offender`). In
a chain that is accepted, a label leads to the first stage that carries it (`lookup_labels`).
-/

namespace Conduit.RoutePlan

open Stage

/-- The labels of stages, in order. -/
def labelsOf (rs : List Routing) : List String := rs.filterMap Routing.label

/-- The labels are new, and none is used twice or names the end. -/
structure Stand (seen : List (String × Nat)) (labels : List String) : Prop where
  nodup : labels.Nodup
  not_out : outTarget ∉ labels
  unseen : ∀ label ∈ labels, seen.lookup label = none

/-- The error for a label that names the end. -/
def reserved (index : Nat) : PipelineError :=
  .invalidStage index ("'" ++ outTarget ++ "' is reserved for the end of the chain")

/-- The error for a label that an earlier stage carries. -/
def duplicate (index : Nat) (label : String) : PipelineError :=
  .invalidStage index ("duplicate stage name '" ++ label ++ "'")

theorem stand_nil (seen : List (String × Nat)) : Stand seen [] :=
  ⟨List.nodup_nil, List.not_mem_nil, fun _ h ↦ by cases h⟩

theorem lookup_cons_of_ne {label other : String} (h : other ≠ label) (place : Nat)
    (seen : List (String × Nat)) :
    ((label, place) :: seen).lookup other = seen.lookup other := by
  rw [List.lookup_cons, beq_eq_false_iff_ne.2 h]

theorem stand_cons_iff {seen : List (String × Nat)} {label : String} {labels : List String}
    (place : Nat) :
    Stand seen (label :: labels) ↔
      label ≠ outTarget ∧ seen.lookup label = none ∧ Stand ((label, place) :: seen) labels := by
  constructor
  · rintro ⟨hn, ho, hs⟩
    rw [List.nodup_cons] at hn
    rw [List.mem_cons, not_or] at ho
    refine ⟨Ne.symm ho.1, hs label List.mem_cons_self, hn.2, ho.2, fun other hother ↦ ?_⟩
    have hne : other ≠ label := fun h ↦ hn.1 (h ▸ hother)
    rw [lookup_cons_of_ne hne]
    exact hs other (List.mem_cons_of_mem _ hother)
  · rintro ⟨hl, hlook, hn, ho, hs⟩
    have hnot : label ∉ labels := by
      intro hmem
      have := hs label hmem
      rw [List.lookup_cons_self] at this
      cases this
    refine ⟨List.nodup_cons.2 ⟨hnot, hn⟩, ?_, ?_⟩
    · rw [List.mem_cons, not_or]
      exact ⟨Ne.symm hl, ho⟩
    · intro other hother
      rcases List.mem_cons.1 hother with rfl | hother
      · exact hlook
      · have hne : other ≠ label := fun h ↦ hnot (h ▸ hother)
        rw [← lookup_cons_of_ne hne place]
        exact hs other hother

/-! ## What is accepted -/

theorem labels_isOk_iff (index : Nat) (seen : List (String × Nat)) (rs : List Routing) :
    (∃ places, labels index seen rs = .ok places) ↔ Stand seen (labelsOf rs) := by
  fun_induction labels index seen rs with
  | case1 index seen => exact ⟨fun _ ↦ stand_nil seen, fun _ ↦ ⟨seen, rfl⟩⟩
  | case2 index seen r rest hr ih =>
    rw [labelsOf, List.filterMap_cons_none hr]
    exact ih
  | case3 index seen r rest hr =>
    rw [labelsOf, List.filterMap_cons_some hr, stand_cons_iff index]
    exact ⟨fun ⟨_, h⟩ ↦ (by cases h), fun h ↦ absurd rfl h.1⟩
  | case4 index seen r rest label hr ho hs =>
    rw [labelsOf, List.filterMap_cons_some hr, stand_cons_iff index]
    refine ⟨fun ⟨_, h⟩ ↦ (by cases h), fun h ↦ ?_⟩
    rw [h.2.1] at hs
    cases hs
  | case5 index seen r rest label hr ho hs ih =>
    rw [labelsOf, List.filterMap_cons_some hr, stand_cons_iff index, ih]
    exact ⟨fun h ↦ ⟨ho, Option.not_isSome_iff_eq_none.1 hs, h⟩, fun h ↦ h.2.2⟩

/-- The first stage whose label cannot stand is named, with what is wrong about the label. -/
theorem exists_offender {index : Nat} {seen : List (String × Nat)} {rs : List Routing}
    {e : PipelineError} (h : labels index seen rs = .error e) :
    ∃ before r rest label, rs = before ++ r :: rest ∧ r.label = some label ∧
      Stand seen (labelsOf before) ∧
      (label = outTarget ∧ e = reserved (index + before.length) ∨
        label ≠ outTarget ∧ (label ∈ labelsOf before ∨ (seen.lookup label).isSome) ∧
          e = duplicate (index + before.length) label) := by
  fun_induction labels index seen rs with
  | case1 => cases h
  | case2 index seen r rest hr ih =>
    obtain ⟨before, r', rest', label, rfl, hl, hstand, hcase⟩ := ih h
    refine ⟨r :: before, r', rest', label, rfl, hl, ?_, ?_⟩
    · rw [labelsOf, List.filterMap_cons_none hr]
      exact hstand
    · rw [labelsOf, List.filterMap_cons_none hr, List.length_cons, ← Nat.add_assoc,
        Nat.add_right_comm]
      exact hcase
  | case3 index seen r rest hr =>
    cases h
    exact ⟨[], r, rest, outTarget, rfl, hr, stand_nil seen, .inl ⟨rfl, rfl⟩⟩
  | case4 index seen r rest label hr ho hs =>
    cases h
    exact ⟨[], r, rest, label, rfl, hr, stand_nil seen, .inr ⟨ho, .inr hs, rfl⟩⟩
  | case5 index seen r rest label hr ho hs ih =>
    obtain ⟨before, r', rest', other, rfl, hl, hstand, hcase⟩ := ih h
    have hnone : seen.lookup label = none := Option.not_isSome_iff_eq_none.1 hs
    refine ⟨r :: before, r', rest', other, rfl, hl, ?_, ?_⟩
    · rw [labelsOf, List.filterMap_cons_some hr, stand_cons_iff index]
      exact ⟨ho, hnone, hstand⟩
    · rw [labelsOf, List.filterMap_cons_some hr, List.length_cons, ← Nat.add_assoc,
        Nat.add_right_comm]
      rcases hcase with hcase | ⟨hout, hdup, he⟩
      · exact .inl hcase
      · refine .inr ⟨hout, ?_, he⟩
        by_cases hne : other = label
        · exact .inl (hne ▸ List.mem_cons_self)
        · rw [lookup_cons_of_ne hne] at hdup
          exact hdup.imp_left (List.mem_cons_of_mem _)

/-! ## Where labels lead -/

/-- A label is found where it was seen, or else at the first stage that carries it. -/
theorem lookup_labels {index : Nat} {seen places : List (String × Nat)} {rs : List Routing}
    (h : labels index seen rs = .ok places) (target : String) :
    places.lookup target =
      (seen.lookup target).or ((rs.findIdx? (·.label = some target)).map (index + ·)) := by
  fun_induction labels index seen rs with
  | case1 =>
    cases h
    simp
  | case2 index seen r rest hr ih =>
    rw [ih h, List.findIdx?_cons]
    simp [hr, Function.comp_def, Nat.add_assoc, Nat.add_comm 1]
  | case3 => cases h
  | case4 => cases h
  | case5 index seen r rest label hr ho hs ih =>
    have hnone : seen.lookup label = none := Option.not_isSome_iff_eq_none.1 hs
    rw [ih h, List.findIdx?_cons]
    by_cases ht : target = label
    · subst ht
      simp [hr, hnone]
    · rw [lookup_cons_of_ne ht]
      simp [hr, Ne.symm ht, Function.comp_def, Nat.add_assoc, Nat.add_comm 1]

/-! ## Compiled plans -/

/-- A chain is accepted exactly when no label is used twice and none names the end. -/
theorem compile_isOk_iff (rs : List Routing) :
    (∃ plan, compile rs = .ok plan) ↔ (labelsOf rs).Nodup ∧ outTarget ∉ labelsOf rs := by
  have hstand : Stand [] (labelsOf rs) ↔ (labelsOf rs).Nodup ∧ outTarget ∉ labelsOf rs :=
    ⟨fun h ↦ ⟨h.nodup, h.not_out⟩, fun h ↦ ⟨h.1, h.2, fun _ _ ↦ rfl⟩⟩
  rw [← hstand, ← labels_isOk_iff 0, compile]
  cases labels 0 [] rs with
  | error e => exact ⟨fun ⟨_, h⟩ ↦ (by cases h), fun ⟨_, h⟩ ↦ (by cases h)⟩
  | ok places => exact ⟨fun _ ↦ ⟨places, rfl⟩, fun _ ↦ ⟨_, rfl⟩⟩

/-- A chain that is not accepted has a first stage with a label that names the end or that an
earlier stage carries, and the error says which and why. -/
theorem exists_offender_of_compile {rs : List Routing} {e : PipelineError}
    (h : compile rs = .error e) :
    ∃ before r rest label, rs = before ++ r :: rest ∧ r.label = some label ∧
      (labelsOf before).Nodup ∧ outTarget ∉ labelsOf before ∧
      (label = outTarget ∧ e = reserved before.length ∨
        label ≠ outTarget ∧ label ∈ labelsOf before ∧ e = duplicate before.length label) := by
  rw [compile] at h
  cases hx : labels 0 [] rs with
  | ok places =>
    rw [hx] at h
    cases h
  | error e' =>
    rw [hx] at h
    cases h
    obtain ⟨before, r, rest, label, hrs, hl, hstand, hcase⟩ := exists_offender hx
    refine ⟨before, r, rest, label, hrs, hl, hstand.nodup, hstand.not_out, ?_⟩
    simpa using hcase

end Conduit.RoutePlan
