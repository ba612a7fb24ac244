import Mathlib.Data.List.Basic

/-!
# Looking up by name, and results behind results

The first pair with a name counts. Which pair that is can be told by an `if`
(`lookup_cons_eq_ite`) and from the names alone (`lookup_eq_none_of_notMem`). A computation that
succeeds does so step by step (`bind_eq_ok`).
-/

namespace Conduit

/-! ## Looking up -/

section

variable {α : Type u} {name : String} {a : α} {l : List (String × α)}

theorem lookup_cons_eq_ite (name other : String) (a : α) (l : List (String × α)) :
    ((name, a) :: l).lookup other = if other = name then some a else l.lookup other := by
  rw [List.lookup_cons]
  by_cases h : other = name
  · simp [h]
  · simp [h, beq_eq_false_iff_ne.2 h]

theorem mem_of_lookup (h : l.lookup name = some a) : (name, a) ∈ l := by
  obtain ⟨before, after, rfl, -⟩ := List.lookup_eq_some_iff.1 h
  exact List.mem_append_right _ List.mem_cons_self

theorem lookup_eq_none_of_notMem (h : name ∉ l.map Prod.fst) : l.lookup name = none := by
  refine List.lookup_eq_none_iff.2 fun p hp ↦ bne_iff_ne.2 fun heq ↦ h ?_
  exact heq ▸ List.mem_map_of_mem hp

theorem lookup_isSome_iff_mem : (l.lookup name).isSome ↔ name ∈ l.map Prod.fst := by
  constructor
  · intro h
    obtain ⟨a, ha⟩ := Option.isSome_iff_exists.1 h
    exact List.mem_map_of_mem (mem_of_lookup ha)
  · intro h
    by_contra hnone
    obtain ⟨p, hp, rfl⟩ := List.mem_map.1 h
    have hne := List.lookup_eq_none_iff.1 (Option.not_isSome_iff_eq_none.1 hnone) p hp
    exact bne_iff_ne.1 hne rfl

end

/-! ## Results -/

section

variable {ε δ : Type u} {α β : Type v}

theorem bind_eq_ok {x : Except ε α} {f : α → Except ε β} {b : β} (h : (x >>= f) = .ok b) :
    ∃ a, x = .ok a ∧ f a = .ok b := by
  cases x with
  | error e => cases h
  | ok a => exact ⟨a, rfl, h⟩

theorem map_eq_ok {x : Except ε α} {f : α → β} {b : β} (h : x.map f = .ok b) :
    ∃ a, x = .ok a ∧ f a = b := by
  cases x with
  | error e => cases h
  | ok a => exact ⟨a, rfl, Except.ok.inj h⟩

theorem mapError_eq_ok {x : Except ε α} {f : ε → δ} {a : α} (h : x.mapError f = .ok a) :
    x = .ok a := by
  cases x with
  | error e => cases h
  | ok b => exact congrArg Except.ok (Except.ok.inj h)

end

end Conduit
