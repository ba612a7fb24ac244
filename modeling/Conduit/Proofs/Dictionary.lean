import Conduit.Dictionary
import Conduit.Proofs.Basic
import Mathlib.Data.List.Nodup

/-!
# What is found in a dictionary

After an entry was put in or taken out, its name shows that, and every other name what it showed
before (`get?_insert`, `get?_erase`). A dictionary is known by what it shows (`ext_get?`).
-/

namespace Conduit

namespace Dictionary

variable {α : Type u}

theorem lookup_insertEntry (name other : String) (a : α) (l : List (String × α)) :
    (insertEntry name a l).lookup other = if other = name then some a else l.lookup other := by
  induction l with
  | nil => exact lookup_cons_eq_ite name other a []
  | cons e rest ih =>
    obtain ⟨n, b⟩ := e
    unfold insertEntry
    split
    · exact lookup_cons_eq_ite name other a _
    · split
      · rename_i heq
        subst heq
        simp only [lookup_cons_eq_ite]
        split <;> rfl
      · rename_i hne
        simp only [lookup_cons_eq_ite, ih]
        by_cases ho : other = name
        · simp [ho, hne]
        · simp [ho]

theorem get?_insert (d : Dictionary α) (name other : String) (a : α) :
    (d.insert name a).get? other = if other = name then some a else d.get? other :=
  lookup_insertEntry name other a d.entries

theorem get?_erase (d : Dictionary α) (name other : String) :
    (d.erase name).get? other = if other = name then none else d.get? other := by
  have hfilter (l : List (String × α)) : (l.filter fun e ↦ e.1 != name).lookup other =
      if other = name then none else l.lookup other := by
    induction l with
    | nil => simp
    | cons e l ih =>
      obtain ⟨n, a⟩ := e
      by_cases hn : n = name
      · subst hn
        rw [List.filter_cons_of_neg (by simp), ih, lookup_cons_eq_ite]
        split <;> rfl
      · rw [List.filter_cons_of_pos (by simpa using hn), lookup_cons_eq_ite, lookup_cons_eq_ite, ih]
        by_cases ho : other = name
        · simp [ho, Ne.symm hn]
        · simp [ho]
  exact hfilter d.entries

theorem nodup_names (d : Dictionary α) : d.names.Nodup :=
  List.pairwise_map.2 (d.sorted.imp fun h ↦ String.ne_of_lt h)

theorem mem_names {d : Dictionary α} {name : String} : name ∈ d.names ↔ (d.get? name).isSome :=
  lookup_isSome_iff_mem.symm

/-- A dictionary has as many entries as there are names in any list of its names. -/
theorem size_eq_length {d : Dictionary α} {l : List String} (hn : l.Nodup)
    (hm : ∀ name, name ∈ l ↔ (d.get? name).isSome) : d.size = l.length := by
  have hperm : d.names.Perm l :=
    (List.perm_ext_iff_of_nodup d.nodup_names hn).2 fun name ↦ mem_names.trans (hm name).symm
  rw [← hperm.length_eq, names, List.length_map, size]

theorem mem_entries_iff {d : Dictionary α} {e : String × α} :
    e ∈ d.entries ↔ d.get? e.1 = some e.2 := by
  refine ⟨fun h ↦ ?_, mem_of_lookup⟩
  obtain ⟨before, behind, hsplit⟩ := List.append_of_mem h
  refine List.lookup_eq_some_iff.2 ⟨before, behind, hsplit, fun e' he' ↦ ?_⟩
  have hlt := (List.pairwise_append.1 (hsplit ▸ d.sorted)).2.2 e' he' e List.mem_cons_self
  exact bne_iff_ne.2 (String.ne_of_lt hlt).symm

theorem ext_get? {d d' : Dictionary α} (h : ∀ name, d.get? name = d'.get? name) : d = d' :=
  ext <| by
    have hnodup (d : Dictionary α) : d.entries.Nodup :=
      d.sorted.imp fun hlt ↦ ne_of_apply_ne Prod.fst (String.ne_of_lt hlt)
    refine List.Perm.eq_of_pairwise (fun a b _ _ hlt hgt ↦ absurd hgt (String.lt_asymm hlt))
      d.sorted d'.sorted ((List.perm_ext_iff_of_nodup (hnodup d) (hnodup d')).2 fun e ↦ ?_)
    rw [mem_entries_iff, mem_entries_iff, h]

end Dictionary

end Conduit
