import Conduit.Proofs.Pipeline.Answers
import Mathlib.Data.List.Forall2

/-!
# A registry keeps its order

A registry holds pipelines under their ids, and beside them the ids in the order in which they were
added. The two are in step (`Registry.Sound`), and all changes that a registry makes to itself keep
them so. What it shows of itself follows the order (`Registry.Sound.agrees`).
-/

namespace Conduit

open Stage

namespace Config.Document

/-- A definition under an id that is new goes to the end. -/
theorem insertEntry_of_not_mem {id : String} (p : Pipeline) {entries : List (String × Pipeline)}
    (h : id ∉ entries.map Prod.fst) : insertEntry id p entries = entries ++ [(id, p)] := by
  induction entries with
  | nil => rfl
  | cons e entries ih =>
    rw [List.map_cons, List.mem_cons, not_or] at h
    rw [insertEntry, if_neg (Ne.symm h.1), ih h.2, List.cons_append]

end Config.Document

namespace Registry

/-- The ids are in order and each has its pipeline, which is sound. -/
structure Sound (r : Registry) : Prop where
  nodup : r.order.Nodup
  mem : ∀ id, id ∈ r.order ↔ (r.registered.get? id).isSome
  key : ∀ id p, r.registered.get? id = some p → p.id = id
  pipeline : ∀ id p, r.registered.get? id = some p → p.IsSound

variable {r r' : Registry} {id : String} {p : Pipeline}

theorem sound_empty (context : Context) : ({ context } : Registry).Sound where
  nodup := .nil
  mem _ := by simp [Dictionary.get?, Dictionary.empty]
  key _ _ h := by cases h
  pipeline _ _ h := by cases h

/-! ## Changes -/

theorem isSome_of_rel {p p' : Option Pipeline} (h : Option.Rel Pipeline.Goes p p') :
    p.isSome = p'.isSome := by
  cases h <;> rfl

/-- Every pipeline that is there now was there before. -/
theorem Goes.exists_of_get? (h : r.Goes r') {p' : Pipeline}
    (hp' : r'.registered.get? id = some p') : ∃ p, r.registered.get? id = some p ∧ p.Goes p' := by
  have hrel := h.pipeline id
  rw [hp'] at hrel
  generalize r.registered.get? id = found at hrel
  cases hrel with
  | @some p _ hg => exact ⟨p, rfl, hg⟩

theorem Sound.around (h : r.Sound) (context : Context) : ({ r with context } : Registry).Sound :=
  ⟨h.nodup, h.mem, h.key, h.pipeline⟩

theorem Sound.goes (h : r.Sound) (hg : r.Goes r') : r'.Sound := by
  refine ⟨hg.order ▸ h.nodup, fun id ↦ ?_, fun id p' hp' ↦ ?_, fun id p' hp' ↦ ?_⟩
  · rw [hg.order, h.mem, isSome_of_rel (hg.pipeline id)]
  · obtain ⟨p, hp, hg⟩ := hg.exists_of_get? hp'
    exact hg.id.trans (h.key id p hp)
  · obtain ⟨p, hp, hg⟩ := hg.exists_of_get? hp'
    exact hg.isSound (h.pipeline id p hp)

theorem contains_of_get? (hp : r.registered.get? id = some p) : r.contains id = true := by
  rw [contains, Dictionary.contains, hp]
  rfl

/-- Another sound pipeline in a place that is taken. -/
theorem Sound.put (h : r.Sound) (hid : r.contains id = true) (hkey : p.id = id)
    (hp : p.IsSound) : (r.put id p).Sound where
  nodup := h.nodup
  mem other := by
    rw [Registry.put, Dictionary.get?_insert]
    split
    · rename_i ho
      rw [ho]
      exact iff_of_true ((h.mem id).2 hid) rfl
    · exact h.mem other
  key other q hq := by
    rw [Registry.put, Dictionary.get?_insert] at hq
    split at hq
    · rename_i ho
      rw [← Option.some.inj hq, ho, hkey]
    · exact h.key other q hq
  pipeline other q hq := by
    rw [Registry.put, Dictionary.get?_insert] at hq
    split at hq
    · exact Option.some.inj hq ▸ hp
    · exact h.pipeline other q hq

theorem Sound.insert (h : r.Sound) (hid : r.contains id = false) (hkey : p.id = id)
    (hp : p.IsSound) : (r.insert id p).Sound where
  nodup := by
    have hnot : id ∉ r.order := fun hm ↦ by cases hid.symm.trans ((h.mem id).1 hm)
    exact List.nodup_append.2 ⟨h.nodup, List.nodup_singleton id,
      fun a ha b hb he ↦ hnot (List.mem_singleton.1 hb ▸ he ▸ ha)⟩
  mem other := by
    rw [Registry.insert, Registry.put, Dictionary.get?_insert, List.mem_append, List.mem_singleton,
      h.mem]
    split
    · rename_i ho
      exact iff_of_true (.inr ho) rfl
    · rename_i ho
      exact or_iff_left ho
  key other q hq := by
    rw [Registry.insert, Registry.put, Dictionary.get?_insert] at hq
    split at hq
    · rename_i ho
      rw [← Option.some.inj hq, ho, hkey]
    · exact h.key other q hq
  pipeline other q hq := by
    rw [Registry.insert, Registry.put, Dictionary.get?_insert] at hq
    split at hq
    · exact Option.some.inj hq ▸ hp
    · exact h.pipeline other q hq

theorem Sound.drop (h : r.Sound) (id : String) : (r.drop id).Sound where
  nodup := h.nodup.filter _
  mem other := by
    rw [Registry.drop, Dictionary.get?_erase, List.mem_filter, h.mem, bne_iff_ne]
    split
    · rename_i ho
      exact iff_of_false (fun hm ↦ hm.2 ho) nofun
    · rename_i ho
      exact and_iff_left ho
  key other q hq := by
    rw [Registry.drop, Dictionary.get?_erase] at hq
    split at hq
    · cases hq
    · exact h.key other q hq
  pipeline other q hq := by
    rw [Registry.drop, Dictionary.get?_erase] at hq
    split at hq
    · cases hq
    · exact h.pipeline other q hq

/-! ## What is shown -/

/-- Everything that a registry shows of its pipelines goes by the order of their ids. -/
structure Agrees (r : Registry) : Prop where
  nodup : r.ids.Nodup
  contains : ∀ id, id ∈ r.ids ↔ r.contains id = true
  key : ∀ id p, r.find id = .ok p → p.id = id
  size : r.size = r.ids.length
  pipelines : r.pipelines.map Prod.fst = r.ids
  statuses : List.Forall₂ (fun id report ↦ r.status id = .ok report) r.ids r.statuses
  snapshot : r.snapshot.entries = r.ids.filterMap fun id ↦
    ((r.registered.get? id).bind Pipeline.definition).map (id, ·)

theorem find_eq_ok_iff : r.find id = .ok p ↔ r.registered.get? id = some p := by
  unfold find
  split
  · rename_i hp
    rw [hp]
    exact ⟨fun h ↦ congrArg some (Except.ok.inj h), fun h ↦ congrArg Except.ok (Option.some.inj h)⟩
  · rename_i hp
    rw [hp]
    exact iff_of_false nofun nofun

/-- Definitions under different ids are gathered in their order. -/
theorem foldl_definitions {pipelines : List (String × Pipeline)} (d : Config.Document)
    (h : (d.ids ++ pipelines.map Prod.fst).Nodup) :
    (pipelines.foldl (fun (d : Config.Document) (e : String × Pipeline) ↦
        match e.2.definition with
        | some definition => d.insert e.1 definition
        | none => d) d).entries =
      d.entries ++ pipelines.filterMap fun e ↦ e.2.definition.map (e.1, ·) := by
  induction pipelines generalizing d with
  | nil => exact (List.append_nil _).symm
  | cons e pipelines ih =>
    rw [List.foldl_cons, List.filterMap_cons]
    cases hd : e.2.definition with
    | none =>
      refine ih d (h.sublist ?_)
      exact (List.sublist_cons_self _ _).append_left _
    | some definition =>
      have hnew : e.1 ∉ d.entries.map Prod.fst := fun hm ↦
        (List.nodup_append.1 h).2.2 e.1 hm e.1 List.mem_cons_self rfl
      have hinsert : (d.insert e.1 definition).entries = d.entries ++ [(e.1, definition)] :=
        Config.Document.insertEntry_of_not_mem definition hnew
      refine (ih _ ?_).trans ?_
      · rw [Config.Document.ids, hinsert, List.map_append, List.append_assoc]
        exact h
      · rw [hinsert, List.append_assoc]
        rfl

theorem Sound.map_pipelines (h : r.Sound) : r.pipelines.map Prod.fst = r.order := by
  have hmap (ids : List String) (hids : ∀ id ∈ ids, (r.registered.get? id).isSome) :
      (ids.filterMap fun id ↦ (r.registered.get? id).map (id, ·)).map Prod.fst = ids := by
    induction ids with
    | nil => rfl
    | cons id ids ih =>
      obtain ⟨p, hp⟩ := Option.isSome_iff_exists.1 (hids id List.mem_cons_self)
      rw [List.filterMap_cons, hp]
      exact congrArg (id :: ·) (ih fun other ho ↦ hids other (List.mem_cons_of_mem _ ho))
  exact hmap r.order fun id hid ↦ (h.mem id).1 hid

theorem Sound.agrees (h : r.Sound) : r.Agrees where
  nodup := h.nodup
  contains := h.mem
  key id p hp := h.key id p (find_eq_ok_iff.1 hp)
  size := Dictionary.size_eq_length h.nodup h.mem
  pipelines := h.map_pipelines
  statuses := by
    have hstatuses (pipelines : List (String × Pipeline)) (hp : ∀ e ∈ pipelines, e ∈ r.pipelines) :
        List.Forall₂ (fun id report ↦ r.status id = .ok report) (pipelines.map Prod.fst)
          (pipelines.map fun e ↦ e.2.report) := by
      refine List.forall₂_map_left_iff.2 (List.forall₂_map_right_iff.2 (List.forall₂_same.2 ?_))
      intro e he
      obtain ⟨id, -, hid⟩ := List.mem_filterMap.1 (hp e he)
      obtain ⟨p, hget, rfl⟩ := Option.map_eq_some_iff.1 hid
      rw [status, find_eq_ok_iff.2 hget]
      rfl
    rw [ids, ← h.map_pipelines]
    exact hstatuses r.pipelines fun _ he ↦ he
  snapshot := by
    refine (foldl_definitions {} ?_).trans ?_
    · rw [h.map_pipelines]
      exact h.nodup
    · rw [List.nil_append, pipelines, List.filterMap_filterMap]
      refine List.filterMap_congr fun id _ ↦ ?_
      cases r.registered.get? id <;> rfl

end Registry

end Conduit
