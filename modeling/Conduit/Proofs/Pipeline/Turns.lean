import Conduit.Pipeline.Registry
import Conduit.Proofs.Dictionary
import Conduit.Proofs.Pipeline.Phases

/-!
# Pipelines live through histories

A pipeline answers the moves of its machine with its connectors. Whatever they answer, in a turn it
stays the pipeline that it is, and its machine makes moves (`Pipeline.goes_turn`). What happens to
the machine until a request is answered is therefore a list of acts (`Pipeline.leads_request`), and
so it is for all pipelines that a registry has take turns (`Registry.leads_settle`). What holds of a
machine after all acts holds of the machines that run: they are in order whenever they were made of
parts (`Pipeline.orderly_requests`).
-/

namespace Conduit

open Stage

variable {σ : Type} [Behaviour σ]

namespace History

theorem machine_next {h h' : History σ} (hm : h.machine = h'.machine) (a : Act) :
    (h.next a).machine = (h'.next a).machine := by
  cases a with
  | post request => exact congrArg (·.post request) hm
  | collect => exact congrArg (fun m : Machine σ ↦ { m with replies := m.replies.tail }) hm
  | move patience moment move =>
    unfold next
    dsimp only
    rw [hm]
    split
    · exact hm
    · rfl

/-- What happens to a machine does not depend on what has been noted. -/
theorem machine_after {h h' : History σ} (hm : h.machine = h'.machine) (acts : List Act) :
    (h.after acts).machine = (h'.after acts).machine := by
  induction acts generalizing h h' with
  | nil => exact hm
  | cons a acts ih => exact ih (machine_next hm a)

end History

namespace Machine

/-- There are acts that lead from the first machine to the second. -/
def Leads (m m' : Machine σ) : Prop := ∃ acts, (m.history.after acts).machine = m'

theorem Leads.refl (m : Machine σ) : Leads m m := ⟨[], rfl⟩

theorem Leads.trans {m₁ m₂ m₃ : Machine σ} (h : m₁.Leads m₂) (h' : m₂.Leads m₃) : m₁.Leads m₃ := by
  obtain ⟨acts, rfl⟩ := h
  obtain ⟨acts', rfl⟩ := h'
  refine ⟨acts ++ acts', ?_⟩
  rw [History.after_append]
  exact @History.machine_after σ _ (m₁.history.after acts)
    (m₁.history.after acts).machine.history rfl acts'

theorem leads_step {m : Machine σ} {patience : Nat} {moment : Moment} {move : Move}
    {out : Moved σ} (h : m.step patience moment move = some out) : m.Leads out.machine := by
  refine ⟨[.move patience moment move], ?_⟩
  simp [History.after, History.next, history, h]

theorem leads_post (m : Machine σ) (request : Request) : m.Leads (m.post request) :=
  ⟨[.post request], rfl⟩

theorem leads_collect (m : Machine σ) : m.Leads { m with replies := m.replies.tail } :=
  ⟨[.collect], rfl⟩

/-- Acts do not bring a machine out of order. -/
theorem Leads.orderly {m m' : Machine σ} (h : m.Leads m') (hm : m.Orderly) : m'.Orderly := by
  obtain ⟨acts, rfl⟩ := h
  exact History.orderly hm acts

/-- The machine makes moves, while nobody asks anything of it. -/
inductive Works : Machine σ → Machine σ → Prop
  | refl (m : Machine σ) : Works m m
  | step {m m' : Machine σ} {patience : Nat} {moment : Moment} {move : Move} {out : Moved σ} :
    m.step patience moment move = some out → Works out.machine m' → Works m m'

theorem Works.trans {m₁ m₂ m₃ : Machine σ} (h : m₁.Works m₂) (h' : m₂.Works m₃) : m₁.Works m₃ := by
  induction h with
  | refl => exact h'
  | step hs _ ih => exact .step hs (ih h')

theorem Works.leads {m m' : Machine σ} (h : m.Works m') : m.Leads m' := by
  induction h with
  | refl => exact .refl _
  | step hs _ ih => exact (leads_step hs).trans ih

/-- What every move keeps, moves one after the other keep. -/
theorem Works.induction {P : Machine σ → Prop} {m m' : Machine σ} (h : m.Works m')
    (hstep : ∀ {m m' : Machine σ} {deed : Option (Deed σ)}, P m → m.Does deed m' → P m')
    (hm : P m) : P m' := by
  induction h with
  | refl => exact hm
  | step hs _ ih => exact ih (hstep hm (does_of_step hs))

end Machine

namespace Pipeline

variable {p p' q : Pipeline} {ctx ctx' : Context}

/-- The pipeline is the one that it was, and its machine has made moves. -/
structure Goes (p p' : Pipeline) : Prop where
  id : p'.id = p.id
  definition : p'.definition = p.definition
  works : p.machine.Works p'.machine

theorem Goes.refl (p : Pipeline) : p.Goes p := ⟨rfl, rfl, .refl _⟩

theorem Goes.trans {p₁ p₂ p₃ : Pipeline} (h : p₁.Goes p₂) (h' : p₂.Goes p₃) : p₁.Goes p₃ :=
  ⟨h'.id.trans h.id, h'.definition.trans h.definition, h.works.trans h'.works⟩

/-- A move with other connectors is a move of the pipeline. -/
theorem goes_make {move : Move} (h : q.make move ctx = some (p', ctx')) (hid : q.id = p.id)
    (hd : q.definition = p.definition) (hm : q.machine = p.machine) : p.Goes p' := by
  obtain ⟨out, hs, he⟩ := Option.map_eq_some_iff.1 h
  cases he
  exact ⟨hid, hd, .step (hm ▸ hs) (.refl _)⟩

theorem goes_receive (h : p.receive ctx = some (p', ctx')) : p.Goes p' := by
  obtain ⟨r, -, h⟩ := Option.bind_eq_some_iff.1 h
  split at h
  · cases h
  · split at h
    · cases h
    · exact goes_make h rfl rfl rfl
    · split at h
      · exact goes_make h rfl rfl rfl
      · cases h
    · split at h
      · cases h
      · cases h
        exact ⟨rfl, rfl, .refl _⟩

theorem goes_send (h : p.send ctx = some (p', ctx')) : p.Goes p' := by
  obtain ⟨r, -, h⟩ := Option.bind_eq_some_iff.1 h
  split at h
  · obtain ⟨⟨answer, outbound, around⟩, -, h⟩ := Option.bind_eq_some_iff.1 h
    dsimp only at h
    exact goes_make h rfl rfl rfl
  · cases h

theorem goes_launch (h : p.launch ctx = some (p', ctx')) : p.Goes p' := by
  unfold launch at h
  split at h
  · exact goes_make h rfl rfl rfl
  · split at h
    · exact goes_make h rfl rfl rfl
    · split at h
      · exact goes_make h rfl rfl rfl
      · dsimp only at h
        exact goes_make h rfl rfl rfl

theorem machine_closeAll (p : Pipeline) (ctx : Context) :
    (p.closeAll ctx).1.machine = p.machine := rfl

theorem goes_tear (h : p.tear ctx = some (p', ctx')) : p.Goes p' := by
  unfold tear at h
  split at h
  · dsimp only at h
    exact goes_make h rfl rfl rfl
  · exact goes_make h rfl rfl (p.machine_closeAll ctx)
  · exact goes_make h rfl rfl rfl

/-- What happens to the pipeline in a turn is a move of its machine, if anything. -/
theorem goes_turn (h : p.turn ctx = some (p', ctx')) : p.Goes p' := by
  obtain ⟨move, hmove, h⟩ := List.exists_of_findSome?_eq_some h
  simp only [List.mem_cons, List.not_mem_nil, or_false] at hmove
  rcases hmove with rfl | rfl | rfl | rfl | rfl | rfl | rfl | rfl | rfl | rfl | rfl
  · exact goes_tear h
  · exact goes_launch h
  · exact goes_make h rfl rfl rfl
  · exact goes_make h rfl rfl rfl
  · exact goes_receive h
  · exact goes_make (q := { p with since := ctx.clock }) h rfl rfl rfl
  · exact goes_make h rfl rfl rfl
  · exact goes_send h
  · exact goes_make h rfl rfl rfl
  · exact goes_make h rfl rfl rfl
  · exact goes_make h rfl rfl rfl

/-- What happens to the machine in a turn is a list of acts. -/
theorem leads_turn (h : p.turn ctx = some (p', ctx')) : p.machine.Leads p'.machine :=
  (goes_turn h).works.leads

/-- A pipeline that is asked takes turns, until it answers or until it cannot go on. -/
theorem answer_cases (fuel : Nat) (p : Pipeline) (ctx : Context) : ∃ p' ctx', p.Goes p' ∧
    ((∃ reply rest, p'.machine.replies = reply :: rest ∧ answer fuel p ctx =
        (reply, { p' with machine := { p'.machine with replies := rest } }, ctx')) ∨
      answer fuel p ctx = (.error .terminated, p', ctx')) := by
  fun_induction answer fuel p ctx with
  | case1 p ctx => exact ⟨p, ctx, .refl _, .inr rfl⟩
  | case2 fuel p ctx reply rest hr => exact ⟨p, ctx, .refl _, .inl ⟨reply, rest, hr, rfl⟩⟩
  | case3 fuel p ctx hr p₁ ctx₁ ht ih =>
    obtain ⟨p', ctx', hg, h⟩ := ih
    exact ⟨p', ctx', (goes_turn ht).trans hg, h⟩
  | case4 fuel p ctx => exact ⟨p, ctx, .refl _, .inr rfl⟩

theorem leads_answer (fuel : Nat) (p : Pipeline) (ctx : Context) :
    p.machine.Leads (answer fuel p ctx).2.1.machine := by
  fun_induction answer fuel p ctx with
  | case1 => exact .refl _
  | case2 fuel p ctx reply rest hr =>
    have hc := p.machine.leads_collect
    rwa [hr] at hc
  | case3 fuel p ctx hr p' ctx' ht ih => exact (leads_turn ht).trans ih
  | case4 => exact .refl _

/-- What happens to the machine until a request is answered is a list of acts. -/
theorem leads_request (r : Request) (p : Pipeline) (ctx : Context) :
    p.machine.Leads (p.request r ctx).2.1.machine := by
  unfold request
  split
  · exact .refl _
  · exact (p.machine.leads_post r).trans
      (leads_answer turnLimit { p with machine := p.machine.post r } ctx)

/-- The pipeline and what is around it after requests, one after the other. -/
def requests (p : Pipeline) (ctx : Context) (rs : List Request) : Pipeline × Context :=
  rs.foldl (fun s r ↦ (s.1.request r s.2).2) (p, ctx)

theorem leads_requests (p : Pipeline) (ctx : Context) (rs : List Request) :
    p.machine.Leads (p.requests ctx rs).1.machine := by
  induction rs generalizing p ctx with
  | nil => exact .refl _
  | cons r rs ih => exact (leads_request r p ctx).trans (ih _ _)

/-- A pipeline of ready parts is in order whatever is requested of it. -/
theorem orderly_requests (sizing : Config.Sizing) (chain : Chain Builtin)
    (inbound outbound : Connector) (ctx : Context) (rs : List Request) :
    ((ofParts sizing chain inbound outbound).requests ctx rs).1.machine.Orderly := by
  refine (leads_requests _ ctx rs).orderly ?_
  rw [machine_ofParts]
  exact Machine.orderly_ready _ _ _ _

end Pipeline

namespace Registry

/-- The order is the same, and so is every pipeline, but for the moves that it has made. -/
structure Goes (r r' : Registry) : Prop where
  order : r'.order = r.order
  pipeline : ∀ id, Option.Rel Pipeline.Goes (r.registered.get? id) (r'.registered.get? id)

theorem rel_refl (p : Option Pipeline) : Option.Rel Pipeline.Goes p p := by
  cases p with
  | none => exact .none
  | some p => exact .some (.refl p)

theorem Goes.refl (r : Registry) : r.Goes r := ⟨rfl, fun _ ↦ rel_refl _⟩

theorem rel_trans {p₁ p₂ p₃ : Option Pipeline} (h : Option.Rel Pipeline.Goes p₁ p₂)
    (h' : Option.Rel Pipeline.Goes p₂ p₃) : Option.Rel Pipeline.Goes p₁ p₃ := by
  cases h with
  | none => exact h'
  | some hg =>
    cases h' with
    | some hg' => exact .some (hg.trans hg')

theorem Goes.trans {r₁ r₂ r₃ : Registry} (h : r₁.Goes r₂) (h' : r₂.Goes r₃) : r₁.Goes r₃ :=
  ⟨h'.order.trans h.order, fun id ↦ rel_trans (h.pipeline id) (h'.pipeline id)⟩

/-- A pipeline that has made moves, in its place. -/
theorem goes_put {r : Registry} {id : String} {p p' : Pipeline} (context : Context)
    (hp : r.registered.get? id = some p) (hg : p.Goes p') :
    r.Goes ({ r with context }.put id p') := by
  refine ⟨rfl, fun other ↦ ?_⟩
  rw [put, Dictionary.get?_insert]
  split
  · rename_i ho
    rw [ho, hp]
    exact .some hg
  · exact rel_refl _

theorem goes_turns {r r' : Registry} {ids : List String} (h : turns ids r = some r') :
    r.Goes r' := by
  induction ids generalizing r r' with
  | nil => cases h
  | cons id rest ih =>
    unfold turns at h
    split at h
    · exact ih h
    · rename_i p context hturn
      obtain ⟨q, hq, hturn⟩ := Option.bind_eq_some_iff.1 hturn
      obtain rfl := Option.some.inj h
      refine (goes_put context hq (Pipeline.goes_turn hturn)).trans ?_
      cases hrest : turns rest ({ r with context }.put id p) with
      | none => exact .refl _
      | some r₂ => exact ih hrest

theorem goes_settleWithin (fuel : Nat) (r : Registry) : r.Goes (r.settleWithin fuel) := by
  fun_induction settleWithin fuel r with
  | case1 => exact .refl _
  | case2 => exact .refl _
  | case3 fuel r r' hturns ih => exact (goes_turns hturns).trans ih

/-- Whatever happens until all pipelines wait, every pipeline stays where it is and makes moves. -/
theorem goes_settle (r : Registry) : r.Goes r.settle := goes_settleWithin Pipeline.turnLimit r

/-- What happens to a machine until all pipelines wait is a list of acts. -/
theorem leads_settle {r : Registry} {id : String} {p : Pipeline}
    (hp : r.registered.get? id = some p) :
    ∃ p', r.settle.registered.get? id = some p' ∧ p.machine.Leads p'.machine := by
  have h := r.goes_settle.pipeline id
  cases hp' : r.settle.registered.get? id with
  | none =>
    rw [hp, hp'] at h
    cases h
  | some p' =>
    rw [hp, hp'] at h
    cases h with
    | some hg => exact ⟨p', rfl, hg.works.leads⟩

end Registry

end Conduit
