import Conduit.Proofs.Chain.Call
import Conduit.Proofs.Stage.Twins

/-!
# Chains in step

Two chains whose stages are in step, place by place, and that have the same pieces pending but for
their names, are shown twins: they walk the same way, and stay in step (`Chain.Twins.walkFrom`). So
do whole calls (`Chain.Twins.process`, `Chain.Twins.expire`). The names that are handed out on the
way correspond to each other one after the other (`Renames`).
-/

namespace Conduit

open Stage

/-! ## Names -/

/-- The same name, or the names of the families that were made as the `k`-th after `a` others and
after `b` others. -/
def Renames (a b : Nat) (name name' : String) : Prop :=
  name = name' ∨ ∃ k, name = Splitter.familyName (a + k) ∧ name' = Splitter.familyName (b + k)

theorem Renames.eq {a : Nat} {name name' : String} (h : Renames a a name name') :
    name = name' := by
  rcases h with rfl | ⟨k, rfl, rfl⟩ <;> rfl

/-- As many names have been handed out since `a` as since `b`. -/
def KeepsPace (a b fresh fresh' : Nat) : Prop := ∃ k, fresh = a + k ∧ fresh' = b + k

theorem KeepsPace.add {a b fresh fresh' : Nat} (h : KeepsPace a b fresh fresh') (n : Nat) :
    KeepsPace a b (fresh + n) (fresh' + n) := by
  obtain ⟨k, rfl, rfl⟩ := h
  exact ⟨k + n, Nat.add_assoc _ _ _, Nat.add_assoc _ _ _⟩

theorem KeepsPace.renames {a b fresh fresh' : Nat} (h : KeepsPace a b fresh fresh') :
    Renames a b (Splitter.familyName fresh) (Splitter.familyName fresh') := by
  obtain ⟨k, rfl, rfl⟩ := h
  exact .inr ⟨k, rfl, rfl⟩

/-! ## Records -/

variable {ρ : String → String → Prop} {offset : Nat → UInt64}

structure Generation.Twin (ρ : String → String → Prop) (g g' : Generation) : Prop where
  continuation : g.continuation = g'.continuation
  pieces : List.Forall₂ (Message.Twin ρ) g.pieces g'.pieces

structure Publication.Twin (ρ : String → String → Prop) (p p' : Publication) : Prop where
  queue : p.queue = p'.queue
  copy : p.copy.Twin ρ p'.copy

/-- What corresponds by equality is equal. -/
theorem eq_of_forall₂ {α : Type} {R : α → α → Prop} (hR : ∀ x y, R x y → x = y) {xs ys : List α}
    (h : List.Forall₂ R xs ys) : xs = ys :=
  List.forall₂_eq_eq_eq ▸ h.imp hR

theorem Publication.Twin.eq (hρ : ∀ name name', ρ name name' → name = name') {p p' : Publication}
    (h : p.Twin ρ p') : p = p' := by
  obtain ⟨queue, copy⟩ := p
  obtain ⟨rfl, hcopy⟩ := h
  obtain rfl := hcopy.eq hρ
  rfl

inductive Ending.Twin (ρ : String → String → Prop) : Ending → Ending → Prop
  | delivered {w w' : Wrapper} (h : w.Twin ρ w') : Twin ρ (.delivered w) (.delivered w')
  | dropped : Twin ρ .dropped .dropped
  | held : Twin ρ .held .held
  | generated {g g' : Generation} (h : g.Twin ρ g') : Twin ρ (.generated g) (.generated g')
  | failed (e : PipelineError) : Twin ρ (.failed e) (.failed e)
  | crashed : Twin ρ .crashed .crashed

inductive Next.Twin (ρ : String → String → Prop) : Next → Next → Prop
  | go (i : Nat) {w w' : Wrapper} (h : w.Twin ρ w') : Twin ρ (.go i w) (.go i w')
  | done {e e' : Ending} (h : e.Twin ρ e') : Twin ρ (.done e) (.done e')

/-- The same visit, with timers whose numbers differ by the offset of its place. -/
structure Visit.Twin (ρ : String → String → Prop) (offset : Nat → UInt64) (v v' : Visit) :
    Prop where
  stage : v.stage = v'.stage
  entered : v.entered.Twin ρ v'.entered
  next : v.next.Twin ρ v'.next
  published : List.Forall₂ (Publication.Twin ρ) v.published v'.published
  timers : v.timers = v'.timers.map (Timer.shift (offset v'.stage))

structure Output.Twin (ρ : String → String → Prop) (o o' : Output) : Prop where
  delivered : List.Forall₂ (Wrapper.Twin ρ) o.delivered o'.delivered
  dropped : o.dropped = o'.dropped
  held : o.held = o'.held
  errors : o.errors = o'.errors

theorem Output.twin_empty : ({} : Output).Twin ρ {} := ⟨.nil, rfl, rfl, rfl⟩

theorem Output.Twin.eq (hρ : ∀ name name', ρ name name' → name = name') {o o' : Output}
    (h : o.Twin ρ o') : o = o' := by
  obtain ⟨delivered, dropped, held, errors⟩ := o
  obtain ⟨hdelivered, rfl, rfl, rfl⟩ := h
  obtain rfl := eq_of_forall₂ (fun _ _ hw ↦ hw.eq hρ) hdelivered
  rfl

theorem Output.Twin.append {o₁ o₂ o₁' o₂' : Output} (h₁ : o₁.Twin ρ o₁') (h₂ : o₂.Twin ρ o₂') :
    (o₁ ++ o₂).Twin ρ (o₁' ++ o₂') where
  delivered := List.rel_append h₁.delivered h₂.delivered
  dropped := congrArg₂ (· + ·) h₁.dropped h₂.dropped
  held := congrArg₂ (· + ·) h₁.held h₂.held
  errors := congrArg₂ (· ++ ·) h₁.errors h₂.errors

/-! ## Chains -/

structure Slot.Twin (ρ : String → String → Prop) (offset : UInt64) (s s' : Slot Builtin) :
    Prop where
  routing : s.routing = s'.routing
  stage : s.stage.Twin ρ offset s'.stage

theorem Slot.Twin.displayName {offset : UInt64} {s s' : Slot Builtin}
    (h : Slot.Twin ρ offset s s') : s.displayName = s'.displayName := by
  unfold Stage.Slot.displayName
  rw [h.routing]
  exact congrArg (fun kind : Kind ↦ s'.routing.label.getD kind.name) h.stage.kind

namespace Chain

/-- The chains are in step, the stage at each place with an offset of its own. -/
structure Twins (ρ : String → String → Prop) (offset : Nat → UInt64) (c c' : Chain Builtin) :
    Prop where
  plan : c.plan = c'.plan
  maxHops : c.maxHops = c'.maxHops
  slots : ∀ i, Option.Rel (Slot.Twin ρ (offset i)) c.slots[i]? c'.slots[i]?
  pending : List.Forall₂ (Generation.Twin ρ) c.pending c'.pending

variable {c c' : Chain Builtin} {i : Nat} {slot slot' : Slot Builtin} {w w' : Wrapper}

theorem Twins.withPending (h : c.Twins ρ offset c') {families families' : List Generation}
    (hf : List.Forall₂ (Generation.Twin ρ) families families') :
    (c.withPending families).Twins ρ offset (c'.withPending families') := { h with pending := hf }

theorem Twins.hopLimit (h : c.Twins ρ offset c') : c.hopLimit = c'.hopLimit := by
  unfold Chain.hopLimit
  rw [h.maxHops]

theorem Twins.route (h : c.Twins ρ offset c') (i : Nat) : c.route i = c'.route i := by
  unfold Chain.route
  rw [h.plan]

/-- A new state for the stages of a place, in which they are in step. -/
theorem Twins.setStage (h : c.Twins ρ offset c') {s s' : Builtin} (hs : s.Twin ρ (offset i) s') :
    (c.setStage i s).Twins ρ offset (c'.setStage i s') where
  plan := h.plan
  maxHops := h.maxHops
  slots j := by
    have hj := h.slots j
    simp only [Chain.setStage, List.getElem?_modify]
    generalize c.slots[j]? = found at hj
    generalize c'.slots[j]? = found' at hj
    by_cases hij : i = j
    · subst hij
      cases hj with
      | none => simp
      | some hslot => simpa using Option.Rel.some ⟨hslot.routing, hs⟩
    · simpa [hij] using hj
  pending := h.pending

/-! ## Visits -/

theorem twin_publications (h : w.Twin ρ w') (names : List String) :
    List.Forall₂ (Publication.Twin ρ) (publications w names).1 (publications w' names).1 ∧
      (publications w names).2.Twin ρ (publications w' names).2 := by
  induction names generalizing w w' with
  | nil => exact ⟨.nil, h⟩
  | cons name names ih =>
    have hadd : ({ w with redirects := w.redirects.add name } : Wrapper).Twin ρ
        { w' with redirects := w'.redirects.add name } :=
      { h with redirects := by rw [h.redirects] }
    obtain ⟨hcopies, hw⟩ := ih hadd
    exact ⟨.cons ⟨rfl, hadd⟩ hcopies, hw⟩

theorem twin_branch (r : Route) (i : Nat) (h : w.Twin ρ w') :
    (r.branch i w).Twin ρ (r.branch i w') := by
  unfold Route.branch
  rw [h.accepted]
  split
  · exact .go _ h
  · split
    · exact .go _ (h.decide true)
    · exact .done .dropped

theorem twin_stageError {offset : UInt64} (h : Slot.Twin ρ offset slot slot') (e : PipelineError) :
    (stageError slot e).Twin ρ (stageError slot' e) := by
  unfold stageError
  rw [h.displayName]
  exact .done (.failed _)

theorem twin_follow {offset : UInt64} (h : Slot.Twin ρ offset slot slot') (r : Route) (i : Nat)
    {o o' : Outcome} (ho : o.Twin ρ o') :
    (follow slot r i o).1.Twin ρ (follow slot' r i o').1 ∧
      List.Forall₂ (Publication.Twin ρ) (follow slot r i o).2 (follow slot' r i o').2 := by
  have hcopies {w w' : Wrapper} (hw : w.Twin ρ w') : List.Forall₂ (Publication.Twin ρ)
      (publications w slot.routing.redirect).1 (publications w' slot'.routing.redirect).1 := by
    rw [← h.routing]
    exact (twin_publications hw slot.routing.redirect).1
  cases ho with
  | @done w w' hw =>
    have hturn : (if slot.routing.negate then { w with accepted := !w.accepted } else w).Twin ρ
        (if slot'.routing.negate then { w' with accepted := !w'.accepted } else w') := by
      rw [h.routing]
      split
      · exact { hw with accepted := congrArg (! ·) hw.accepted }
      · exact hw
    obtain ⟨hcopies, hlast⟩ := twin_publications hturn slot.routing.redirect
    unfold follow
    dsimp only
    rw [← h.routing] at hcopies hlast ⊢
    exact ⟨twin_branch r i hlast, hcopies⟩
  | generate hw hp => exact ⟨.done (.generated ⟨rfl, hp⟩), hcopies hw⟩
  | hold hw => exact ⟨.done .held, hcopies hw⟩
  | failed e => exact ⟨twin_stageError h e, .nil⟩
  | crashed => exact ⟨.done .crashed, .nil⟩

end Chain

/-- The same step, with chains that stay in step. -/
structure Step.Twin (ρ : String → String → Prop) (offset : Nat → UInt64) (s s' : Step Builtin) :
    Prop where
  chain : s.chain.Twins ρ offset s'.chain
  visit : s.visit.Twin ρ offset s'.visit
  named : s.named = s'.named

/-- The same walk, with chains that stay in step. -/
structure Chain.Walk.Twin (ρ : String → String → Prop) (offset : Nat → UInt64)
    (w w' : Chain.Walk Builtin) : Prop where
  ending : w.ending.Twin ρ w'.ending
  chain : w.chain.Twins ρ offset w'.chain
  visits : List.Forall₂ (Visit.Twin ρ offset) w.visits w'.visits
  named : w.named = w'.named

/-- The same call as far as it has come, with chains that stay in step. -/
structure Call.Twin (a b : Nat) (offset : Nat → UInt64) (c c' : Call Builtin) : Prop where
  chain : c.chain.Twins (Renames a b) offset c'.chain
  fresh : KeepsPace a b c.fresh c'.fresh
  output : c.output.Twin (Renames a b) c'.output
  visits : List.Forall₂ (Visit.Twin (Renames a b) offset) c.visits c'.visits
  progress : c.progress = c'.progress

namespace Chain

variable {a b fresh fresh' i : Nat} {c c' : Chain Builtin} {slot slot' : Slot Builtin}
  {w w' : Wrapper}

theorem Twins.visit (h : c.Twins (Renames a b) offset c') (hf : KeepsPace a b fresh fresh')
    (hs : Slot.Twin (Renames a b) (offset i) slot slot') (hw : w.Twin (Renames a b) w')
    (clock : Clock) :
    (Chain.visit ⟨clock, fresh⟩ c i slot w).Twin (Renames a b) offset
      (Chain.visit ⟨clock, fresh'⟩ c' i slot' w') := by
  have hw := hw.mergeMetadata slot.routing.metadata
  unfold Chain.visit
  rw [← hs.routing, ← h.route]
  have hmeets : meets slot.routing.expect (w.mergeMetadata slot.routing.metadata).working =
      meets slot.routing.expect (w'.mergeMetadata slot.routing.metadata).working := by
    unfold meets
    cases slot.routing.expect with
    | none => rfl
    | some kind => exact congrArg (·.mapError Unviewable.toError) (hw.working.ensure kind)
  dsimp only
  rw [hmeets]
  split
  · exact ⟨h, ⟨rfl, hw, twin_stageError hs _, .nil, rfl⟩, rfl⟩
  · obtain ⟨hstate, houtcome, htimers, hnamed⟩ := Builtin.twin_process hf.renames hs.stage hw
    obtain ⟨hnext, hcopies⟩ := twin_follow hs (c.route i) i houtcome
    exact ⟨h.setStage hstate, ⟨rfl, hw, hnext, hcopies, htimers⟩, hnamed⟩

theorem Twins.slots_cases (h : c.Twins ρ offset c') (i : Nat) :
    c.slots[i]? = none ∧ c'.slots[i]? = none ∨
      ∃ slot slot', c.slots[i]? = some slot ∧ c'.slots[i]? = some slot' ∧
        Slot.Twin ρ (offset i) slot slot' := by
  have hi := h.slots i
  generalize c.slots[i]? = found at hi
  generalize c'.slots[i]? = found' at hi
  cases hi with
  | none => exact .inl ⟨rfl, rfl⟩
  | some hslot => exact .inr ⟨_, _, rfl, rfl, hslot⟩

/-- Behind the last stage twins are delivered, or dropped. -/
theorem Twins.walkFrom_end (h : c.Twins ρ offset c') (hw : w.Twin ρ w') (clock : Clock) (hops : Nat)
    (hs : c.slots[i]? = none) (hs' : c'.slots[i]? = none) :
    (Chain.walkFrom ⟨clock, fresh⟩ hops c i w).Twin ρ offset
      (Chain.walkFrom ⟨clock, fresh'⟩ hops c' i w') := by
  rw [Chain.walkFrom_end _ _ _ hs, Chain.walkFrom_end _ _ _ hs', hw.accepted]
  refine ⟨?_, h, .nil, rfl⟩
  dsimp only
  split
  · exact .delivered hw
  · exact .dropped

/-- Chains in step walk the same way. -/
theorem Twins.walkFrom (h : c.Twins (Renames a b) offset c') (hf : KeepsPace a b fresh fresh')
    (hw : w.Twin (Renames a b) w') (clock : Clock) (hops i : Nat) :
    (Chain.walkFrom ⟨clock, fresh⟩ hops c i w).Twin (Renames a b) offset
      (Chain.walkFrom ⟨clock, fresh'⟩ hops c' i w') := by
  induction hops generalizing c c' fresh fresh' i w w' clock with
  | zero =>
    rcases h.slots_cases i with ⟨hs, hs'⟩ | ⟨slot, slot', hs, hs', -⟩
    · exact h.walkFrom_end hw clock 0 hs hs'
    · rw [walkFrom_zero _ _ hs, walkFrom_zero _ _ hs', h.hopLimit]
      exact ⟨.failed _, h, .nil, rfl⟩
  | succ hops ih =>
    rcases h.slots_cases i with ⟨hs, hs'⟩ | ⟨slot, slot', hs, hs', hslot⟩
    · exact h.walkFrom_end hw clock (hops + 1) hs hs'
    · obtain ⟨hchain, hvisit, hnamed⟩ := h.visit hf hslot hw clock
      have hnext := hvisit.next
      generalize hn : (Chain.visit ⟨clock, fresh⟩ c i slot w).visit.next = next at hnext
      generalize hn' : (Chain.visit ⟨clock, fresh'⟩ c' i slot' w').visit.next = next' at hnext
      cases hnext with
      | done he =>
        rw [walkFrom_done _ _ _ hs hn, walkFrom_done _ _ _ hs' hn']
        exact ⟨he, hchain, .cons hvisit .nil, hnamed⟩
      | go j hw =>
        rw [walkFrom_go _ _ _ hs hn, walkFrom_go _ _ _ hs' hn']
        dsimp only [Moment.next]
        rw [← hnamed]
        obtain ⟨hending, hchain, hvisits, hrest⟩ := ih hchain (hf.add _) hw (clock.later 1) j
        exact ⟨hending, hchain, .cons hvisit hvisits, congrArg (_ + ·) hrest⟩

/-! ## Calls -/

end Chain

namespace Call

variable {a b : Nat} {c c' : Call Builtin} {w w' : Wrapper} {e e' : Ending}

theorem twin_outputOf (h : e.Twin ρ e') : (outputOf e).Twin ρ (outputOf e') := by
  cases h with
  | delivered hw => exact ⟨.cons hw .nil, rfl, rfl, rfl⟩
  | _ => exact ⟨.nil, rfl, rfl, rfl⟩

theorem twin_pendingOf (h : e.Twin ρ e') :
    List.Forall₂ (Generation.Twin ρ) (pendingOf e) (pendingOf e') := by
  cases h with
  | generated hg => exact .cons hg .nil
  | _ => exact .nil

theorem crashed_iff_of_twin (h : e.Twin ρ e') : e = .crashed ↔ e' = .crashed := by
  cases h with
  | crashed => exact Iff.rfl
  | _ => exact iff_of_false nofun nofun

theorem Twin.send (h : c.Twin a b offset c') (hw : w.Twin (Renames a b) w') (clock : Clock)
    (i : Nat) : (c.send clock i w).Twin a b offset (c'.send clock i w') := by
  have hwalk : (c.chain.walk (c.moment clock) i w).Twin (Renames a b) offset
      (c'.chain.walk (c'.moment clock) i w') := by
    unfold Chain.walk Call.moment
    rw [← h.chain.hopLimit, ← h.visits.length_eq]
    exact h.chain.walkFrom h.fresh hw _ _ i
  unfold Call.send
  generalize c.chain.walk (c.moment clock) i w = walk at hwalk
  generalize c'.chain.walk (c'.moment clock) i w' = walk' at hwalk
  obtain ⟨hending, hchain, hvisits, hnamed⟩ := hwalk
  refine ⟨hchain.withPending (List.rel_append (twin_pendingOf hending) hchain.pending), ?_,
    h.output.append (twin_outputOf hending), List.rel_append h.visits hvisits, ?_⟩
  · dsimp only [absorb]
    rw [← hnamed]
    exact h.fresh.add _
  · dsimp only [absorb]
    simp only [crashed_iff_of_twin hending]

theorem Twin.andThen (h : c.Twin a b offset c') {f f' : Call Builtin → Call Builtin}
    (hf : ∀ c c', Call.Twin a b offset c c' → (f c).Twin a b offset (f' c')) :
    (c.andThen f).Twin a b offset (c'.andThen f') := by
  unfold Call.andThen
  rw [← h.progress]
  split
  · exact hf c c' h
  · exact h

theorem Twin.atop (h : c.Twin a b offset c') {families families' : List Generation}
    (hf : List.Forall₂ (Generation.Twin (Renames a b)) families families') :
    (c.atop families).Twin a b offset (c'.atop families') :=
  { h with chain := h.chain.withPending hf }

theorem Twin.drain (h : c.Twin a b offset c') (clock : Clock) (patience : Nat) :
    (Call.drain clock patience c).Twin a b offset (Call.drain clock patience c') := by
  -- the induction needs the families by themselves, since a walk may put another one on top
  have hatop {families families' : List Generation}
      (hf : List.Forall₂ (Generation.Twin (Renames a b)) families families') :
      (Call.drain clock patience (c.atop families)).Twin a b offset
        (Call.drain clock patience (c'.atop families')) := by
    induction patience generalizing c c' families families' with
    | zero =>
      cases hf with
      | nil => exact h.atop .nil
      | cons hg hrest => exact { h.atop (.cons hg hrest) with progress := rfl }
    | succ patience ih =>
      cases hf with
      | nil => exact h.atop .nil
      | @cons g g' rest rest' hg hrest =>
        obtain ⟨i, pieces⟩ := g
        obtain ⟨i', pieces'⟩ := g'
        obtain ⟨hi, hpieces⟩ := hg
        obtain rfl : i = i' := hi
        cases hpieces with
        | nil => exact ih h hrest
        | @cons m m' more more' hm hmore =>
          rw [drain_atop_piece, drain_atop_piece]
          have hg : (⟨i, more⟩ : Generation).Twin (Renames a b) ⟨i, more'⟩ := ⟨rfl, hmore⟩
          refine ((h.atop (.cons hg hrest)).send (Wrapper.twin_ofMessage hm) clock i).andThen
            fun d d' hd ↦ ?_
          exact ih hd hd.chain.pending
  exact hatop h.chain.pending

end Call

namespace Chain

variable {a b fresh fresh' : Nat} {c c' : Chain Builtin}

/-- Chains in step are shown the same message. -/
theorem Twins.process (h : c.Twins (Renames a b) offset c') (hf : KeepsPace a b fresh fresh')
    (patience : Nat) (clock : Clock) (m : Message) :
    (c.process patience ⟨clock, fresh⟩ m).Twin a b offset
      (c'.process patience ⟨clock, fresh'⟩ m) := by
  have hm : (Wrapper.ofMessage m).Twin (Renames a b) (.ofMessage m) :=
    Wrapper.twin_ofMessage (.refl (fun _ ↦ .inl rfl) m)
  have hcall : ({ chain := c, fresh } : Call Builtin).Twin a b offset
      { chain := c', fresh := fresh' } := ⟨h, hf, Output.twin_empty, .nil, rfl⟩
  unfold Chain.process
  refine (hcall.drain clock patience).andThen fun d d' hd ↦ ?_
  exact (hd.send hm clock 0).andThen fun e e' he ↦ he.drain clock patience

/-- Chains in step are told of the same timer. -/
theorem Twins.expire (h : c.Twins (Renames a b) offset c') (hf : KeepsPace a b fresh fresh')
    (patience : Nat) (clock : Clock) (i : Nat) (token : UInt64) :
    (c.expire patience ⟨clock, fresh⟩ i (token + offset i)).Twin a b offset
      (c'.expire patience ⟨clock, fresh'⟩ i token) := by
  unfold Chain.expire
  simp only [Moment.now_mk]
  rcases h.slots_cases i with ⟨hs, hs'⟩ | ⟨slot, slot', hs, hs', hslot⟩
  · rw [hs, hs']
    exact ⟨h, hf, Output.twin_empty, .nil, rfl⟩
  · rw [hs, hs']
    obtain ⟨hstate, m, m', hm, hm', hrel⟩ := Builtin.twin_expire hslot.stage clock.now token
    have hcall : ({
        chain := c.setStage i (Behaviour.expire clock.now slot.stage (token + offset i)).state
        fresh } : Call Builtin).Twin a b offset {
        chain := c'.setStage i (Behaviour.expire clock.now slot'.stage token).state
        fresh := fresh' } := ⟨h.setStage hstate, hf, Output.twin_empty, .nil, rfl⟩
    dsimp only
    rw [hm, hm']
    refine Call.Twin.andThen ?_ fun d d' hd ↦ hd.drain clock patience
    cases hrel with
    | none => exact hcall
    | some hrel =>
      dsimp only
      rw [h.route, hslot.routing]
      exact hcall.send ((Wrapper.twin_ofMessage hrel).mergeMetadata _) clock _

end Chain

end Conduit
