import Conduit.Proofs.Chain.Keeps
import Conduit.Proofs.Queue.Directory
import Conduit.Stage.Build
import Mathlib.Data.List.Nodup

/-!
# What a visit publishes

A visit hands out a copy for each entry of its stage's redirect list, in order and whatever is
decided about the message; each copy is the wrapper as the stage left it, but for the names of the
queues so far (`Chain.mirrors_of_wrapper`). A visit that ends in an error of its stage hands out
nothing. This holds of every visit of every call (`Chain.visit_publishes`).

A redirect list is taken as it is configured. A queue that is named in it twice is published to
twice on one visit (`Chain.echo_publishes_twice`), so every named queue is published to exactly once
just when no name comes twice.
-/

namespace Conduit

open Stage

variable {σ : Type}

/-- The wrapper as the stage left it, unless the stage failed. -/
def Stage.Outcome.wrapper? : Outcome → Option Wrapper
  | .done w | .generate w _ | .hold w => some w
  | .failed _ | .crashed => none

namespace Visit

/-- The visit ends in an error of its stage. -/
def Fails (v : Visit) : Prop := (∃ e, v.next = .done (.failed e)) ∨ v.next = .done .crashed

/-- The names of the queues that the visit publishes to, in order. -/
def queues (v : Visit) : List String := v.published.map (·.queue)

/-- The visit publishes one copy of the wrapper for each name in turn. -/
structure Mirrors (v : Visit) (names : List String) (w : Wrapper) : Prop where
  queues : v.queues = names
  working : ∀ p ∈ v.published, p.copy.working = w.working
  metadata : ∀ p ∈ v.published, p.copy.metadata = w.metadata

/-- A queue that is not named sees nothing of the visit. -/
theorem Mirrors.queue_of_notMem {v : Visit} {names : List String} {w : Wrapper}
    (h : v.Mirrors names w) {name : String} (hn : name ∉ names) (d : Directory) :
    (d.publishAll v.published).queue name = d.queue name := by
  have hnone : v.published.filter (·.queue = name) = [] := by
    refine List.filter_eq_nil_iff.2 fun p hp hq ↦ hn ?_
    rw [← h.queues, ← of_decide_eq_true hq]
    exact List.mem_map_of_mem hp
  rw [Directory.queue_publishAll, hnone]
  rfl

/-- A queue that is named once gets one copy. -/
theorem Mirrors.queue_of_count {v : Visit} {names : List String} {w : Wrapper}
    (h : v.Mirrors names w) {name : String} (hn : names.count name = 1) :
    ∃ p ∈ v.published, p.queue = name ∧ ∀ d : Directory,
      (d.publishAll v.published).queue name = (Broadcast.publish p.copy (d.queue name)).2 := by
  have hlen : (v.published.filter (·.queue = name)).length = 1 := by
    have hcount : v.queues.count name = 1 := h.queues ▸ hn
    rw [Visit.queues, List.count_eq_countP, List.countP_map] at hcount
    rw [← List.countP_eq_length_filter, ← hcount]
    exact List.countP_congr fun p _ ↦ by simp
  obtain ⟨p, hp⟩ := List.length_eq_one_iff.1 hlen
  obtain ⟨hpub, hq⟩ := List.mem_filter.1 (hp ▸ List.mem_singleton_self p)
  refine ⟨p, hpub, of_decide_eq_true hq, fun d ↦ ?_⟩
  rw [Directory.queue_publishAll, hp]
  rfl

end Visit

/-! ## Copies -/

theorem queues_publications (w : Wrapper) (names : List String) :
    (publications w names).1.map (·.queue) = names := by
  induction names generalizing w with
  | nil => rfl
  | cons name rest ih => exact congrArg (name :: ·) (ih _)

theorem copies_publications (w : Wrapper) (names : List String) :
    ∀ p ∈ (publications w names).1, p.copy.working = w.working ∧ p.copy.metadata = w.metadata := by
  induction names generalizing w with
  | nil => exact fun p hp ↦ absurd hp List.not_mem_nil
  | cons name rest ih =>
    intro p hp
    rcases List.mem_cons.1 hp with rfl | hp
    · exact ⟨rfl, rfl⟩
    · exact ih { w with redirects := w.redirects.add name } p hp

/-- Copies of a wrapper that differs in what was decided at most mirror it. -/
theorem Visit.mirrors_of_published {v : Visit} {names : List String} {u w : Wrapper}
    (hp : v.published = (publications u names).1) (hw : u.working = w.working)
    (hm : u.metadata = w.metadata) : v.Mirrors names w where
  queues := by
    rw [Visit.queues, hp]
    exact queues_publications u names
  working p hin := (copies_publications u names p (hp ▸ hin)).1.trans hw
  metadata p hin := (copies_publications u names p (hp ▸ hin)).2.trans hm

namespace Chain

/-! ## Visits -/

variable [Behaviour σ]

/-- A stage that left a wrapper has it published for each name, whatever follows. -/
theorem mirrors_of_wrapper {slot : Slot σ} {r : Route} {i : Nat} {o : Outcome} {w : Wrapper}
    {v : Visit} (hv : (v.next, v.published) = follow slot r i o) (h : o.wrapper? = some w) :
    ¬ v.Fails ∧ v.Mirrors slot.routing.redirect w := by
  obtain ⟨hn, hp⟩ := Prod.mk.inj hv
  cases o with
  | failed e => cases h
  | crashed => cases h
  | done w' =>
    obtain rfl : w' = w := Option.some.inj h
    refine ⟨?_, Visit.mirrors_of_published hp ?_ ?_⟩
    · rintro (⟨e, he⟩ | he) <;> cases Route.eq_dropped_of_branch_done (hn.symm.trans he)
    · split <;> rfl
    · split <;> rfl
  | generate w' pieces =>
    obtain rfl : w' = w := Option.some.inj h
    refine ⟨?_, Visit.mirrors_of_published hp rfl rfl⟩
    rintro (⟨e, he⟩ | he) <;> cases hn.symm.trans he
  | hold w' =>
    obtain rfl : w' = w := Option.some.inj h
    refine ⟨?_, Visit.mirrors_of_published hp rfl rfl⟩
    rintro (⟨e, he⟩ | he) <;> cases hn.symm.trans he

/-- A stage that left no wrapper has nothing published. -/
theorem fails_of_wrapper_none {slot : Slot σ} {r : Route} {i : Nat} {o : Outcome} {v : Visit}
    (hv : (v.next, v.published) = follow slot r i o) (h : o.wrapper? = none) :
    v.Fails ∧ v.published = [] := by
  obtain ⟨hn, hp⟩ := Prod.mk.inj hv
  cases o with
  | failed e => exact ⟨.inl ⟨_, hn⟩, hp⟩
  | crashed => exact ⟨.inr hn, hp⟩
  | done w => cases h
  | generate w pieces => cases h
  | hold w => cases h

/-- The visit is one to a stage of the chain, in the state in which the slot shows it. -/
def Makes (c : Chain σ) (moment : Moment) (slot : Slot σ) (v : Visit) : Prop :=
  ∃ d w, d.slots.map (·.routing) = c.slots.map (·.routing) ∧ d.slots[v.stage]? = some slot ∧
    v = (visit moment d v.stage slot w).visit

theorem Makes.routing {c : Chain σ} {moment : Moment} {slot : Slot σ} {v : Visit}
    (h : c.Makes moment slot v) : (c.slots[v.stage]?).map (·.routing) = some slot.routing := by
  obtain ⟨d, w, hd, hs, -⟩ := h
  rw [← List.getElem?_map, ← hd, List.getElem?_map, hs]
  rfl

/-- A visit fails and publishes nothing, or publishes what the stage left. -/
theorem Makes.publishes {c : Chain σ} {moment : Moment} {slot : Slot σ} {v : Visit}
    (h : c.Makes moment slot v) :
    (v.Fails ∧ v.published = []) ∨
      ∃ w, (Behaviour.process moment slot.stage v.entered).outcome.wrapper? = some w ∧
        ¬ v.Fails ∧ v.Mirrors slot.routing.redirect w := by
  obtain ⟨d, w, -, -, hv⟩ := h
  generalize v.stage = i at hv
  subst hv
  unfold visit
  dsimp only
  split
  · exact .inl ⟨.inl ⟨_, rfl⟩, rfl⟩
  · cases hw : (Behaviour.process moment slot.stage
        (w.mergeMetadata slot.routing.metadata)).outcome.wrapper? with
    | none => exact .inl (fails_of_wrapper_none rfl hw)
    | some w' => exact .inr ⟨w', rfl, mirrors_of_wrapper rfl hw⟩

theorem keeps_makes (c : Chain σ) :
    Keeps (fun d : Chain σ ↦ d.slots.map (·.routing) = c.slots.map (·.routing))
      (fun v ↦ ∃ moment slot, c.Makes moment slot v) where
  withPending _ _ h := h
  visit moment d i slot w hs hd := by
    refine ⟨(visit_alike moment d i slot w).routings.trans hd, moment, slot, d, w, hd, ?_, ?_⟩
    · rw [stage_visit]
      exact hs
    · rw [stage_visit]

/-- All visits of a call are visits to the stages of its chain. -/
theorem makes_of_mem {c : Chain σ} {patience : Nat} {moment : Moment} {m : Message} {i : Nat}
    {token : UInt64} {v : Visit}
    (h : v ∈ (c.process patience moment m).visits ∨
      v ∈ (c.expire patience moment i token).visits) :
    ∃ moment slot, c.Makes moment slot v := by
  have hexp := (keeps_makes c).expire patience moment (c := c) (i := i) token
    (fun slot _ ↦ (setStage_alike c i _).routings) (fun _ ↦ rfl)
  exact h.elim (((keeps_makes c).process patience moment m rfl).2 v) (hexp.2 v)

/-- Every visit of a call, whether for a message or for a timer, that does not end in an error of
its stage publishes the wrapper as the stage left it, once for each entry of the stage's redirect
list; so each named queue gets exactly one copy just when no name comes twice. A visit that ends in
an error publishes nothing. A queue that the stage does not name sees nothing of the visit. -/
theorem visit_publishes {c : Chain σ} {patience : Nat} {moment : Moment} {m : Message} {i : Nat}
    {token : UInt64} {v : Visit}
    (h : v ∈ (c.process patience moment m).visits ∨
      v ∈ (c.expire patience moment i token).visits) :
    ∃ at' slot, c.Makes at' slot v ∧
      (v.Fails → v.published = []) ∧
      (¬ v.Fails → ∃ w, (Behaviour.process at' slot.stage v.entered).outcome.wrapper? = some w ∧
        v.Mirrors slot.routing.redirect w) ∧
      (¬ v.Fails → ((∀ name ∈ slot.routing.redirect, v.queues.count name = 1) ↔
        slot.routing.redirect.Nodup)) ∧
      (¬ v.Fails → slot.routing.redirect.Nodup → ∀ name ∈ slot.routing.redirect,
        ∃ p ∈ v.published, p.queue = name ∧ ∀ d : Directory,
          (d.publishAll v.published).queue name = (Broadcast.publish p.copy (d.queue name)).2) ∧
      ∀ name ∉ slot.routing.redirect, ∀ d : Directory,
        (d.publishAll v.published).queue name = d.queue name := by
  obtain ⟨at', slot, hmakes⟩ := makes_of_mem h
  rcases hmakes.publishes with ⟨hf, hnone⟩ | ⟨w, hw, hf, hmir⟩
  · have hsame (name) (d : Directory) : (d.publishAll v.published).queue name = d.queue name := by
      rw [hnone]
      rfl
    exact ⟨at', slot, hmakes, fun _ ↦ hnone, (absurd hf ·), (absurd hf ·), (absurd hf ·),
      fun name _ ↦ hsame name⟩
  · refine ⟨at', slot, hmakes, (absurd · hf), fun _ ↦ ⟨w, hw, hmir⟩, fun _ ↦ ?_, ?_, ?_⟩
    · rw [hmir.queues, List.nodup_iff_count_eq_one]
    · exact fun _ hnd name hn ↦ hmir.queue_of_count (List.nodup_iff_count_eq_one.1 hnd name hn)
    · exact fun name hn ↦ hmir.queue_of_notMem hn

/-- A chain that rejects every message, after it was shown to two queues. -/
def refusal : Chain Builtin where
  id := "refusal"
  slots := [⟨{ negate := true, redirect := ["a", "b"] }, .pass {}⟩]
  plan := { routes := [{}] }

/-- The message is dropped, and each of the two queues has got one copy of it. -/
theorem visit_publishes_refusal :
    ∃ v, (refusal.process 1 ⟨0, 0⟩ (.ofRaw "t" [120])).visits = [v] ∧ v.next = .done .dropped ∧
      ∀ name ∈ ["a", "b"], ∃ p ∈ v.published, p.queue = name ∧ ∀ d : Directory,
        (d.publishAll v.published).queue name = (Broadcast.publish p.copy (d.queue name)).2 := by
  refine ⟨_, rfl, rfl, ?_⟩
  obtain ⟨at', slot, hmakes, -, -, -, honce, -⟩ := @visit_publishes Builtin _ refusal 1
    ⟨0, 0⟩ (.ofRaw "t" [120]) 0 0 _ (.inl List.mem_cons_self)
  have hrouting : slot.routing = { negate := true, redirect := ["a", "b"] } :=
    (Option.some.inj hmakes.routing).symm
  rw [hrouting] at honce
  refine honce ?_ (by decide)
  rintro (⟨e, he⟩ | he) <;> cases he

/-- A stage that names a queue twice. -/
def echoEntry : Config.StageEntry where
  type := "noop"
  routing := { redirect := ["q", "q"] }
  params := []

/-- The chain that is built from it. -/
def echo : Chain Builtin where
  id := "echo"
  slots := [⟨echoEntry.routing, .pass {}⟩]
  plan := { routes := [{}] }

/-- The chain is built without complaint, and its stage accepts the message; the queue that it names
is published to twice on the one visit, and its subscriber gets two copies. -/
theorem echo_publishes_twice :
    buildAll [echoEntry] = .ok echo.slots ∧ ofSlots "echo" echo.slots = .ok echo ∧
      (∃ v, (echo.process 1 ⟨0, 0⟩ (.ofRaw "t" [120])).visits = [v] ∧ ¬ v.Fails ∧
        v.queues.count "q" = 2) ∧
      (((Directory.subscribe .empty "q" 0).2.publishAll
        (echo.process 1 ⟨0, 0⟩ (.ofRaw "t" [120])).published).queue "q").map
          (·.buffer.items.length) = [2] := by
  refine ⟨rfl, rfl, ⟨_, rfl, ?_, by decide +kernel⟩, by decide +kernel⟩
  rintro (⟨e, he⟩ | he) <;> cases he

end Chain

end Conduit
