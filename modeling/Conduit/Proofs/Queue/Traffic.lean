import Conduit.Proofs.Queue.Directory
import Conduit.Proofs.Queue.Use
import Conduit.Queue.Traffic

/-!
# What traffic does

One inversion lemma says all that a step of traffic can do (`Traffic.does_of_step`), and one lemma
for each operation what it does to each queue. Moves of a single publish in a row are a publish of
the directory (`Traffic.run_publish`).
-/

namespace Conduit

/-! ## Queues of a directory -/

namespace Directory

variable {d : Directory} {q : String}

theorem queue_insert (d : Directory) (q other : String) (b : Broadcast) :
    queue (d.insert q b) other = if other = q then b else d.queue other := by
  simp only [queue, Dictionary.get?_insert]
  split <;> rfl

theorem queue_create (d : Directory) (q other : String) : (d.create q).queue other = d.queue other := by
  unfold create
  split
  · rfl
  · rename_i hnew
    have hnone : d.get? q = none := by simpa [Dictionary.contains] using hnew
    rw [queue_insert]
    split
    · rename_i heq
      subst heq
      rw [queue, hnone]
      rfl
    · rfl

theorem queue_subscribe (d : Directory) (q other : String) (capacity : Nat) :
    (d.subscribe q capacity).2.queue other =
      if other = q then d.queue q ++ [{ buffer := { capacity } }] else d.queue other :=
  queue_insert d q other _

theorem queue_unsubscribe (d : Directory) (q other : String) (id : Nat) :
    (d.unsubscribe q id).queue other =
      if other = q then (d.queue q).modify id Broadcast.retire else d.queue other :=
  queue_insert d q other _

/-- A new subscriber is there besides the others. -/
theorem getElem?_queue_subscribe (d : Directory) (q other : String) (capacity j : Nat) :
    ((d.subscribe q capacity).2.queue other)[j]? =
      if other = q ∧ j = (d.queue q).length then some { buffer := { capacity } }
      else (d.queue other)[j]? := by
  rw [queue_subscribe]
  by_cases hq : other = q
  · subst hq
    by_cases hj : j = (d.queue other).length
    · subst hj
      simp
    · simp only [true_and, if_true, hj, if_false, List.getElem?_append]
      split
      · rfl
      · rw [List.getElem?_eq_none (by simp; omega), List.getElem?_eq_none (by omega)]
  · simp [hq]

theorem getElem?_queue_unsubscribe (d : Directory) (q other : String) (id j : Nat) :
    ((d.unsubscribe q id).queue other)[j]? =
      if other = q ∧ j = id then ((d.queue q)[id]?).map Broadcast.retire
      else (d.queue other)[j]? := by
  rw [queue_unsubscribe]
  by_cases hq : other = q
  · subst hq
    by_cases hj : j = id
    · subst hj
      simp
    · simp [hj, Ne.symm hj]
  · simp [hq]

theorem length_queue_unsubscribe (d : Directory) (q other : String) (id : Nat) :
    ((d.unsubscribe q id).queue other).length = (d.queue other).length := by
  rw [queue_unsubscribe]
  split
  · rename_i hq
    rw [List.length_modify, hq]
  · rfl

/-- One subscriber has changed, and nothing else. -/
structure Changes (d d' : Directory) (q : String) (id : Nat) (s : Subscriber) : Prop where
  here : (d'.queue q)[id]? = some s
  elsewhere : ∀ other j, ¬ (other = q ∧ j = id) → (d'.queue other)[j]? = (d.queue other)[j]?
  length : ∀ other, (d'.queue other).length = (d.queue other).length

/-- The same name leads to a queue in which one subscriber has changed. -/
theorem changes_insert {id : Nat} {s' : Subscriber} {b : Broadcast}
    (hb : ∀ j, b[j]? = if j = id then some s' else (d.queue q)[j]?)
    (hlen : b.length = (d.queue q).length) : Changes d (d.insert q b) q id s' where
  here := by rw [queue_insert, if_pos rfl, hb, if_pos rfl]
  elsewhere other j hne := by
    rw [queue_insert]
    split
    · rename_i heq
      rw [hb, if_neg fun hj ↦ hne ⟨heq, hj⟩, heq]
    · rfl
  length other := by
    rw [queue_insert]
    split
    · rename_i heq
      rw [hlen, heq]
    · rfl

/-- What is taken comes from the front of the buffer. -/
theorem changes_pop {id : Nat} {w : Wrapper} {d' : Directory} (h : d.pop q id = (some w, d')) :
    ∃ s rest, (d.queue q)[id]? = some s ∧ s.buffer.items = w :: rest ∧
      Changes d d' q id { s with buffer := s.buffer.pop.2 } := by
  cases hs : (d.queue q)[id]? with
  | none =>
    rw [Directory.pop, buffer?, hs] at h
    cases h
  | some s =>
    rw [Directory.pop, buffer?, hs] at h
    obtain ⟨hw, rfl⟩ : s.buffer.pop.1 = some w ∧ d.setBuffer q id s.buffer.pop.2 = d' :=
      Prod.mk.inj h
    cases hitems : s.buffer.items with
    | nil =>
      rw [Queue.pop_of_nil hitems] at hw
      cases hw
    | cons v rest =>
      have hv : v = w := by
        rw [Queue.pop_of_cons hitems] at hw
        exact Option.some.inj hw
      subst hv
      refine ⟨s, rest, rfl, hitems, changes_insert (fun j ↦ ?_) (List.length_modify ..)⟩
      rw [List.getElem?_modify]
      split
      · rename_i heq
        subst heq
        rw [hs, if_pos rfl]
        rfl
      · rename_i hne
        rw [if_neg (Ne.symm hne)]
        exact id_map _

/-- What is offered goes to the end of the buffer if there is room. -/
theorem changes_offer {id : Nat} {s : Subscriber} (h : (d.queue q)[id]? = some s) (w : Wrapper) :
    ((d.queue q).offer w id).1 = (s.buffer.push w).1.isOk ∧
      Changes d (d.insert q ((d.queue q).offer w id).2) q id
        { s with buffer := (s.buffer.push w).2 } := by
  have hoffer : (d.queue q).offer w id =
      ((s.buffer.push w).1.isOk, (d.queue q).set id { s with buffer := (s.buffer.push w).2 }) := by
    rw [Broadcast.offer, h]
  rw [hoffer]
  refine ⟨rfl, changes_insert (fun j ↦ ?_) List.length_set⟩
  rw [List.getElem?_set]
  split
  · rename_i heq
    subst heq
    rw [if_pos rfl, if_pos (List.getElem?_eq_some_iff.1 h).1]
  · rename_i hne
    rw [if_neg (Ne.symm hne)]

end Directory

/-! ## Steps -/

namespace Traffic

variable {s s' : Traffic} {event : Option Event}

/-- All that a step can do. -/
inductive Does (s : Traffic) : Option Event → Traffic → Prop
  | create (q : String) : Does s none { s with directory := s.directory.create q }
  | exhausted (q : String) : Does s (some (.exhausted q)) s
  | subscribe (q : String) (capacity : Nat) : s.busy q = false →
      Does s (some (.subscribed q (s.directory.queue q).length capacity))
        { s with directory := (s.directory.subscribe q capacity).2 }
  | unsubscribe (q : String) (id : Nat) : s.busy q = false →
      Does s (some (.unsubscribed q id)) { s with directory := s.directory.unsubscribe q id }
  | pop {q : String} {id : Nat} {w : Wrapper} {directory : Directory} :
      s.directory.pop q id = (some w, directory) →
      Does s (some (.popped q id w)) { s with directory }
  | begin {p : String} (q : String) (w : Wrapper) : s.publishing.get? p = none →
      Does s (some (.began p q w)) { s with
        publishing := s.publishing.insert p
          { queue := q, wrapper := w, left := (s.directory.queue q).current } }
  | push {p q : String} {w : Wrapper} {id : Nat} {left : List Nat} {report : Delivery} :
      s.publishing.get? p = some ⟨q, w, id :: left, report⟩ →
      Does s (some (.pushed p q id w ((s.directory.queue q).offer w id).1)) {
        directory := s.directory.insert q ((s.directory.queue q).offer w id).2
        publishing := s.publishing.insert p
          ⟨q, w, left, report.count ((s.directory.queue q).offer w id).1⟩ }
  | finish {p q : String} {w : Wrapper} {report : Delivery} :
      s.publishing.get? p = some ⟨q, w, [], report⟩ →
      Does s (some (.reported p q report)) { s with publishing := s.publishing.erase p }

theorem busy_of_isFree {q : String} (h : ¬ (!s.isFree q) = true) : s.busy q = false := by
  rw [Bool.not_eq_true, Bool.not_eq_false', isFree, Bool.and_eq_true, Bool.not_eq_true'] at h
  exact h.2

theorem does_of_step {m : Move} (h : s.step m = some (s', event)) : Does s event s' := by
  cases m with
  | create q =>
    obtain ⟨rfl, rfl⟩ := Prod.mk.inj (Option.some.inj h)
    exact .create q
  | subscribe q capacity =>
    rw [step] at h
    split at h
    · cases h
    rename_i hfree
    split at h
    · obtain ⟨rfl, rfl⟩ := Prod.mk.inj (Option.some.inj h)
      exact .exhausted q
    · obtain ⟨rfl, rfl⟩ := Prod.mk.inj (Option.some.inj h)
      exact .subscribe q capacity (busy_of_isFree hfree)
  | unsubscribe q id =>
    rw [step] at h
    split at h
    · cases h
    rename_i hfree
    obtain ⟨rfl, rfl⟩ := Prod.mk.inj (Option.some.inj h)
    exact .unsubscribe q id (busy_of_isFree hfree)
  | pop q id =>
    rw [step] at h
    split at h
    · rename_i hpop
      obtain ⟨rfl, rfl⟩ := Prod.mk.inj (Option.some.inj h)
      exact .pop hpop
    · cases h
  | begin p q w =>
    rw [step] at h
    split at h
    · cases h
    rename_i hidle
    obtain ⟨rfl, rfl⟩ := Prod.mk.inj (Option.some.inj h)
    refine .begin q w ?_
    simp only [Bool.or_eq_true, not_or, Bool.not_eq_true, Dictionary.contains,
      Option.isSome_eq_false_iff, Option.isNone_iff_eq_none] at hidle
    exact hidle.2
  | push p =>
    rw [step] at h
    split at h
    · rename_i hp
      obtain ⟨rfl, rfl⟩ := Prod.mk.inj (Option.some.inj h)
      exact .push hp
    · cases h
  | finish p =>
    rw [step] at h
    split at h
    · rename_i hp
      obtain ⟨rfl, rfl⟩ := Prod.mk.inj (Option.some.inj h)
      exact .finish hp
    · cases h

/-! ## A publish that nobody comes between -/

end Traffic

namespace Broadcast

/-- Offers a copy to one subscriber after the other and counts the answers. -/
def offerAll (w : Wrapper) : List Nat → Delivery × Broadcast → Delivery × Broadcast
  | [], r => r
  | id :: ids, (report, b) => offerAll w ids (report.count (b.offer w id).1, (b.offer w id).2)

theorem current_cons (s : Subscriber) (b : Broadcast) :
    current (s :: b) = (if s.live then [0] else []) ++ (current b).map (· + 1) := by
  have htail : ((List.range b.length).map Nat.succ).filter
      (fun id ↦ ((s :: b)[id]?).any (·.live)) = (current b).map (· + 1) := by
    rw [List.filter_map]
    rfl
  rw [current, List.length_cons, List.range_succ_eq_map, List.filter_cons, htail]
  cases hs : s.live <;> simp [hs]

theorem length_current (b : Broadcast) : b.current.length = b.liveCount := by
  induction b with
  | nil => rfl
  | cons s b ih =>
    rw [current_cons, List.length_append, List.length_map, ih, liveCount, liveCount,
      List.countP_cons]
    split <;> simp [Nat.add_comm]

/-- What comes before the subscribers whose turn it is stays as it is. -/
theorem offerAll_append (w : Wrapper) (pre b : Broadcast) (report : Delivery) :
    offerAll w (b.current.map (pre.length + ·)) (report, pre ++ b) =
      (⟨report.delivered + (publish w b).1.delivered, report.failed + (publish w b).1.failed⟩,
        pre ++ (publish w b).2) := by
  induction b generalizing pre report with
  | nil => rfl
  | cons s b ih =>
    have hshift (s' : Subscriber) : ((current b).map (· + 1)).map (pre.length + ·) =
        (current b).map ((pre ++ [s']).length + ·) := by
      rw [List.map_map]
      exact List.map_congr_left fun i _ ↦ by simp [Nat.add_assoc, Nat.add_comm 1]
    obtain ⟨buffer, live⟩ := s
    rw [current_cons, List.map_append, publish]
    cases live with
    | true =>
      have hoffer : offer w pre.length (pre ++ ⟨buffer, true⟩ :: b) =
          ((buffer.push w).1.isOk, (pre ++ [⟨(buffer.push w).2, true⟩]) ++ b) := by
        simp [offer]
      simp only [if_true, List.map_cons, List.map_nil, Nat.add_zero, List.singleton_append,
        offerAll, hoffer]
      rw [hshift ⟨(buffer.push w).2, true⟩, ih]
      unfold Queue.push
      split <;> simp [Delivery.count, Except.isOk, Except.toBool, Nat.add_assoc, Nat.add_comm 1]
    | false =>
      have hsplit : pre ++ ⟨buffer, false⟩ :: b = (pre ++ [⟨buffer, false⟩]) ++ b := by simp
      simp only [Bool.false_eq_true, if_false, List.map_nil, List.nil_append]
      rw [hshift ⟨buffer, false⟩, hsplit, ih]
      simp

theorem offerAll_current (w : Wrapper) (b : Broadcast) :
    offerAll w b.current ({}, b) = publish w b := by
  have h := offerAll_append w [] b {}
  simpa using h

end Broadcast

namespace Traffic

theorem run_cons {s s' : Traffic} {m : Move} {moves : List Move} {log : List Event} :
    s.run (m :: moves) = some (s', log) ↔ ∃ s₁ event later, s.step m = some (s₁, event) ∧
      s₁.run moves = some (s', later) ∧ log = later ++ event.toList := by
  simp only [run, Option.bind_eq_bind, Option.bind_eq_some_iff, Prod.exists, Option.pure_def,
    Option.some.injEq, Prod.mk.injEq]
  constructor
  · rintro ⟨s₁, event, hstep, s₂, later, hrun, rfl, rfl⟩
    exact ⟨s₁, event, later, hstep, hrun, rfl⟩
  · rintro ⟨s₁, event, later, hstep, hrun, rfl⟩
    exact ⟨s₁, event, hstep, s', later, hrun, rfl, rfl⟩

theorem step_begin {s : Traffic} {p q : String} (hq : s.directory.contains q = true)
    (hp : s.publishing.get? p = none) (w : Wrapper) :
    s.step (.begin p q w) = some ({ s with
      publishing := s.publishing.insert p
        { queue := q, wrapper := w, left := (s.directory.queue q).current } },
      some (.began p q w)) := by
  have hidle : s.publishing.contains p = false := by simp [Dictionary.contains, hp]
  rw [step, hq, hidle]
  rfl

theorem step_push {s : Traffic} {p q : String} {w : Wrapper} {id : Nat} {left : List Nat}
    {report : Delivery} (hp : s.publishing.get? p = some ⟨q, w, id :: left, report⟩) :
    s.step (.push p) = some ({
      directory := s.directory.insert q ((s.directory.queue q).offer w id).2
      publishing := s.publishing.insert p
        ⟨q, w, left, report.count ((s.directory.queue q).offer w id).1⟩ },
      some (.pushed p q id w ((s.directory.queue q).offer w id).1)) := by
  rw [step, hp]

/-- A publisher that goes on until it has reported. -/
theorem run_pushes {p q : String} {w : Wrapper} (ids : List Nat) {s : Traffic} {report : Delivery}
    (hp : s.publishing.get? p = some ⟨q, w, ids, report⟩) :
    ∃ s' log, s.run (List.replicate ids.length (.push p) ++ [.finish p]) = some (s',
        .reported p q (Broadcast.offerAll w ids (report, s.directory.queue q)).1 :: log) ∧
      (∀ other, s'.directory.queue other =
        if other = q then (Broadcast.offerAll w ids (report, s.directory.queue q)).2
        else s.directory.queue other) ∧
      ∀ p', s'.publishing.get? p' = if p' = p then none else s.publishing.get? p' := by
  induction ids generalizing s report with
  | nil =>
    refine ⟨{ s with publishing := s.publishing.erase p }, [], ?_, fun other ↦ ?_, fun p' ↦ ?_⟩
    · simp [run, step, hp, Broadcast.offerAll]
    · rw [Broadcast.offerAll]
      split
      · rename_i heq
        rw [heq]
      · rfl
    · exact Dictionary.get?_erase _ p p'
  | cons id ids ih =>
    have hnext : (s.publishing.insert p ⟨q, w, ids,
        report.count ((s.directory.queue q).offer w id).1⟩).get? p = some ⟨q, w, ids, _⟩ :=
      (Dictionary.get?_insert _ p p _).trans (if_pos rfl)
    obtain ⟨s', log, hrun, hqueue, hpublishing⟩ := ih (s := {
      directory := s.directory.insert q ((s.directory.queue q).offer w id).2
      publishing := s.publishing.insert p ⟨q, w, ids,
        report.count ((s.directory.queue q).offer w id).1⟩ }) hnext
    rw [Directory.queue_insert, if_pos rfl] at hrun hqueue
    refine ⟨s', log ++ [_], run_cons.2 ⟨_, _, _, step_push hp, hrun, rfl⟩, fun other ↦ ?_,
      fun p' ↦ ?_⟩
    · rw [hqueue, Directory.queue_insert]
      split <;> rfl
    · rw [hpublishing, Dictionary.get?_insert]
      split <;> rfl

/-- A publish that nobody comes between is a publish of the directory. -/
theorem run_publish {s : Traffic} {p q : String} (hq : s.directory.contains q = true)
    (hp : s.publishing.get? p = none) (w : Wrapper) :
    ∃ s' log, s.run (.begin p q w ::
        (List.replicate (s.directory.queue q).liveCount (.push p) ++ [.finish p])) =
          some (s', .reported p q (s.directory.publish q w).1 :: log) ∧
      (∀ other, s'.directory.queue other = (s.directory.publish q w).2.queue other) ∧
      ∀ p', s'.publishing.get? p' = s.publishing.get? p' := by
  obtain ⟨s', log, hrun, hqueue, hpublishing⟩ := run_pushes (p := p) (s.directory.queue q).current
    (s := ⟨s.directory, s.publishing.insert p ⟨q, w, (s.directory.queue q).current, {}⟩⟩)
    ((Dictionary.get?_insert _ p p _).trans (if_pos rfl))
  rw [Broadcast.offerAll_current] at hrun hqueue
  rw [Broadcast.length_current] at hrun
  refine ⟨s', log ++ [_], run_cons.2 ⟨_, _, _, step_begin hq hp w, hrun, rfl⟩, fun other ↦ ?_,
    fun p' ↦ ?_⟩
  · rw [hqueue, Directory.queue_publish]
  · rw [hpublishing, Dictionary.get?_insert]
    split
    · rename_i heq
      rw [heq, hp]
    · rfl

end Traffic

end Conduit
