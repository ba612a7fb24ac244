import Conduit.Queue.Use

/-!
# First in, first out

Whatever threads do with a queue, and in whatever order they take turns: what has been taken out,
followed by what the queue holds, is what was put in, in the same order (`Queue.order_use`). One
turn takes from the front and puts at the end (`Queue.Turn.Changes`), and what every turn keeps, all
turns keep.
-/

namespace Conduit.Queue

variable {α : Type}

/-! ## Items -/

theorem push_of_room {q : Queue α} (h : q.isFull = false) (a : α) :
    q.push a = (.ok (), { q with items := q.items ++ [a], pushed := q.pushed + 1 }) := by
  rw [push, if_neg (by simp [h])]

theorem push_of_full {q : Queue α} (h : q.isFull = true) (a : α) :
    q.push a = (.error (.overflow q.capacity), { q with rejected := q.rejected + 1 }) := by
  rw [push, if_pos h]

theorem pop_of_cons {q : Queue α} {a : α} {rest : List α} (h : q.items = a :: rest) :
    q.pop = (some a, { q with items := rest, popped := q.popped + 1 }) := by
  rw [pop, h]

theorem pop_of_nil {q : Queue α} (h : q.items = []) : q.pop = (none, q) := by
  rw [pop, h]

/-! ## What turns tell -/

/-- Whether an access is to take one item. -/
def Access.takes : Access α → Bool
  | .pop | .popWithin _ | .tryPop => true
  | .push _ | .drain | .close => false

namespace Turn

/-- The item that the queue took. -/
def accepted (t : Turn α) : List α :=
  match t.access, t.reply with
  | .push a, .pushed (.ok ()) => [a]
  | _, _ => []

/-- The items that the queue gave. -/
def removed (t : Turn α) : List α :=
  match t.reply with
  | .took item => item.toList
  | .drained items => items
  | _ => []

def isOverflow (t : Turn α) : Bool :=
  match t.reply with
  | .pushed (.error (.overflow _)) => true
  | _ => false

def isClose (t : Turn α) : Bool :=
  match t.access with
  | .close => true
  | _ => false

end Turn

def accepted (turns : List (Turn α)) : List α := turns.flatMap Turn.accepted

def removed (turns : List (Turn α)) : List α := turns.flatMap Turn.removed

/-- How many pushes the queue was too full for. -/
def overflows (turns : List (Turn α)) : Nat := turns.countP Turn.isOverflow

/-! ## One turn -/

/-- What a turn does to a queue. -/
structure Turn.Changes (t : Turn α) (q q' : Queue α) : Prop where
  order : t.removed ++ q'.items = q.items ++ t.accepted
  capacity : q'.capacity = q.capacity
  bound : (0 < q.capacity → q.size ≤ q.capacity) → 0 < q.capacity → q'.size ≤ q.capacity
  pushed : q'.pushed = q.pushed + t.accepted.length
  popped : q'.popped = q.popped + t.removed.length
  rejected : q'.rejected = q.rejected + if t.isOverflow then 1 else 0
  closed : q'.closed = (q.closed || t.isClose)

variable (thread : String) (q : Queue α)

theorem access_pop : q.access .pop = if q.blocks then (.waits, q) else q.take := rfl

theorem access_popWithin (expired : Bool) :
    q.access (.popWithin expired) = if q.blocks && !expired then (.waits, q) else q.take := rfl

theorem isFull_iff : q.isFull = true ↔ 0 < q.capacity ∧ q.capacity ≤ q.size := by
  simp [isFull]

/-- A push that is refused leaves a mark in the count of refusals and nothing else. -/
theorem changes_push (a : α) :
    Turn.Changes ⟨thread, .push a, .pushed (q.push a).1⟩ q (q.push a).2 := by
  cases hf : q.isFull with
  | true =>
    rw [push_of_full hf]
    exact ⟨(List.append_nil _).symm, rfl, id, rfl, rfl, rfl, (Bool.or_false _).symm⟩
  | false =>
    rw [push_of_room hf]
    refine ⟨rfl, rfl, fun _ hc ↦ ?_, rfl, rfl, rfl, (Bool.or_false _).symm⟩
    have hroom : q.size < q.capacity := Nat.lt_of_not_le fun hle ↦ by
      simp [(isFull_iff q).2 ⟨hc, hle⟩] at hf
    simpa [size] using Nat.succ_le_of_lt hroom

/-- A thread that takes what there is gets the first item, if there is one. -/
theorem changes_take {access : Access α} (hp : ∀ a, access ≠ .push a) (hc : access ≠ .close) :
    Turn.Changes ⟨thread, access, q.take.1⟩ q q.take.2 := by
  have hopen : Turn.isClose ⟨thread, access, q.take.1⟩ = false := by
    cases access with
    | close => exact absurd rfl hc
    | _ => rfl
  have hnone : Turn.accepted ⟨thread, access, q.take.1⟩ = [] := by
    cases access with
    | push a => exact absurd rfl (hp a)
    | _ => rfl
  unfold take at hopen hnone ⊢
  cases hi : q.items with
  | nil =>
    rw [pop_of_nil hi] at hopen hnone ⊢
    refine ⟨?_, rfl, id, ?_, rfl, rfl, ?_⟩
    · rw [hnone, hi]
      rfl
    · rw [hnone]
      rfl
    · rw [hopen, Bool.or_false]
  | cons a rest =>
    rw [pop_of_cons hi] at hopen hnone ⊢
    refine ⟨?_, rfl, fun hb hc ↦ ?_, ?_, rfl, rfl, ?_⟩
    · rw [hnone, hi, List.append_nil]
      rfl
    · have hle := hb hc
      simp only [size, hi, List.length_cons] at hle ⊢
      omega
    · rw [hnone]
      rfl
    · rw [hopen, Bool.or_false]

theorem changes_drain : Turn.Changes ⟨thread, .drain, .drained q.items⟩ q q.drain.2 :=
  ⟨rfl, rfl, fun _ _ ↦ Nat.zero_le _, rfl, rfl, rfl, (Bool.or_false _).symm⟩

theorem changes_close : Turn.Changes ⟨thread, .close, .closed⟩ q q.close :=
  ⟨(List.append_nil _).symm, rfl, id, rfl, rfl, rfl, (Bool.or_true _).symm⟩

/-- A thread that waits changes nothing. -/
theorem changes_waits {access : Access α} (hc : access ≠ .close) :
    Turn.Changes ⟨thread, access, .waits⟩ q q := by
  have hnone : Turn.accepted ⟨thread, access, .waits⟩ = [] := by cases access <;> rfl
  refine ⟨?_, rfl, id, ?_, rfl, rfl, ?_⟩
  · rw [hnone, List.append_nil]
    rfl
  · rw [hnone]
    rfl
  · cases access with
    | close => exact absurd rfl hc
    | _ => exact (Bool.or_false _).symm

theorem changes_access (access : Access α) :
    Turn.Changes ⟨thread, access, (q.access access).1⟩ q (q.access access).2 := by
  cases access with
  | push a => exact changes_push thread q a
  | pop =>
    rw [access_pop]
    split
    · exact changes_waits thread q nofun
    · exact changes_take thread q nofun nofun
  | popWithin expired =>
    rw [access_popWithin]
    split
    · exact changes_waits thread q nofun
    · exact changes_take thread q nofun nofun
  | tryPop => exact changes_take thread q nofun nofun
  | drain => exact changes_drain thread q
  | close => exact changes_close thread q

/-! ## Many turns -/

/-- The turns account for what is in a queue and for what it has counted. -/
structure Accounts (turns : List (Turn α)) (q : Queue α) : Prop where
  order : removed turns ++ q.items = accepted turns
  bound : 0 < q.capacity → q.size ≤ q.capacity
  pushed : q.pushed = (accepted turns).length
  popped : q.popped = (removed turns).length
  rejected : q.rejected = overflows turns

variable {q} {turns : List (Turn α)}

theorem Accounts.concat {t : Turn α} {q' : Queue α} (h : Accounts turns q) (ht : t.Changes q q') :
    Accounts (turns ++ [t]) q' where
  order := by
    simp only [removed, accepted, List.flatMap_append, List.flatMap_singleton]
    rw [List.append_assoc, ht.order, ← List.append_assoc]
    exact congrArg (· ++ t.accepted) h.order
  bound := by
    rw [ht.capacity]
    exact ht.bound h.bound
  pushed := by simp [ht.pushed, h.pushed, accepted]
  popped := by simp [ht.popped, h.popped, removed]
  rejected := by
    rw [ht.rejected, h.rejected, overflows, overflows, List.countP_append, List.countP_singleton]

theorem Accounts.use (h : Accounts turns q) (accesses : List (String × Access α)) :
    Accounts (turns ++ (q.use accesses).2) (q.use accesses).1 := by
  induction accesses generalizing q turns with
  | nil => simpa [Queue.use] using h
  | cons c rest ih =>
    obtain ⟨thread, access⟩ := c
    have hrest := ih (h.concat (changes_access thread q access))
    rwa [List.append_assoc] at hrest

theorem capacity_use (q : Queue α) (accesses : List (String × Access α)) :
    (q.use accesses).1.capacity = q.capacity := by
  induction accesses generalizing q with
  | nil => rfl
  | cons c rest ih => exact (ih _).trans (changes_access c.1 q c.2).capacity

/-- A queue that is closed stays closed. -/
theorem closed_use (hc : q.closed = true) (accesses : List (String × Access α)) :
    (q.use accesses).1.closed = true := by
  induction accesses generalizing q with
  | nil => exact hc
  | cons c rest ih => exact ih ((changes_access c.1 q c.2).closed.trans (by rw [hc, Bool.true_or]))

/-! ## At any moment -/

theorem refused_iff (hb : 0 < q.capacity → q.size ≤ q.capacity) (a : α) :
    (∃ e, (q.access (.push a)).1 = .pushed (.error e)) ↔ 0 < q.capacity ∧ q.size = q.capacity := by
  have hfull : q.isFull = true ↔ 0 < q.capacity ∧ q.size = q.capacity :=
    (isFull_iff q).trans ⟨fun h ↦ ⟨h.1, Nat.le_antisymm (hb h.1) h.2⟩,
      fun h ↦ ⟨h.1, Nat.le_of_eq h.2.symm⟩⟩
  rw [← hfull]
  change (∃ e, Reply.pushed (q.push a).1 = _) ↔ _
  cases hf : q.isFull with
  | true => simp [push_of_full hf]
  | false => simp [push_of_room hf]

theorem access_of_refused {a : α} {e : PipelineError}
    (h : (q.access (.push a)).1 = .pushed (.error e)) :
    e = .overflow q.capacity ∧ (q.access (.push a)).2 = { q with rejected := q.rejected + 1 } := by
  change Reply.pushed (q.push a).1 = _ at h
  change _ ∧ (q.push a).2 = _
  cases hf : q.isFull with
  | true =>
    rw [push_of_full hf] at h ⊢
    cases h
    exact ⟨rfl, rfl⟩
  | false =>
    rw [push_of_room hf] at h
    cases h

/-- A push that is not refused is answered as done, and the item is the last one. -/
theorem access_of_room {a : α} (h : ¬ (0 < q.capacity ∧ q.size = q.capacity))
    (hb : 0 < q.capacity → q.size ≤ q.capacity) :
    q.access (.push a) =
      (.pushed (.ok ()), { q with items := q.items ++ [a], pushed := q.pushed + 1 }) := by
  have hroom : q.isFull = false := Bool.eq_false_iff.2 fun hf ↦ by
    obtain ⟨hc, hle⟩ := (isFull_iff q).1 hf
    exact h ⟨hc, Nat.le_antisymm (hb hc) hle⟩
  change (Reply.pushed (q.push a).1, (q.push a).2) = _
  rw [push_of_room hroom]

/-- Who wants an item gets the first one, if there is one. -/
theorem access_of_cons {access : Access α} (ht : access.takes = true) {a : α} {rest : List α}
    (hi : q.items = a :: rest) :
    q.access access = (.took (some a), { q with items := rest, popped := q.popped + 1 }) := by
  have hblocks : q.blocks = false := by simp [blocks, hi]
  have htake : q.take = (.took (some a), { q with items := rest, popped := q.popped + 1 }) := by
    rw [take, pop_of_cons hi]
  cases access with
  | push | drain | close => cases ht
  | pop => rw [access_pop, hblocks, ← htake]; rfl
  | popWithin expired => rw [access_popWithin, hblocks, ← htake]; rfl
  | tryPop => exact htake

/-- A thread that waits as long as it takes goes without an item just if there will be none. -/
theorem pop_eq_none_iff :
    (q.access .pop).1 = .took none ↔ q.items = [] ∧ q.closed = true := by
  rw [access_pop]
  cases hi : q.items <;> cases hc : q.closed <;> simp [take, pop, blocks, hi, hc]

/-- However many threads use a queue of some capacity, in whatever order: what was taken out and
what the queue holds is, in order, what it accepted; it never holds more than fits, and its counts
are those of the turns. At any time it refuses a push just if it is full, and only counts it; any
other item becomes the last one. Who wants an item gets the first one if there is one, and a drain
gets them all. Once the queue is closed it stays so; and who waits for an item goes without one just
if the queue is empty and closed. -/
theorem order_use (capacity : Nat) (accesses : List (String × Access α)) :
    let (q, turns) := ({ capacity } : Queue α).use accesses
    removed turns ++ q.items = accepted turns ∧
      (0 < capacity → q.size ≤ capacity) ∧
      q.pushed = q.popped + q.size ∧ q.pushed = (accepted turns).length ∧
      q.rejected = overflows turns ∧
      (∀ a, (∃ e, (q.access (.push a)).1 = .pushed (.error e)) ↔
        0 < capacity ∧ q.size = capacity) ∧
      (∀ a e, (q.access (.push a)).1 = .pushed (.error e) →
        e = .overflow capacity ∧
          (q.access (.push a)).2 = { q with rejected := q.rejected + 1 }) ∧
      (∀ a, ¬ (0 < capacity ∧ q.size = capacity) →
        q.access (.push a) =
          (.pushed (.ok ()), { q with items := q.items ++ [a], pushed := q.pushed + 1 })) ∧
      (∀ access, access.takes = true → ∀ a rest, q.items = a :: rest →
        q.access access = (.took (some a), { q with items := rest, popped := q.popped + 1 })) ∧
      q.access .drain = (.drained q.items, { q with items := [], popped := q.popped + q.size }) ∧
      q.access .close = (.closed, { q with closed := true }) ∧
      (q.closed = true → ∀ more, (q.use more).1.closed = true) ∧
      ((q.access .pop).1 = .took none ↔ q.items = [] ∧ q.closed = true) := by
  have hnew : Accounts [] ({ capacity } : Queue α) :=
    ⟨rfl, fun _ ↦ Nat.zero_le _, rfl, rfl, rfl⟩
  have h := hnew.use accesses
  have hcapacity := capacity_use ({ capacity } : Queue α) accesses
  rw [List.nil_append] at h
  have hbound := h.bound
  have hcount : (accepted (({ capacity } : Queue α).use accesses).2).length =
      (removed (({ capacity } : Queue α).use accesses).2).length +
        (({ capacity } : Queue α).use accesses).1.size := by
    rw [← h.order, List.length_append, size]
  refine ⟨h.order, ?_, ?_, h.pushed, h.rejected, fun a ↦ ?_, fun a e he ↦ ?_, fun a hroom ↦ ?_,
    fun access ht a rest hi ↦ access_of_cons ht hi, rfl, rfl, fun hc more ↦ closed_use hc more,
    pop_eq_none_iff⟩
  · rwa [hcapacity] at hbound
  · rw [h.pushed, h.popped, hcount]
  · have hiff := refused_iff hbound a
    rwa [hcapacity] at hiff
  · obtain ⟨rfl, hrefused⟩ := access_of_refused he
    exact ⟨by rw [hcapacity], hrefused⟩
  · exact access_of_room (hcapacity.symm ▸ hroom) hbound

/-- Two threads put in three items where two fit, and a third one takes what there is. -/
example :
    removed (({ capacity := 2 } : Queue Nat).use [("a", .push 1), ("b", .push 2), ("a", .push 3),
      ("c", .pop), ("c", .drain), ("c", .pop)]).2 = [1, 2] := by
  decide

end Conduit.Queue
