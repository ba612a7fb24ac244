import Conduit.Connector.Exchange
import Conduit.Proofs.Queue.Traffic
import Mathlib.Data.List.Nodup

/-!
# Who is subscribed, and what the buffers hold

To subscribe adds one number to those of a queue, to unsubscribe takes one away
(`Broadcast.current_subscribe`, `Broadcast.perm_current_unsubscribe`). What a buffer holds is
changed by what is taken from it and by what is published while it is subscribed and has room
(`Directory.items_pop`, `Directory.items_publish`), and by nothing else.
-/

namespace Conduit

namespace Broadcast

theorem mem_current {b : Broadcast} {id : Nat} :
    id ∈ b.current ↔ ∃ s, b[id]? = some s ∧ s.live = true := by
  simp only [current, List.mem_filter, List.mem_range, Option.any_eq_true]
  constructor
  · exact fun h ↦ h.2
  · rintro ⟨s, hs, hl⟩
    exact ⟨(List.getElem?_eq_some_iff.1 hs).1, s, hs, hl⟩

theorem nodup_current (b : Broadcast) : b.current.Nodup := List.nodup_range.filter _

/-- Who is subscribed can be told without a look into the buffers. -/
theorem current_congr {b b' : Broadcast} (h : b.map (·.live) = b'.map (·.live)) :
    b.current = b'.current := by
  have hlen : b.length = b'.length := by simpa using congrArg List.length h
  have hlive (id : Nat) : (b[id]?).any (·.live) = (b'[id]?).any (·.live) := by
    have hid := congrArg (·[id]?) h
    simp only [List.getElem?_map] at hid
    cases hb : b[id]? <;> cases hb' : b'[id]? <;> simp_all
  rw [current, current, hlen]
  exact List.filter_congr fun id _ ↦ hlive id

theorem current_modify {b : Broadcast} {f : Subscriber → Subscriber}
    (hf : ∀ s, (f s).live = s.live) (id : Nat) : current (b.modify id f) = b.current := by
  refine current_congr (List.ext_getElem? fun j ↦ ?_)
  simp only [List.getElem?_map, List.getElem?_modify]
  cases b[j]? with
  | none => rfl
  | some s =>
    by_cases hj : id = j
    · simp [hj, hf]
    · simp [hj]

theorem current_subscribe (b : Broadcast) (capacity : Nat) :
    (b.subscribe capacity).current = b.current ++ [b.length] := by
  have hold : (List.range b.length).filter (fun id ↦ ((b.subscribe capacity)[id]?).any (·.live)) =
      b.current := by
    refine List.filter_congr fun id hid ↦ ?_
    rw [subscribe, List.getElem?_append_left (List.mem_range.1 hid)]
  have hnew : (b.subscribe capacity)[b.length]? = some { buffer := { capacity } } := by
    simp [subscribe]
  rw [current, show (b.subscribe capacity).length = b.length + 1 by simp [subscribe],
    List.range_succ, List.filter_append, hold, List.filter_singleton, hnew]
  rfl

theorem perm_current_unsubscribe {b : Broadcast} {id : Nat} (h : id ∈ b.current) :
    b.current.Perm (id :: (b.unsubscribe id).current) := by
  have hrest : (b.unsubscribe id).current = b.current.filter (· != id) := by
    rw [current, current, List.filter_filter, unsubscribe, List.length_modify]
    refine List.filter_congr fun j _ ↦ ?_
    rw [List.getElem?_modify]
    by_cases hj : id = j
    · subst hj
      cases b[id]? with
      | none => simp
      | some s => cases hs : s.live <;> simp [retire, hs]
    · simp [hj, Ne.symm hj]
  rw [hrest, ← b.nodup_current.erase_eq_filter]
  exact List.perm_cons_erase h

/-- A publish goes into the buffer of everybody who is subscribed. -/
theorem publish_eq_map (w : Wrapper) (b : Broadcast) :
    (publish w b).2 =
      b.map fun s ↦ if s.live then { s with buffer := (s.buffer.push w).2 } else s := by
  induction b with
  | nil => rfl
  | cons s b ih =>
    rw [publish, List.map_cons, ← ih]
    obtain ⟨buffer, live⟩ := s
    cases live with
    | false => rfl
    | true =>
      rcases buffer.push w with ⟨answer, buffer'⟩
      cases answer <;> rfl

theorem current_publish (w : Wrapper) (b : Broadcast) : (publish w b).2.current = b.current := by
  refine current_congr ?_
  rw [publish_eq_map, List.map_map]
  refine List.map_congr_left fun s _ ↦ ?_
  dsimp only [Function.comp]
  split <;> rfl

end Broadcast

/-! ## What the buffers hold -/

namespace Directory

variable {d d' : Directory} {q name : String} {id : Nat} {w : Wrapper}

theorem items_eq (d : Directory) (name : String) (id : Nat) :
    d.items name id = (((d.queue name)[id]?).map (·.buffer.items)).getD [] := by
  rw [items, buffer?, Option.map_map]
  rfl

theorem items_create (d : Directory) (q : String) : (d.create q).items = d.items := by
  funext name id
  rw [items_eq, items_eq, queue_create]

/-- A new buffer is empty. -/
theorem items_subscribe (d : Directory) (q : String) (capacity : Nat) :
    (d.subscribe q capacity).2.items = d.items := by
  funext name id
  rw [items_eq, items_eq, getElem?_queue_subscribe]
  split
  · rename_i h
    rw [h.1, h.2, List.getElem?_eq_none (Nat.le_refl _)]
    rfl
  · rfl

/-- A buffer that is no longer subscribed keeps what it holds. -/
theorem items_unsubscribe (d : Directory) (q : String) (j : Nat) :
    (d.unsubscribe q j).items = d.items := by
  funext name id
  rw [items_eq, items_eq, getElem?_queue_unsubscribe]
  split
  · rename_i h
    rw [h.1, h.2, Option.map_map]
    congr 2
    funext s
    dsimp only [Function.comp, Broadcast.retire]
    split <;> rfl
  · rfl

theorem queue_setBuffer (d : Directory) (q other : String) (j : Nat) (buffer : Queue Wrapper) :
    (d.setBuffer q j buffer).queue other =
      if other = q then (d.queue q).modify j fun s ↦ { s with buffer } else d.queue other :=
  queue_insert d q other _

theorem current_setBuffer (d : Directory) (q other : String) (j : Nat) (buffer : Queue Wrapper) :
    ((d.setBuffer q j buffer).queue other).current = (d.queue other).current := by
  rw [queue_setBuffer]
  split
  · rename_i ho
    subst ho
    exact Broadcast.current_modify (f := fun s ↦ { s with buffer }) (fun _ ↦ rfl) j
  · rfl

/-- To take from a buffer is to change that buffer. -/
theorem exists_setBuffer_of_pop (h : d.pop q id = (some w, d')) :
    ∃ buffer, d' = d.setBuffer q id buffer := by
  rw [pop] at h
  split at h
  · cases h
  · exact ⟨_, (Prod.mk.inj h).2.symm⟩

/-- A closed buffer keeps what it holds. -/
theorem items_close {buffer : Queue Wrapper} (h : d.buffer? q id = some buffer) :
    (d.setBuffer q id buffer.close).items = d.items := by
  funext name j
  rw [items_eq, items_eq, queue_setBuffer]
  split
  · rename_i hq
    subst hq
    rw [List.getElem?_modify]
    by_cases hj : id = j
    · subst hj
      rw [buffer?] at h
      obtain ⟨s, hs, rfl⟩ := Option.map_eq_some_iff.1 h
      simp [hs, Queue.close]
    · simp [hj]
  · rfl

theorem items_pop (h : d.pop q id = (some w, d')) :
    d.items q id = w :: d'.items q id ∧
      ∀ other j, ¬ (other = q ∧ j = id) → d'.items other j = d.items other j := by
  obtain ⟨s, rest, hs, hitems, hc⟩ := changes_pop h
  refine ⟨?_, fun other j hne ↦ ?_⟩
  · rw [items_eq, items_eq, hs, hc.here, Queue.pop_of_cons hitems]
    exact hitems
  · rw [items_eq, items_eq, hc.elsewhere other j hne]

theorem items_of_pop_eq_none (h : d.pop q id = (none, d')) : d.items q id = [] := by
  rw [pop] at h
  rw [items]
  split at h
  · rename_i hb
    rw [hb]
    rfl
  · rename_i buffer hb
    rw [hb]
    cases hi : buffer.items with
    | nil => exact hi
    | cons w rest => rw [Queue.pop_of_cons hi] at h; cases h

/-- A publish adds to the buffers that are subscribed to the queue and have room. -/
theorem items_publish (d : Directory) (q : String) (w : Wrapper)
    (h : id ∈ (d.queue name).current) :
    (d.publish q w).2.items name id =
      d.items name id ++ if q = name ∧ id ∉ (d.queue q).full then [w] else [] := by
  rw [items_eq, items_eq, queue_publish]
  by_cases hq : name = q
  · subst hq
    obtain ⟨s, hs, hl⟩ := Broadcast.mem_current.1 h
    have hfull : id ∈ (d.queue name).full ↔ s.buffer.isFull = true := by
      rw [Broadcast.full, List.mem_filter, hs]
      exact and_iff_right h
    rw [if_pos rfl, Broadcast.publish_eq_map, List.getElem?_map, hs]
    simp only [hfull, true_and, Option.map_some, hl, if_true, Option.getD_some]
    cases hf : s.buffer.isFull with
    | true => simp [Queue.push_of_full hf]
    | false => simp [Queue.push_of_room hf]
  · rw [if_neg hq, if_neg fun hc ↦ hq hc.1.symm, List.append_nil]

/-! ## Which buffers are closed -/

/-- Whether a buffer is closed; nothing if there is no such buffer. -/
def isClosed? (d : Directory) (name : String) (id : Nat) : Option Bool :=
  (d.buffer? name id).map (·.closed)

/-- A buffer that is open or closed is there. -/
theorem exists_buffer {d : Directory} {name : String} {id : Nat}
    (h : (d.isClosed? name id).isSome) : ∃ q, d.buffer? name id = some q :=
  Option.isSome_iff_exists.1 (Option.isSome_map ▸ h)

theorem isClosed?_eq (d : Directory) (name : String) (id : Nat) :
    d.isClosed? name id = ((d.queue name)[id]?).map (·.buffer.closed) := by
  rw [isClosed?, buffer?, Option.map_map]
  rfl

theorem closed_push (q : Queue Wrapper) (w : Wrapper) : (q.push w).2.closed = q.closed := by
  unfold Queue.push
  split <;> rfl

/-- A publish closes no buffer. -/
theorem isClosed?_publish (d : Directory) (q : String) (w : Wrapper) :
    (d.publish q w).2.isClosed? = d.isClosed? := by
  funext name id
  rw [isClosed?_eq, isClosed?_eq, queue_publish]
  split
  · rename_i hq
    rw [hq, Broadcast.publish_eq_map, List.getElem?_map, Option.map_map]
    congr 1
    funext s
    dsimp only [Function.comp]
    split
    · exact closed_push _ _
    · rfl
  · rfl

theorem isClosed?_subscribe (q : String) (capacity : Nat) (h : (d.isClosed? name id).isSome) :
    (d.subscribe q capacity).2.isClosed? name id = d.isClosed? name id := by
  rw [isClosed?_eq] at h
  rw [isClosed?_eq, isClosed?_eq, getElem?_queue_subscribe, if_neg]
  rintro ⟨rfl, rfl⟩
  simp at h

/-- A new buffer is open. -/
theorem isClosed?_subscribe_self (d : Directory) (q : String) (capacity : Nat) :
    (d.subscribe q capacity).2.isClosed? q (d.queue q).length = some false := by
  rw [isClosed?_eq, getElem?_queue_subscribe, if_pos ⟨rfl, rfl⟩]
  rfl

theorem isClosed?_unsubscribe {j : Nat} (h : ¬ (name = q ∧ id = j)) :
    (d.unsubscribe q j).isClosed? name id = d.isClosed? name id := by
  rw [isClosed?_eq, isClosed?_eq, getElem?_queue_unsubscribe, if_neg h]

theorem isClosed?_setBuffer {j : Nat} (buffer : Queue Wrapper) (h : ¬ (name = q ∧ id = j)) :
    (d.setBuffer q j buffer).isClosed? name id = d.isClosed? name id := by
  rw [isClosed?_eq, isClosed?_eq, queue_setBuffer]
  split
  · rename_i hq
    subst hq
    rw [List.getElem?_modify]
    have hj : j ≠ id := fun hj ↦ h ⟨rfl, hj.symm⟩
    simp [hj]
  · rfl

theorem isClosed?_close {buffer : Queue Wrapper} (h : d.buffer? q id = some buffer) :
    (d.setBuffer q id buffer.close).isClosed? q id = some true := by
  obtain ⟨s, hs, rfl⟩ := Option.map_eq_some_iff.1 h
  rw [isClosed?_eq, queue_setBuffer, if_pos rfl, List.getElem?_modify, hs]
  simp [Queue.close]

/-- What is taken from a buffer does not close it. -/
theorem isClosed?_pop (h : d.pop q id = (some w, d')) : d'.isClosed? = d.isClosed? := by
  obtain ⟨s, rest, hs, hitems, hc⟩ := changes_pop h
  funext name j
  rw [isClosed?_eq, isClosed?_eq]
  by_cases hj : name = q ∧ j = id
  · obtain ⟨rfl, rfl⟩ := hj
    rw [hs, hc.here, Queue.pop_of_cons hitems]
    rfl
  · rw [hc.elsewhere name j hj]

end Directory

end Conduit
