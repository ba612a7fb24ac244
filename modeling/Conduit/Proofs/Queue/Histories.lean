import Conduit.Proofs.Queue.Traffic

/-!
# Histories

A log keeps what traffic tells, the latest first. What happened to one buffer can be read off it,
and from that alone what the buffer has given and what it holds (`Traffic.replay`). The log tells
everything about a subscriber (`Traffic.Told`), and does so still when something happens to that
subscriber or to another one.
-/

namespace Conduit.Traffic

/-! ## Reading a log -/

section

variable {α : Type}

/-- What some of the events tell, in the order in which they happened. -/
def tell (f : Event → Option α) (log : List Event) : List α := log.reverse.filterMap f

@[simp]
theorem tell_cons (f : Event → Option α) (e : Event) (log : List Event) :
    tell f (e :: log) = tell f log ++ (f e).toList := by
  rw [tell, List.reverse_cons, List.filterMap_append, tell, List.filterMap_cons]
  cases f e <;> rfl

end

/-- A copy that was pushed into a buffer, or refused by it. -/
structure Offer where
  publisher : String
  wrapper : Wrapper
  taken : Bool
deriving DecidableEq

/-- What can happen to a buffer. -/
inductive Own
  | offer (w : Wrapper)
  | take
deriving DecidableEq

section

variable (q : String) (i : Nat)

def id? : Event → Option Nat
  | .subscribed q' i _ => if q' = q then some i else none
  | _ => none

def offer? : Event → Option Offer
  | .pushed p q' i' w taken => if q' = q ∧ i' = i then some ⟨p, w, taken⟩ else none
  | _ => none

def pop? : Event → Option Wrapper
  | .popped q' i' w => if q' = q ∧ i' = i then some w else none
  | _ => none

def own? : Event → Option Own
  | .pushed _ q' i' w _ => if q' = q ∧ i' = i then some (.offer w) else none
  | .popped q' i' _ => if q' = q ∧ i' = i then some .take else none
  | _ => none

/-- The numbers that were given out. -/
def ids (log : List Event) : List Nat := tell (id? q) log

/-- The copies that came to a buffer. -/
def offers (log : List Event) : List Offer := tell (offer? q i) log

/-- What was taken out of a buffer. -/
def popped (log : List Event) : List Wrapper := tell (pop? q i) log

/-- All that happened to a buffer. -/
def view (log : List Event) : List Own := tell (own? q i) log

/-- Whether a subscription has begun and not ended. -/
def isLive : List Event → Bool
  | [] => false
  | .subscribed q' i' _ :: log => decide (q' = q ∧ i' = i) || isLive log
  | .unsubscribed q' i' :: log => !decide (q' = q ∧ i' = i) && isLive log
  | _ :: log => isLive log

/-- Who is subscribed. -/
def current (log : List Event) : List Nat := (ids q log).filter (isLive q · log)

/-- What a publisher began to publish while the subscription was there. -/
def made (p : String) : List Event → List Wrapper
  | [] => []
  | .began p' q' w :: log =>
    if p' = p ∧ q' = q ∧ isLive q i log = true then made p log ++ [w] else made p log
  | _ :: log => made p log

end

/-- Whether the copies of a publisher were taken. -/
def answer? (p : String) : Event → Option Bool
  | .pushed p' _ _ _ taken => if p' = p then some taken else none
  | _ => none

/-! ## A buffer by itself -/

/-- What was taken out of a buffer, what is in it, and how it answered to what was offered. -/
structure Contents where
  popped : List Wrapper := []
  held : List Wrapper := []
  answers : List Bool := []
deriving DecidableEq

def Contents.next (capacity : Nat) (r : Contents) : Own → Contents
  | .offer w =>
    if 0 < capacity ∧ capacity ≤ r.held.length then { r with answers := r.answers ++ [false] }
    else { r with held := r.held ++ [w], answers := r.answers ++ [true] }
  | .take =>
    match r.held with
    | [] => r
    | w :: held => { r with popped := r.popped ++ [w], held }

/-- What a buffer of some capacity comes to that nobody else has to do with. -/
def replay (capacity : Nat) (view : List Own) : Contents := view.foldl (Contents.next capacity) {}

theorem replay_concat (capacity : Nat) (view : List Own) (o : Own) :
    replay capacity (view ++ [o]) = (replay capacity view).next capacity o := List.foldl_append

/-! ## One subscriber -/

/-- What the buffer of a subscriber holds, if there is one. -/
def heldBy (sub : Option Subscriber) : List Wrapper := sub.elim [] (·.buffer.items)

/-- The log tells everything about one subscriber, or that there is none yet. -/
structure Told (log : List Event) (q : String) (i : Nat) (sub : Option Subscriber) : Prop where
  live : isLive q i log = sub.any (·.live)
  capacity : ∀ c, .subscribed q i c ∈ log → ∃ s, sub = some s ∧ s.buffer.capacity = c
  balance : popped q i log ++ heldBy sub = ((offers q i log).filter (·.taken)).map (·.wrapper)
  replays : ∀ c, (∀ s, sub = some s → s.buffer.capacity = c) →
    replay c (view q i log) = ⟨popped q i log, heldBy sub, (offers q i log).map (·.taken)⟩

/-- The event is about this subscriber. -/
def Event.Concerns (q : String) (i : Nat) : Event → Prop
  | .subscribed q' i' _ | .unsubscribed q' i' | .popped q' i' _ | .pushed _ q' i' _ _ =>
    q' = q ∧ i' = i
  | _ => False

section

variable {log : List Event} {q : String} {i : Nat} {s : Subscriber}

theorem told_nil : Told [] q i none where
  live := rfl
  capacity _ h := absurd h List.not_mem_nil
  balance := rfl
  replays _ _ := rfl

/-- What happens to others does not matter. -/
theorem Told.other {sub : Option Subscriber} (h : Told log q i sub) {e : Event}
    (he : ¬ e.Concerns q i) : Told (e :: log) q i sub := by
  have hlive : isLive q i (e :: log) = isLive q i log := by
    cases e <;> simp_all [isLive, Event.Concerns, or_iff_not_imp_left]
  have hpopped : popped q i (e :: log) = popped q i log := by
    cases e <;> simp_all [popped, pop?, Event.Concerns]
  have hoffers : offers q i (e :: log) = offers q i log := by
    cases e <;> simp_all [offers, offer?, Event.Concerns]
  have hview : view q i (e :: log) = view q i log := by
    cases e <;> simp_all [view, own?, Event.Concerns]
  refine ⟨hlive ▸ h.live, fun c hc ↦ ?_, by rw [hpopped, hoffers, h.balance], fun c hc ↦ ?_⟩
  · rcases List.mem_cons.1 hc with rfl | hc
    · exact absurd ⟨rfl, rfl⟩ he
    · exact h.capacity c hc
  · rw [hview, hpopped, hoffers, h.replays c hc]

theorem Told.subscribed (h : Told log q i none) (c : Nat) :
    Told (.subscribed q i c :: log) q i (some { buffer := { capacity := c } }) where
  live := by simp [isLive]
  capacity c' hc := by
    rcases List.mem_cons.1 hc with heq | hc
    · obtain ⟨-, -, rfl⟩ := Event.subscribed.inj heq
      exact ⟨_, rfl, rfl⟩
    · obtain ⟨s, hs, -⟩ := h.capacity c' hc
      cases hs
  balance := by
    change Traffic.popped q i _ ++ heldBy none = _
    simpa [Traffic.popped, pop?, offers, offer?] using h.balance
  replays c' hc := by
    obtain rfl := hc _ rfl
    have hreplay := h.replays c nofun
    change _ = Contents.mk _ (heldBy none) _
    simpa [Traffic.popped, pop?, offers, offer?, view, own?] using hreplay

theorem Told.unsubscribed {sub : Option Subscriber} (h : Told log q i sub) :
    Told (.unsubscribed q i :: log) q i (sub.map Broadcast.retire) := by
  have hbuffer (s : Subscriber) : (Broadcast.retire s).buffer.items = s.buffer.items ∧
      (Broadcast.retire s).buffer.capacity = s.buffer.capacity := by
    unfold Broadcast.retire
    split <;> exact ⟨rfl, rfl⟩
  have hdead (s : Subscriber) : (Broadcast.retire s).live = false := by
    unfold Broadcast.retire
    split
    · rfl
    · rename_i hs
      exact Bool.not_eq_true _ ▸ hs
  have hheld : heldBy (sub.map Broadcast.retire) = heldBy sub := by
    cases sub with
    | none => rfl
    | some s => exact (hbuffer s).1
  refine ⟨?_, fun c hc ↦ ?_, ?_, fun c hc ↦ ?_⟩
  · cases sub <;> simp [isLive, hdead]
  · obtain ⟨s, rfl, hs⟩ := h.capacity c ((List.mem_cons.1 hc).resolve_left nofun)
    exact ⟨_, rfl, (hbuffer s).2.trans hs⟩
  · rw [hheld]
    simpa [Traffic.popped, pop?, offers, offer?] using h.balance
  · have hreplay := h.replays c fun s hs ↦ by
      subst hs
      exact (hbuffer s).2.symm.trans (hc _ rfl)
    rw [hheld]
    simpa [Traffic.popped, pop?, offers, offer?, view, own?] using hreplay

theorem Told.popped (h : Told log q i (some s)) {w : Wrapper} {rest : List Wrapper}
    (hitems : s.buffer.items = w :: rest) :
    Told (.popped q i w :: log) q i (some { s with buffer := s.buffer.pop.2 }) := by
  rw [Queue.pop_of_cons hitems]
  have hheld : heldBy (some s) = w :: rest := hitems
  have hpopped : Traffic.popped q i (.popped q i w :: log) = Traffic.popped q i log ++ [w] := by
    simp [Traffic.popped, pop?]
  have hoffers : offers q i (.popped q i w :: log) = offers q i log := by simp [offers, offer?]
  have hview : view q i (.popped q i w :: log) = view q i log ++ [.take] := by simp [view, own?]
  refine ⟨?_, fun c hc ↦ ?_, ?_, fun c hc ↦ ?_⟩
  · exact h.live
  · obtain ⟨_, hs, hcapacity⟩ := h.capacity c ((List.mem_cons.1 hc).resolve_left nofun)
    obtain rfl := Option.some.inj hs
    exact ⟨_, rfl, hcapacity⟩
  · rw [hpopped, hoffers, ← h.balance, hheld, List.append_assoc]
    rfl
  · have hcapacity := hc _ rfl
    have hreplay := h.replays c fun s' hs ↦ Option.some.inj hs ▸ hcapacity
    rw [hview, replay_concat, hreplay, hheld, hpopped, hoffers]
    rfl

theorem Told.pushed (h : Told log q i (some s)) (p : String) (w : Wrapper) :
    Told (.pushed p q i w (s.buffer.push w).1.isOk :: log) q i
      (some { s with buffer := (s.buffer.push w).2 }) := by
  have hpopped (t : Bool) : Traffic.popped q i (.pushed p q i w t :: log) =
      Traffic.popped q i log := by simp [Traffic.popped, pop?]
  have hoffers (t : Bool) : offers q i (.pushed p q i w t :: log) = offers q i log ++ [⟨p, w, t⟩] := by
    simp [offers, offer?]
  have hview (t : Bool) : view q i (.pushed p q i w t :: log) = view q i log ++ [.offer w] := by
    simp [view, own?]
  have hcapacity (c : Nat) (t : Bool) (hc : .subscribed q i c ∈ .pushed p q i w t :: log) :
      s.buffer.capacity = c := by
    obtain ⟨_, hs, hcapacity⟩ := h.capacity c ((List.mem_cons.1 hc).resolve_left nofun)
    exact Option.some.inj hs ▸ hcapacity
  have hreplay := h.replays s.buffer.capacity fun s' hs ↦ Option.some.inj hs ▸ rfl
  have hbalance := h.balance
  -- The buffer compares its size to its capacity just as the replay does.
  have hfull : s.buffer.isFull = true ↔
      0 < s.buffer.capacity ∧ s.buffer.capacity ≤ (heldBy (some s)).length := by
    rw [Queue.isFull, Bool.and_eq_true, decide_eq_true_iff, decide_eq_true_iff]
    rfl
  by_cases hroom : s.buffer.isFull = true
  · rw [Queue.push_of_full hroom]
    refine ⟨h.live, fun c hc ↦ ⟨_, rfl, hcapacity c _ hc⟩, ?_, fun c hc ↦ ?_⟩
    · rw [hpopped, hoffers, List.filter_append, List.map_append, ← hbalance]
      exact (List.append_nil _).symm
    · obtain rfl := hc _ rfl
      rw [hview, replay_concat, hreplay, Contents.next, if_pos (hfull.1 hroom), hpopped, hoffers,
        List.map_append]
      rfl
  · rw [Queue.push_of_room (Bool.not_eq_true _ ▸ hroom)]
    refine ⟨h.live, fun c hc ↦ ⟨_, rfl, hcapacity c _ hc⟩, ?_, fun c hc ↦ ?_⟩
    · rw [hpopped, hoffers, List.filter_append, List.map_append, ← hbalance, List.append_assoc]
      rfl
    · obtain rfl := hc _ rfl
      rw [hview, replay_concat, hreplay, Contents.next, if_neg (mt hfull.2 hroom), hpopped, hoffers,
        List.map_append]
      rfl

end

end Conduit.Traffic
