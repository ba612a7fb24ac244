import Mathlib.Data.List.Nodup
import Mathlib.Data.List.Range
import Conduit.Proofs.Stage.Waiting

/-!
# Holds of a throttle

Messages are offered to a throttle, timers go off, and it is stopped, all in any order
(`Throttle.Act`). A timer may go off with any token: one of long ago, one that has gone off before,
or one that was never set. What is seen of it is kept in a log. A hold begins when a message is held
and a timer is set, goes on with every further message that is held, and ends when a message is let
go or the throttle is stopped. So the log tells which hold is in progress (`Throttle.hold`), and
that is just what the throttle remembers (`Throttle.holding_after`).

From this it follows that the log is in order (`Throttle.orderly_log`): only the timer of the hold
in progress lets a message go, and it is the latest one held, so no message passes twice.
-/

namespace Conduit.Stage.Throttle

/-! ## Logs -/

/-- What is done with a throttle. -/
inductive Act
  | offer (moment : Moment) (w : Wrapper)
  | ring (now : Instant) (token : UInt64)
  | stop

/-- What is seen of a throttle. -/
inductive Event
  | offered (w : Wrapper) (outcome : Outcome) (timers : List Timer)
  | rang (token : UInt64) (result : Except PipelineError (Option Message)) (timers : List Timer)
  | stopped

def act (s : Throttle) : Act → Throttle × Event
  | .offer moment w =>
    let r := s.process moment w
    (r.state, .offered w r.outcome r.timers)
  | .ring now token =>
    let r := s.expire now token
    (r.state, .rang token r.result r.timers)
  | .stop => (s.stop, .stopped)

def after (s : Throttle) (acts : List Act) : Throttle := acts.foldl (fun s a ↦ (s.act a).1) s

def log : Throttle → List Act → List Event
  | _, [] => []
  | s, a :: acts => (s.act a).2 :: log (s.act a).1 acts

namespace Event

def timers : Event → List Timer
  | .offered _ _ timers => timers
  | .rang _ _ timers => timers
  | .stopped => []

/-- The message that passes, at once or after it was held. -/
def passed : Event → Option Message
  | .offered _ (.done w) _ => if w.accepted then some w.working else none
  | .rang _ (.ok m) _ => m
  | _ => none

/-- The message that is offered and held. -/
def held : Event → Option Message
  | .offered w (.hold _) _ => some w.working
  | _ => none

/-- Whether nothing is held any longer. -/
def ends : Event → Bool
  | .rang _ (.ok (some _)) _ => true
  | .stopped => true
  | _ => false

/-- The event does nothing to a hold in progress. -/
def IsQuiet (e : Event) : Prop := e.held = none ∧ e.ends = false

/-- The hold in progress after an event. -/
def next (hold : Option (UInt64 × Message)) (e : Event) : Option (UInt64 × Message) :=
  if e.ends then none
  else
    match e.held, e.timers with
    | none, _ => hold
    | some m, [] => hold.map fun h ↦ (h.1, m)
    | some m, timer :: _ => some (timer.token, m)

end Event

/-- The hold in progress after a log: the token of the timer with which it began, and the latest
message that is held. -/
def hold (events : List Event) : Option (UInt64 × Message) := events.foldl Event.next none

/-- The tokens of all timers that are set, in order. -/
def tokens (events : List Event) : List UInt64 := (events.flatMap Event.timers).map (·.token)

/-- The message that is offered at place `i` of a log passes at place `j`, be it at once, or because
it is held and nothing else happens to the hold before it is let go. -/
inductive Passes (events : List Event) : Nat → Nat → Prop
  | atOnce {i : Nat} {w : Wrapper} {outcome : Outcome} {timers : List Timer} :
      events[i]? = some (.offered w outcome timers) →
      (Event.offered w outcome timers).passed = some w.working → Passes events i i
  | later {i j : Nat} {e : Event} {m : Message} {token : UInt64} {timers : List Timer} : i < j →
      events[i]? = some e → e.held = some m →
      events[j]? = some (.rang token (.ok (some m)) timers) →
      (∀ k e, i < k → k < j → events[k]? = some e → e.IsQuiet) → Passes events i j

/-- What may be seen of a throttle. -/
structure Orderly (events : List Event) : Prop where
  /-- What passes is a message that was offered. -/
  offered : ∀ j e, events[j]? = some e → e.passed.isSome = true → ∃ i, Passes events i j
  /-- No message passes twice. -/
  once : ∀ i j j', Passes events i j → Passes events i j' → j = j'
  /-- A timer lets a message go exactly if it is the one of the hold in progress, and then the
  latest one held. -/
  latest : ∀ before token result timers later,
    events = before ++ .rang token result timers :: later →
      ∀ m, result = .ok (some m) ↔ hold before = some (token, m)
  /-- No token is used twice. -/
  distinct : (tokens events).Nodup
  /-- A timer is set exactly if a message is held and no hold is in progress. -/
  single : ∀ before e later, events = before ++ e :: later →
    (e.timers ≠ [] ↔ e.held.isSome = true ∧ hold before = none)
  /-- No message that was offered before a stop passes after it. -/
  forgotten : ∀ before later i j, events = before ++ .stopped :: later → Passes events i j →
    before.length < j → before.length < i

/-! ## What one act does -/

/-- The throttle holds this message, if any, and waits for a timer as long as it does; its latest
timer has this token. -/
structure Remembers (s : Throttle) (message : Option Message) (latest : UInt64) : Prop where
  held : s.held = message
  pending : s.pending = message.isSome
  token : s.token = latest

/-- What comes of an act, as far as messages are held. -/
inductive Does (s s' : Throttle) : Event → Prop
  | decides (w : Wrapper) (accepted : Bool) : s'.Remembers s.held s.token →
      Does s s' (.offered w (.done (w.decide accepted)) [])
  | replaces (w w' : Wrapper) {m : Message} : s.held = some m →
      s'.Remembers (some w.working) s.token → Does s s' (.offered w (.hold w') [])
  | begins (w w' : Wrapper) (delay : Nat) : s.held = none →
      s'.Remembers (some w.working) (s.token + 1) →
      Does s s' (.offered w (.hold w') [⟨delay, s.token + 1⟩])
  | frees {m : Message} : s.held = some m → s'.Remembers none s.token →
      Does s s' (.rang s.token (.ok (some m)) [])
  | vain (token : UInt64) : (s.held = none ∨ token ≠ s.token) → s'.Remembers s.held s.token →
      Does s s' (.rang token (.ok none) [])
  | stops : s'.Remembers none s.token → Does s s' .stopped

section

variable {s s' : Throttle} {e : Event}

theorem remembers_roll (h : s.pending = s.held.isSome) (now : Instant) :
    (s.roll now).Remembers s.held s.token :=
  ⟨held_roll s now, (pending_roll s now).trans h, token_roll s now⟩

theorem does_offer (h : s.pending = s.held.isSome) (moment : Moment) (w : Wrapper) :
    s.Does (s.process moment w).state
      (.offered w (s.process moment w).outcome (s.process moment w).timers) := by
  obtain ⟨hheld, hpending, htoken⟩ := remembers_roll h moment.now
  unfold process
  dsimp only
  split
  · exact .decides w true ⟨hheld, hpending, htoken⟩
  · split
    · exact .decides w false ⟨hheld, hpending, htoken⟩
    · split
      · rename_i hwaits
        obtain ⟨m, hm⟩ := Option.isSome_iff_exists.1 (hpending.symm.trans hwaits)
        exact .replaces w _ hm ⟨rfl, hwaits, htoken⟩
      · rename_i hidle
        have hnone : s.held = none := by
          rw [hpending, Bool.not_eq_true, Option.isSome_eq_false_iff] at hidle
          exact Option.isNone_iff_eq_none.1 hidle
        rw [htoken]
        exact .begins w _ _ hnone ⟨rfl, rfl, rfl⟩

theorem does_ring (h : s.pending = s.held.isSome) (now : Instant) (token : UInt64) :
    s.Does (s.expire now token).state
      (.rang token (s.expire now token).result (s.expire now token).timers) := by
  unfold expire
  split
  · rename_i hne
    exact .vain token (.inr hne) ⟨rfl, h, rfl⟩
  · rename_i heq
    obtain rfl : token = s.token := not_not.1 heq
    dsimp only
    split
    · rename_i hnone
      exact .vain _ (.inl hnone) ⟨rfl, by rw [hnone]; rfl, rfl⟩
    · rename_i m hm
      exact .frees hm ⟨held_roll _ now, pending_roll _ now, token_roll _ now⟩

theorem does_act (h : s.pending = s.held.isSome) (a : Act) : s.Does (s.act a).1 (s.act a).2 := by
  cases a with
  | offer moment w => exact does_offer h moment w
  | ring now token => exact does_ring h now token
  | stop => exact .stops ⟨rfl, rfl, rfl⟩

/-- The hold that the throttle remembers. -/
def holding (s : Throttle) : Option (UInt64 × Message) := s.held.map (s.token, ·)

theorem Remembers.holding {held : Option Message} {token : UInt64} (h : s.Remembers held token) :
    s.holding = held.map (token, ·) := by
  rw [Throttle.holding, h.held, h.token]

theorem holding_of_held {m : Message} (h : s.held = some m) : s.holding = some (s.token, m) := by
  rw [holding, h]
  rfl

theorem holding_of_held_eq_none (h : s.held = none) : s.holding = none := by
  rw [holding, h]
  rfl

theorem Does.pending (h : s.Does s' e) : s'.pending = s'.held.isSome := by
  cases h <;> rename_i h <;> exact h.pending.trans (congrArg _ h.held.symm)

/-- The throttle remembers the hold that is seen. -/
theorem Does.holding (h : s.Does s' e) : s'.holding = e.next s.holding := by
  cases h with
  | decides w accepted h => exact h.holding
  | replaces w w' hm h =>
    rw [holding_of_held hm]
    exact h.holding
  | begins w w' delay _ h => exact h.holding
  | frees _ h => exact h.holding
  | vain token _ h => exact h.holding
  | stops h => exact h.holding

/-- A message that passes at once is the one that is offered. -/
theorem Does.passed_offered {w : Wrapper} {outcome : Outcome} {timers : List Timer}
    (h : s.Does s' (.offered w outcome timers))
    (hpassed : (Event.offered w outcome timers).passed.isSome = true) :
    (Event.offered w outcome timers).passed = some w.working := by
  cases h with
  | decides _ accepted =>
    cases accepted with
    | true => rfl
    | false => exact absurd hpassed Bool.false_ne_true
  | replaces => exact absurd hpassed Bool.false_ne_true
  | begins => exact absurd hpassed Bool.false_ne_true

theorem Does.result_iff {token : UInt64} {result : Except PipelineError (Option Message)}
    {timers : List Timer} (h : s.Does s' (.rang token result timers)) (m : Message) :
    result = .ok (some m) ↔ s.holding = some (token, m) := by
  cases h with
  | frees hm =>
    rw [holding_of_held hm]
    simp
  | vain token hvain =>
    refine ⟨nofun, fun hholding ↦ ?_⟩
    obtain ⟨m', hm', heq⟩ := Option.map_eq_some_iff.1 hholding
    rcases hvain with hnone | hne
    · cases hnone.symm.trans hm'
    · exact absurd (congrArg Prod.fst heq).symm hne

theorem Does.timers_iff (h : s.Does s' e) :
    e.timers ≠ [] ↔ e.held.isSome = true ∧ s.holding = none := by
  cases h with
  | replaces w w' hm =>
    rw [holding_of_held hm]
    simp [Event.timers]
  | begins w w' delay hnone =>
    rw [holding_of_held_eq_none hnone]
    simp [Event.timers, Event.held]
  | _ => simp [Event.timers, Event.held]

/-- No timer is set, or one with the next token. -/
theorem Does.token (h : s.Does s' e) :
    (e.timers = [] ∧ s'.token = s.token) ∨
      ∃ delay, e.timers = [⟨delay, s.token + 1⟩] ∧ s'.token = s.token + 1 := by
  cases h with
  | begins w w' delay _ h => exact .inr ⟨delay, rfl, h.token⟩
  | decides _ _ h => exact .inl ⟨rfl, h.token⟩
  | replaces _ _ _ h => exact .inl ⟨rfl, h.token⟩
  | frees _ h => exact .inl ⟨rfl, h.token⟩
  | vain _ _ h => exact .inl ⟨rfl, h.token⟩
  | stops h => exact .inl ⟨rfl, h.token⟩

end

/-! ## What all acts do -/

section

variable {s : Throttle}

/-- Whatever is seen comes of an act, after those before it. -/
theorem exists_act_of_log {acts : List Act} {before later : List Event} {e : Event}
    (h : s.log acts = before ++ e :: later) :
    ∃ done a, before = s.log done ∧ e = ((s.after done).act a).2 := by
  induction acts generalizing s before with
  | nil => exact absurd h.symm (List.append_ne_nil_of_right_ne_nil _ (List.cons_ne_nil _ _))
  | cons a acts ih =>
    cases before with
    | nil => exact ⟨[], a, rfl, (List.cons.inj h).1.symm⟩
    | cons e' before =>
      obtain ⟨rfl, hlog⟩ := List.cons.inj h
      obtain ⟨done, a', rfl, he⟩ := ih hlog
      exact ⟨a :: done, a', rfl, he⟩

theorem pending_after (h : s.pending = s.held.isSome) (acts : List Act) :
    (s.after acts).pending = (s.after acts).held.isSome := by
  induction acts generalizing s with
  | nil => exact h
  | cons a acts ih => exact ih (does_act h a).pending

/-- What a throttle remembers is what the log tells. -/
theorem holding_after (h : s.pending = s.held.isSome) (acts : List Act) :
    (s.after acts).holding = (s.log acts).foldl Event.next s.holding := by
  induction acts generalizing s with
  | nil => rfl
  | cons a acts ih =>
    have hdoes := does_act h a
    rw [log, List.foldl_cons, ← hdoes.holding]
    exact ih hdoes.pending

/-- Whatever is seen is what a throttle does that remembers the hold in progress. -/
theorem exists_does_of_log (hheld : s.held = none) (hpending : s.pending = false) {acts : List Act}
    {before later : List Event} {e : Event} (h : s.log acts = before ++ e :: later) :
    ∃ t t' : Throttle, t.Does t' e ∧ t.holding = hold before := by
  have hidle : s.pending = s.held.isSome := by rw [hheld, hpending]; rfl
  obtain ⟨done, a, rfl, rfl⟩ := exists_act_of_log h
  refine ⟨s.after done, _, does_act (pending_after hidle done) a, ?_⟩
  rw [holding_after hidle, holding_of_held_eq_none hheld]
  rfl

/-! ## Tokens -/

/-- Timers are numbered in a row. -/
theorem tokens_log (h : s.pending = s.held.isSome) (acts : List Act) :
    tokens (s.log acts) =
      (List.range (tokens (s.log acts)).length).map fun k ↦ s.token + UInt64.ofNat (k + 1) := by
  induction acts generalizing s with
  | nil => rfl
  | cons a acts ih =>
    have hdoes := does_act h a
    have hrest := ih hdoes.pending
    rcases hdoes.token with ⟨hnone, htoken⟩ | ⟨delay, hone, htoken⟩
    · have hcons : tokens (s.log (a :: acts)) = tokens ((s.act a).1.log acts) := by
        simp [tokens, log, hnone]
      rw [hcons, ← htoken]
      exact hrest
    · have hcons : tokens (s.log (a :: acts)) =
          (s.token + 1) :: tokens ((s.act a).1.log acts) := by
        simp [tokens, log, hone]
      rw [hcons, List.length_cons, List.range_succ_eq_map, List.map_cons, List.map_map]
      refine congrArg _ (hrest.trans (List.map_congr_left fun k _ ↦ ?_))
      rw [htoken, UInt64.add_assoc]
      refine congrArg _ ?_
      rw [Nat.succ_eq_add_one, UInt64.ofNat_add (k + 1), UInt64.add_comm]
      rfl

theorem nodup_tokens (h : s.pending = s.held.isSome) {acts : List Act}
    (hfew : (tokens (s.log acts)).length < 0x10000000000000000) : (tokens (s.log acts)).Nodup := by
  rw [tokens_log h]
  refine List.Nodup.map_on (fun j hj k hk heq ↦ ?_) List.nodup_range
  have hword : ∀ n ∈ List.range (tokens (s.log acts)).length,
      (UInt64.ofNat (n + 1)).toNat = n + 1 := fun n hn ↦
    UInt64.toNat_ofNat_of_lt' (Nat.lt_of_le_of_lt (List.mem_range.1 hn) hfew)
  have hnat := congrArg UInt64.toNat ((UInt64.add_right_inj _).1 heq)
  rw [hword j hj, hword k hk] at hnat
  exact Nat.succ.inj hnat

end

/-! ## Where a message comes from -/

theorem hold_append (events : List Event) (e : Event) :
    hold (events ++ [e]) = e.next (hold events) := by
  rw [hold, List.foldl_append]
  rfl

/-- A hold in progress has got its message with the last event, or nothing has happened to it. -/
theorem Event.next_eq_some {e : Event} {before : Option (UInt64 × Message)} {token : UInt64}
    {m : Message} (h : e.next before = some (token, m)) :
    e.held = some m ∨ e.IsQuiet ∧ before = some (token, m) := by
  rw [next] at h
  split at h
  · cases h
  · rename_i hgoes
    split at h
    · rename_i hheld
      exact .inr ⟨⟨hheld, Bool.not_eq_true _ ▸ hgoes⟩, h⟩
    · rename_i hheld _
      obtain ⟨_, -, heq⟩ := Option.map_eq_some_iff.1 h
      exact .inl (hheld.trans (congrArg some (Prod.ext_iff.1 heq).2))
    · rename_i hheld _
      exact .inl (hheld.trans (congrArg some (Prod.ext_iff.1 (Option.some.inj h)).2))

/-- The message of a hold in progress was held by some event, and nothing has happened to the hold
since. -/
theorem exists_held_of_hold {events : List Event} {token : UInt64} {m : Message}
    (h : hold events = some (token, m)) :
    ∃ before e since, events = before ++ e :: since ∧ e.held = some m ∧ ∀ e ∈ since, e.IsQuiet := by
  induction events using List.reverseRecOn with
  | nil => cases h
  | append_singleton events e ih =>
    rw [hold_append] at h
    rcases Event.next_eq_some h with hheld | ⟨hquiet, hbefore⟩
    · exact ⟨events, e, [], rfl, hheld, by simp⟩
    · obtain ⟨before, e', since, rfl, hheld, hsince⟩ := ih hbefore
      refine ⟨before, e', since ++ [e], by simp, hheld, fun e'' hmem ↦ ?_⟩
      rcases List.mem_append.1 hmem with hmem | hmem
      · exact hsince e'' hmem
      · exact List.mem_singleton.1 hmem ▸ hquiet

/-- A message that is let go by the timer of the hold in progress was offered before. -/
theorem exists_passes_of_hold {before later : List Event} {token token' : UInt64} {m : Message}
    {timers : List Timer} (h : hold before = some (token, m)) :
    ∃ i, Passes (before ++ .rang token' (.ok (some m)) timers :: later) i before.length := by
  obtain ⟨earlier, e, since, rfl, hheld, hsince⟩ := exists_held_of_hold h
  have hlength : (earlier ++ e :: since).length = earlier.length + (since.length + 1) := by
    rw [List.length_append, List.length_cons]
  have hget : (earlier ++ e :: since ++ .rang token' (.ok (some m)) timers :: later)[
      (earlier ++ e :: since).length]? = some (.rang token' (.ok (some m)) timers) := by
    rw [List.getElem?_append_right (Nat.le_refl _), Nat.sub_self]
    rfl
  refine ⟨earlier.length, .later (by omega) ?_ hheld hget fun k e' hk hk' hget' ↦ ?_⟩
  · rw [List.append_assoc, List.getElem?_append_right (Nat.le_refl _), Nat.sub_self]
    rfl
  · obtain ⟨k, rfl⟩ := Nat.exists_eq_add_of_lt hk
    rw [List.getElem?_append_left hk', Nat.add_assoc, List.getElem?_append_right (by omega),
      Nat.add_sub_cancel_left, List.getElem?_cons_succ] at hget'
    exact hsince e' (List.mem_of_getElem? hget')

section

variable {events : List Event} {i j j' : Nat}

theorem Passes.le (h : Passes events i j) : i ≤ j := by
  cases h with
  | atOnce => exact Nat.le_refl i
  | later hlt => exact Nat.le_of_lt hlt

theorem Passes.not_lt (h : Passes events i j) (h' : Passes events i j') : ¬ j < j' := by
  intro hlt
  cases h' with
  | atOnce => exact absurd hlt (Nat.not_lt.2 h.le)
  | later _ hget' hheld _ hquiet =>
    cases h with
    | atOnce hget hpassed =>
      -- what is held does not pass at once
      cases hget.symm.trans hget'
      rename_i outcome _
      cases outcome <;> simp [Event.passed, Event.held] at hpassed hheld
    | later hij _ _ hgo => exact Bool.noConfusion (hquiet j _ hij hlt hgo).2

/-- The message that passes at a place passes nowhere else. -/
theorem Passes.eq (h : Passes events i j) (h' : Passes events i j') : j = j' :=
  Nat.le_antisymm (Nat.not_lt.1 (h'.not_lt h)) (Nat.not_lt.1 (h.not_lt h'))

/-- A message that was offered before a stop has passed before it. -/
theorem Passes.lt_of_stopped (h : Passes events i j) {k : Nat} (hk : events[k]? = some .stopped)
    (hlt : k < j) : k < i := by
  cases h with
  | atOnce => exact hlt
  | later _ hget hheld _ hquiet =>
    rcases Nat.lt_trichotomy k i with h | rfl | h
    · exact h
    · cases hk.symm.trans hget
      cases hheld
    · exact Bool.noConfusion (hquiet k _ h hlt hk).2

end

/-! ## The log is in order -/

variable {s : Throttle} {acts : List Act}

/-- What passes is a message that was offered. -/
theorem exists_passes (hheld : s.held = none) (hpending : s.pending = false) {j : Nat} {e : Event}
    (hget : (s.log acts)[j]? = some e) (hpassed : e.passed.isSome = true) :
    ∃ i, Passes (s.log acts) i j := by
  obtain ⟨hlt, he⟩ := List.getElem?_eq_some_iff.1 hget
  have hlog : s.log acts = (s.log acts).take j ++ e :: (s.log acts).drop (j + 1) := by
    rw [← he, List.getElem_cons_drop, List.take_append_drop]
  obtain ⟨t, t', hdoes, hholding⟩ := exists_does_of_log hheld hpending hlog
  cases e with
  | offered w outcome timers => exact ⟨j, .atOnce hget (hdoes.passed_offered hpassed)⟩
  | rang token result timers =>
    cases hdoes with
    | vain => cases hpassed
    | frees hm =>
      rw [holding_of_held hm] at hholding
      obtain ⟨i, hi⟩ := exists_passes_of_hold hholding.symm
      rw [← hlog, List.length_take_of_le (Nat.le_of_lt hlt)] at hi
      exact ⟨i, hi⟩
  | stopped => cases hpassed

/-- Whatever is done with a throttle, in whatever order, its log is in order, as long as it has not
run out of tokens for timers. -/
theorem orderly_log (rate period : Nat) (mode : ThrottleMode) (acts : List Act)
    (hfew : (tokens (log { rate, period, mode } acts)).length < 0x10000000000000000) :
    Orderly (log { rate, period, mode } acts) where
  offered _ _ hget hpassed := exists_passes rfl rfl hget hpassed
  once _ _ _ h h' := h.eq h'
  latest before token result timers later hlog m := by
    obtain ⟨t, t', hdoes, hholding⟩ := exists_does_of_log rfl rfl hlog
    rw [← hholding]
    exact hdoes.result_iff m
  distinct := nodup_tokens rfl hfew
  single before e later hlog := by
    obtain ⟨t, t', hdoes, hholding⟩ := exists_does_of_log rfl rfl hlog
    rw [← hholding]
    exact hdoes.timers_iff
  forgotten before later i j hlog h hlt := by
    refine h.lt_of_stopped ?_ hlt
    rw [hlog, List.getElem?_append_right (Nat.le_refl _), Nat.sub_self]
    rfl

/-- A message passes, two are held, one after the other, and a made-up token comes before their
timer. Another message is held when the throttle is stopped, and all timers go off after that. -/
def bustle : List Act :=
  let w (text : Bytes) : Wrapper := .ofMessage (.ofRaw "t" text)
  [.offer ⟨0, 0⟩ (w [97]), .offer ⟨1, 0⟩ (w [98]), .offer ⟨2, 0⟩ (w [99]), .ring 3 42,
    .ring 300000 1, .offer ⟨300001, 0⟩ (w [100]), .stop, .ring 600000 1, .ring 600000 2]

theorem orderly_log_bustle :
    (tokens (log { rate := 1, period := 300000, mode := .delay } bustle)).length <
        0x10000000000000000 ∧
      Orderly (log { rate := 1, period := 300000, mode := .delay } bustle) :=
  ⟨by decide, orderly_log 1 300000 .delay bustle (by decide)⟩

end Conduit.Stage.Throttle
