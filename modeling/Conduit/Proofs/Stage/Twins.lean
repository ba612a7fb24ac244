import Conduit.Proofs.Message.Twins
import Conduit.Proofs.Stage.Waiting

/-!
# Stages in step

No stage but a script looks at the names of pieces or at the numbers of its timers. So a stage that
is shown twins decides about them in the same way, and two throttles that differ in how many timers
they have set, and in the names in what they hold, go on like that (`Builtin.twin_process`,
`Builtin.twin_expire`).
-/

namespace Conduit

open Stage

variable {ρ : String → String → Prop} {w w' : Wrapper}

/-- The same decision about twins. -/
inductive Stage.Outcome.Twin (ρ : String → String → Prop) : Outcome → Outcome → Prop
  | done {w w' : Wrapper} (h : w.Twin ρ w') : Twin ρ (.done w) (.done w')
  | generate {w w' : Wrapper} {pieces pieces' : List Message} (h : w.Twin ρ w')
      (hp : List.Forall₂ (Message.Twin ρ) pieces pieces') :
    Twin ρ (.generate w pieces) (.generate w' pieces')
  | hold {w w' : Wrapper} (h : w.Twin ρ w') : Twin ρ (.hold w) (.hold w')
  | failed (e : PipelineError) : Twin ρ (.failed e) (.failed e)
  | crashed : Twin ρ .crashed .crashed

theorem Wrapper.Twin.document? (h : w.Twin ρ w') :
    w.working.document? = w'.working.document? := by
  unfold Message.document?
  rw [h.working.asDocument]

namespace Stage

/-! ## Stages without a state -/

theorem Comparator.twin_apply (s : Comparator) (h : w.Twin ρ w') :
    (Builtin.outcome (s.apply w)).Twin ρ (Builtin.outcome (s.apply w')) := by
  unfold Comparator.apply
  rw [h.document?]
  cases w'.working.document? with
  | error e => exact .failed e
  | ok doc => exact .done (h.decide _)

theorem Search.twin_apply (s : Search) (h : w.Twin ρ w') : (s.apply w).Twin ρ (s.apply w') := by
  have hfinds : s.finds w.working = s.finds w'.working := by
    unfold Search.finds
    rw [h.working.asBytes, h.working.asDocument, h.working.topic]
  unfold Search.apply
  rw [hfinds]
  exact h.decide _

theorem Limiter.twin_apply (s : Limiter) (h : w.Twin ρ w') : (s.apply w).Twin ρ (s.apply w') := by
  unfold Limiter.apply
  rw [Message.payloadSize, h.working.asBytes]
  exact h.decide _

theorem Eraser.twin_apply (s : Eraser) (h : w.Twin ρ w') :
    (Builtin.outcome (s.apply w)).Twin ρ (Builtin.outcome (s.apply w')) := by
  unfold Eraser.apply
  rw [h.document?]
  cases w'.working.document? with
  | error e => exact .failed e
  | ok doc =>
    change (Outcome.done _).Twin ρ (.done _)
    cases erase? doc s.keys with
    | some less => exact .done ((h.rework (h.working.withDocument less)).decide true)
    | none => exact .done (h.decide true)

/-- Twins that are given the same document, and the same topic if any. -/
theorem twin_built (h : w.Twin ρ w') (value : Value) (topic : Option String) (f : String → String) :
    ({ w with
      working := match topic with
        | some topic => (w.working.withDocument value).withTopic (f topic)
        | none => w.working.withDocument value } : Wrapper).accept.Twin ρ
      ({ w' with
        working := match topic with
          | some topic => (w'.working.withDocument value).withTopic (f topic)
          | none => w'.working.withDocument value } : Wrapper).accept := by
  have hworking := h.working.withDocument value
  cases topic with
  | none => exact (h.rework hworking).decide true
  | some topic => exact (h.rework (hworking.withTopic (f topic))).decide true

theorem Builder.twin_apply (s : Builder) (h : w.Twin ρ w') :
    (Builtin.outcome (s.apply w)).Twin ρ (Builtin.outcome (s.apply w')) := by
  obtain ⟨incoming, working, accepted, redirects, metadata⟩ := w
  obtain rfl : metadata = w'.metadata := h.metadata
  unfold Builder.apply
  rw [h.document?, h.working.asDocument]
  by_cases hmerge : s.merge = true
  · rw [if_pos hmerge, if_pos hmerge]
    cases w'.working.document? with
    | error e => exact .failed e
    | ok doc => exact .done (twin_built h _ s.topic _)
  · rw [if_neg hmerge, if_neg hmerge]
    exact .done (twin_built h _ s.topic _)

theorem Image.twin_process (s : Image) (h : w.Twin ρ w') : (s.process w).Twin ρ (s.process w') := by
  unfold Image.process
  rw [picture?, h.working.asBytes, ← picture?]
  cases picture? w' with
  | none => exact .failed _
  | some r =>
    dsimp only
    split
    · exact .crashed
    · cases encode (s.transform r) (s.target w'.working.asBytes) with
      | error e => exact .failed e
      | ok file => exact .done ((h.rework (h.working.withRaw file)).decide true)

/-! ## The splitter -/

theorem Splitter.twin_tagged {name name' : String} (hname : ρ name name') (pieces : List Message) :
    List.Forall₂ (Message.Twin ρ) (tagged name pieces) (tagged name' pieces) := by
  refine List.forall₂_map_left_iff.2 (List.forall₂_map_right_iff.2 (List.forall₂_same.2 ?_))
  exact fun p _ ↦ ⟨rfl, rfl, .some ⟨hname, rfl, rfl⟩⟩

/-- A splitter cuts twins into the same pieces, under names that correspond. -/
theorem Splitter.twin_process (s : Splitter) (clock : Clock) {fresh fresh' : Nat}
    (hname : ρ (familyName fresh) (familyName fresh')) (h : w.Twin ρ w') :
    (s.process ⟨clock, fresh⟩ w).outcome.Twin ρ (s.process ⟨clock, fresh'⟩ w').outcome ∧
      (s.process ⟨clock, fresh⟩ w).named = (s.process ⟨clock, fresh'⟩ w').named := by
  have hbytes : s.splitBytes w.working = s.splitBytes w'.working := by
    unfold splitBytes
    rw [h.working.asBytes, h.working.topic]
  have harray : s.splitArray w.working = s.splitArray w'.working := by
    unfold splitArray
    rw [h.document?, h.working.topic]
  unfold Splitter.process split
  cases s.mode with
  | bytes =>
    rw [hbytes]
    exact ⟨.generate h (twin_tagged hname _), rfl⟩
  | array =>
    dsimp only
    rw [harray]
    cases s.splitArray w'.working with
    | error e => exact ⟨.failed e, rfl⟩
    | ok pieces => exact ⟨.generate h (twin_tagged hname _), rfl⟩

/-! ## Answers -/

/-- The timer with a number that is higher by an offset. -/
def Timer.shift (offset : UInt64) (t : Timer) : Timer := { t with token := t.token + offset }

/-- The same answer, with timers whose numbers differ by an offset. -/
structure Response.Twin (ρ : String → String → Prop) (offset : UInt64) {σ : Type}
    (R : σ → σ → Prop) (r r' : Response σ) : Prop where
  state : R r.state r'.state
  outcome : r.outcome.Twin ρ r'.outcome
  timers : r.timers = r'.timers.map (Timer.shift offset)
  named : r.named = r'.named

/-- The same message is let go, if any. -/
structure Release.Twin (ρ : String → String → Prop) {σ : Type} (R : σ → σ → Prop)
    (r r' : Release σ) : Prop where
  state : R r.state r'.state
  result : ∃ m m', r.result = .ok m ∧ r'.result = .ok m' ∧ Option.Rel (Message.Twin ρ) m m'

/-! ## The throttle -/

namespace Throttle

/-- The throttles differ in the names in what they hold, and in how many timers they have set. -/
def Twin (ρ : String → String → Prop) (offset : UInt64) (s s' : Throttle) : Prop :=
  ∃ held, s = { s' with held, token := s'.token + offset } ∧
    Option.Rel (Message.Twin ρ) held s'.held

variable {offset : UInt64} {s s' : Throttle}

theorem Twin.roll (h : s.Twin ρ offset s') (now : Instant) :
    (s.roll now).Twin ρ offset (s'.roll now) := by
  obtain ⟨held, rfl, hheld⟩ := h
  unfold Throttle.roll
  rw [show ({ s' with held, token := s'.token + offset } : Throttle).isOpen now = s'.isOpen now
    from rfl]
  split
  · exact ⟨held, rfl, hheld⟩
  · exact ⟨held, rfl, hheld⟩

/-- The numbers of the next timers differ by the offset, too. -/
theorem next_token (token offset : UInt64) : token + offset + 1 = token + 1 + offset := by
  rw [UInt64.add_assoc, UInt64.add_comm offset 1, ← UInt64.add_assoc]

theorem Twin.process (h : s.Twin ρ offset s') (hw : w.Twin ρ w') (clock : Clock)
    (fresh fresh' : Nat) :
    (s.process ⟨clock, fresh⟩ w).Twin ρ offset (Twin ρ offset) (s'.process ⟨clock, fresh'⟩ w') := by
  obtain ⟨held, hroll, hheld⟩ := h.roll clock.now
  unfold Throttle.process
  dsimp only [Moment.now_mk]
  rw [hroll]
  generalize s'.roll clock.now = t at hheld
  obtain ⟨rate, period, mode, opened, count, held', token, pending⟩ := t
  dsimp only
  by_cases hroom : count < rate
  · rw [if_pos hroom, if_pos hroom]
    exact ⟨⟨held, rfl, hheld⟩, .done (hw.decide true), rfl, rfl⟩
  · rw [if_neg hroom, if_neg hroom]
    cases mode with
    | drop => exact ⟨⟨held, rfl, hheld⟩, .done (hw.decide false), rfl, rfl⟩
    | delay =>
      cases pending with
      | true => exact ⟨⟨_, rfl, .some hw.working⟩, .hold (hw.decide false), rfl, rfl⟩
      | false =>
        rw [next_token]
        exact ⟨⟨_, rfl, .some hw.working⟩, .hold (hw.decide false), rfl, rfl⟩

theorem Twin.expire (h : s.Twin ρ offset s') (now : Instant) (token : UInt64) :
    (s.expire now (token + offset)).Twin ρ (Twin ρ offset) (s'.expire now token) := by
  obtain ⟨held, rfl, hheld⟩ := h
  obtain ⟨rate, period, mode, opened, count, held', token', pending⟩ := s'
  unfold Throttle.expire
  dsimp only at hheld ⊢
  by_cases ht : token = token'
  · subst ht
    rw [if_neg (not_not.2 rfl), if_neg (not_not.2 rfl)]
    cases hheld with
    | none => exact ⟨⟨none, rfl, .none⟩, none, none, rfl, rfl, .none⟩
    | some hm =>
      have hempty : (⟨rate, period, mode, opened, count, none, token + offset, false⟩ :
          Throttle).Twin ρ offset ⟨rate, period, mode, opened, count, none, token, false⟩ :=
        ⟨none, rfl, .none⟩
      obtain ⟨held, hroll, hheld⟩ := hempty.roll now
      exact ⟨⟨held, by rw [hroll], hheld⟩, _, _, rfl, rfl, .some hm⟩
  · rw [if_pos ht, if_pos fun he ↦ ht ((UInt64.add_left_inj offset).1 he)]
    exact ⟨⟨held, rfl, hheld⟩, none, none, rfl, rfl, .none⟩

end Throttle

/-! ## Stages of all kinds -/

namespace Builtin

/-- Whether the stage has no state. -/
def IsStill (s : Builtin) : Prop := s.kind ≠ .throttle ∧ s.kind ≠ .script

/-- The same stage, or throttles that differ in names and numbers. -/
inductive Twin (ρ : String → String → Prop) (offset : UInt64) : Builtin → Builtin → Prop
  | throttle {s s' : Throttle} (h : s.Twin ρ offset s') : Twin ρ offset (.throttle s) (.throttle s')
  | still {s : Builtin} (h : s.IsStill) : Twin ρ offset s s

variable {offset : UInt64} {s s' : Builtin}

theorem Twin.kind (h : s.Twin ρ offset s') : s.kind = s'.kind := by
  cases h <;> rfl

/-- Stages in step are shown twins, and stay in step. -/
theorem twin_process {clock : Clock} {fresh fresh' : Nat}
    (hname : ρ (Splitter.familyName fresh) (Splitter.familyName fresh'))
    (h : s.Twin ρ offset s') (hw : w.Twin ρ w') :
    (Behaviour.process ⟨clock, fresh⟩ s w).Twin ρ offset (Twin ρ offset)
      (Behaviour.process ⟨clock, fresh'⟩ s' w') := by
  cases h with
  | throttle h =>
    obtain ⟨hs, ho, ht, hn⟩ := h.process hw clock fresh fresh'
    exact ⟨.throttle hs, ho, ht, hn⟩
  | still hstill =>
    cases s with
    | comparator c => exact ⟨.still hstill, c.twin_apply hw, rfl, rfl⟩
    | search c => exact ⟨.still hstill, .done (c.twin_apply hw), rfl, rfl⟩
    | eraser c => exact ⟨.still hstill, c.twin_apply hw, rfl, rfl⟩
    | builder c => exact ⟨.still hstill, c.twin_apply hw, rfl, rfl⟩
    | limiter c => exact ⟨.still hstill, .done (c.twin_apply hw), rfl, rfl⟩
    | throttle c => exact absurd rfl hstill.1
    | splitter c =>
      obtain ⟨ho, hn⟩ := c.twin_process clock hname hw
      have hs (fresh : Nat) (w : Wrapper) : (c.process ⟨clock, fresh⟩ w).state = c := by
        unfold Splitter.process
        split <;> rfl
      refine ⟨?_, ho, ?_, hn⟩
      · change (Builtin.splitter _).Twin ρ offset (.splitter _)
        rw [hs, hs]
        exact .still hstill
      · exact (c.timers_process ⟨clock, fresh⟩ w).trans
          (congrArg (List.map (Timer.shift offset)) (c.timers_process ⟨clock, fresh'⟩ w')).symm
    | pass c => exact ⟨.still hstill, .done (hw.decide true), rfl, rfl⟩
    | script c => exact absurd rfl hstill.2
    | image c => exact ⟨.still hstill, c.twin_process hw, rfl, rfl⟩

/-- Stages in step are told of the same timer, and stay in step. -/
theorem twin_expire (h : s.Twin ρ offset s') (now : Instant) (token : UInt64) :
    (Behaviour.expire now s (token + offset)).Twin ρ (Twin ρ offset)
      (Behaviour.expire now s' token) := by
  cases h with
  | throttle h =>
    obtain ⟨hs, hr⟩ := h.expire now token
    exact ⟨.throttle hs, hr⟩
  | still hstill =>
    cases s with
    | throttle c => exact absurd rfl hstill.1
    | _ => exact ⟨.still hstill, none, none, rfl, rfl, .none⟩

end Builtin

end Stage

end Conduit
