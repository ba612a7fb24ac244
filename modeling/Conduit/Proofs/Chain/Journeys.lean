import Conduit.Proofs.Chain.Balance
import Conduit.Proofs.Chain.Throttled

/-!
# Journeys

A message enters a chain, as an input or as a piece of one, and walks. A throttle may hold it back;
then it goes on from there when it is let go, in a chain that has gone through other things since,
with a walk of its own. A journey is made of these walks (`Message.SetsOut`), and the message arrives
where one of them delivers (`Message.Arrives`).

Whatever a chain delivers, in the course of whatever inputs, is where a journey arrives that began
with an input or with a piece of a family that was made on the way (`Chain.exists_source`).
-/

namespace Conduit

open Stage

/-- The message is about to walk, for the first time or again after a hold. -/
inductive Message.SetsOut (m : Message) : Chain Builtin → Moment → Nat → Wrapper → Prop
  | enters (c : Chain Builtin) (moment : Moment) (i : Nat) : SetsOut m c moment i (.ofMessage m)
  /-- The stage that was visited last lets the message go that it was shown. -/
  | released {c d : Chain Builtin} {moment later : Moment} {i : Nat} {w : Wrapper} {v : Visit}
      {slot : Slot Builtin} {token : UInt64} : SetsOut m c moment i w →
      (c.walk moment i w).ending = .held → (c.walk moment i w).visits.getLast? = some v →
      d.slots[v.stage]? = some slot →
      (Behaviour.expire later.now slot.stage token).result = .ok (some v.entered.working) →
      SetsOut m (d.setStage v.stage (Behaviour.expire later.now slot.stage token).state)
        (later.next 0) ((d.route v.stage).onward v.stage) (Chain.released slot v.entered.working)

namespace Message

/-- The message is held at a place, as the message that it has become. -/
def Waits (m : Message) (i : Nat) (now : Message) : Prop :=
  ∃ c moment j w v, m.SetsOut c moment j w ∧ (c.walk moment j w).ending = .held ∧
    (c.walk moment j w).visits.getLast? = some v ∧ v.stage = i ∧ v.entered.working = now

/-- The message comes to be delivered. -/
def Arrives (m : Message) (w : Wrapper) : Prop :=
  ∃ c moment i u, m.SetsOut c moment i u ∧ (c.walk moment i u).ending = .delivered w

end Message

/-! ## What walks leave held -/

namespace Chain

variable {c : Chain Builtin} {i j : Nat} {slot : Slot Builtin} {m : Message}

theorem heldAt_setStage_of_ne (h : j ≠ i) (s : Builtin) : (c.setStage i s).heldAt j = c.heldAt j := by
  simp [heldAt, setStage, Ne.symm h]

/-- What is held after a walk was held before, or the walk has ended with it: only the visit that
holds a message changes what is held, and it is the last one. -/
theorem heldAt_walkFrom {moment : Moment} {hops : Nat} {w : Wrapper}
    (h : (walkFrom moment hops c i w).chain.heldAt j = some m) :
    c.heldAt j = some m ∨ (walkFrom moment hops c i w).ending = .held ∧
      ∃ v, (walkFrom moment hops c i w).visits.getLast? = some v ∧ v.stage = j ∧
        v.entered.working = m := by
  fun_induction walkFrom moment hops c i w with
  | case1 => exact .inl h
  | case2 => exact .inl h
  | case3 moment c i w slot hs hops s ending hn =>
    by_cases he : ending = .held
    · subst he
      by_cases hj : j = i
      · subst hj
        obtain ⟨slot', hs', hheld, -⟩ := exists_slot_of_held hs hn
        have hm : s.chain.heldAt j = some s.visit.entered.working :=
          (heldAt_of_slot hs').trans hheld
        exact .inr ⟨rfl, s.visit, rfl, stage_visit .., Option.some.inj (hm.symm.trans h)⟩
      · left
        have h : s.chain.heldAt j = some m := h
        rcases chain_visit moment c i slot w with hchain | hchain
        · rwa [show s.chain = c from hchain] at h
        · rwa [show s.chain = _ from hchain, heldAt_setStage_of_ne hj] at h
    · have hne : s.visit.next ≠ .done .held := by
        rw [hn]
        exact fun h ↦ he (Next.done.inj h)
      have h : s.chain.heldAt j = some m := h
      rw [(heldAt_visit moment hs w hne).1] at h
      exact .inl h
  | case4 moment c i w slot hs hops s k w' hn rest ih =>
    have hne : s.visit.next ≠ .done .held := fun h ↦ by cases hn.symm.trans h
    rcases ih h with h | ⟨he, v, hlast, hv⟩
    · rw [(heldAt_visit moment hs w hne).1] at h
      exact .inl h
    · refine .inr ⟨he, v, ?_, hv⟩
      rw [List.getLast?_cons, hlast]
      rfl

/-- A stage that is told of a timer holds nothing new. -/
theorem heldAt_told {now : Instant} {token : UInt64} (hs : c.slots[i]? = some slot)
    (h : (c.setStage i (Behaviour.expire now slot.stage token).state).heldAt j = some m) :
    c.heldAt j = some m := by
  by_cases hj : j = i
  · subst hj
    rw [heldAt_of_slot (slot_setStage hs _)] at h
    rw [heldAt_of_slot hs]
    rcases Builtin.expire_cases now slot.stage token with ⟨-, hheld⟩ | ⟨-, -, -, hheld⟩
    · rwa [hheld] at h
    · cases hheld.symm.trans h
  · rwa [heldAt_setStage_of_ne hj] at h

end Chain

/-! ## Where messages come from -/

namespace Call

/-- All pieces that were made in the course of the call. -/
def pieces (c : Call Builtin) : List Message := c.families.flatMap (·.pieces)

/-- All that is pending, held or delivered comes from some messages or from pieces made in the
course of the call. -/
structure Traced (sources : List Message) (c : Call Builtin) : Prop where
  pending : ∀ g ∈ c.chain.pending, ∀ m ∈ g.pieces, m ∈ sources ++ c.pieces
  held : ∀ i now, c.chain.heldAt i = some now → ∃ m ∈ sources ++ c.pieces, m.Waits i now
  delivered : ∀ w ∈ c.output.delivered, ∃ m ∈ sources ++ c.pieces, m.Arrives w

namespace Traced

variable {sources : List Message} {c : Call Builtin} {clock : Clock}

theorem send (h : c.Traced sources) {i : Nat} {w : Wrapper} {m : Message}
    (hm : m ∈ sources ++ c.pieces) (hsets : m.SetsOut c.chain (c.moment clock) i w) :
    (c.send clock i w).Traced sources := by
  have hpieces : (c.send clock i w).pieces =
      c.pieces ++ (pendingOf (c.walk clock i w).ending).flatMap (·.pieces) := by
    rw [pieces, families_send, List.flatMap_append]
    rfl
  have hsub : ∀ m ∈ sources ++ c.pieces, m ∈ sources ++ (c.send clock i w).pieces := by
    rw [hpieces, ← List.append_assoc]
    exact fun m hm ↦ List.mem_append_left _ hm
  constructor
  · intro g hg m hm
    rcases List.mem_append.1 hg with hg | hg
    · rw [hpieces]
      exact List.mem_append_right _ (List.mem_append_right _ (List.mem_flatMap.2 ⟨g, hg, hm⟩))
    · rw [Chain.pending_walk] at hg
      exact hsub m (h.pending g hg m hm)
  · intro j held hheld
    rcases Chain.heldAt_walkFrom hheld with hheld | ⟨he, v, hlast, hv⟩
    · obtain ⟨m, hm, hwaits⟩ := h.held j held hheld
      exact ⟨m, hsub m hm, hwaits⟩
    · exact ⟨m, hsub m hm, c.chain, c.moment clock, i, w, v, hsets, he, hlast, hv⟩
  · intro w' hw'
    rcases List.mem_append.1 hw' with hw' | hw'
    · obtain ⟨m, hm, harrives⟩ := h.delivered w' hw'
      exact ⟨m, hsub m hm, harrives⟩
    · refine ⟨m, hsub m hm, c.chain, c.moment clock, i, w, hsets, ?_⟩
      cases he : (c.chain.walk (c.moment clock) i w).ending with
      | delivered u =>
        rw [he] at hw'
        rw [List.mem_singleton.1 hw']
      | _ =>
        rw [he] at hw'
        cases hw'

theorem andThen (h : c.Traced sources) {f : Call Builtin → Call Builtin}
    (hf : ∀ d : Call Builtin, d.Traced sources → (f d).Traced sources) :
    (c.andThen f).Traced sources := by
  unfold Call.andThen
  split
  · exact hf c h
  · exact h

/-- The piece that is taken off the top family is among the sources. -/
theorem pop {i : Nat} {m : Message} {more : List Message} {rest : List Generation}
    (h : c.Traced sources) (hp : c.chain.pending = ⟨i, m :: more⟩ :: rest) :
    m ∈ sources ++ c.pieces ∧ (c.atop (⟨i, more⟩ :: rest)).Traced sources := by
  have hfirst := h.pending ⟨i, m :: more⟩ (hp ▸ List.mem_cons_self)
  refine ⟨hfirst m List.mem_cons_self, ?_, h.held, h.delivered⟩
  intro g hg
  rcases List.mem_cons.1 hg with rfl | hg
  · exact fun m' hm' ↦ hfirst m' (List.mem_cons_of_mem _ hm')
  · exact h.pending g (hp ▸ List.mem_cons_of_mem _ hg)

theorem drain (h : c.Traced sources) (patience : Nat) :
    (Call.drain clock patience c).Traced sources := by
  fun_induction Call.drain clock patience c with
  | case1 c => exact ⟨h.pending, h.held, h.delivered⟩
  | case2 => exact h
  | case3 => exact h
  | case4 patience c i rest hp ih =>
    refine ih ⟨fun g hg ↦ h.pending g ?_, h.held, h.delivered⟩
    rw [hp]
    exact List.mem_cons_of_mem _ hg
  | case5 patience c i m more rest hp popped sent hs ih =>
    -- the piece begins a journey of its own
    obtain ⟨hm, hpopped⟩ := h.pop hp
    exact ih (hpopped.send hm (.enters ..))
  | case6 patience c i m more rest hp popped sent hs =>
    obtain ⟨hm, hpopped⟩ := h.pop hp
    exact hpopped.send hm (.enters ..)

end Traced

end Call

namespace Chain

/-- All that is pending or held comes from some messages. -/
structure Traced (given : List Message) (c : Chain Builtin) : Prop where
  pending : ∀ g ∈ c.pending, ∀ m ∈ g.pieces, m ∈ given
  held : ∀ i now, c.heldAt i = some now → ∃ m ∈ given, m.Waits i now

variable {c : Chain Builtin} {given : List Message}

theorem Empty.traced (h : c.Empty) : c.Traced [] where
  pending g hg := by
    rw [h.pending] at hg
    cases hg
  held i now hheld := by
    obtain ⟨slot, hs, hheld⟩ := Option.bind_eq_some_iff.1 hheld
    cases (h.held slot (List.mem_of_getElem? hs)).symm.trans hheld

namespace Traced

/-- A call leaves its chain with what it had and with the pieces that it has made. -/
theorem closing {call : Call Builtin} (h : call.Traced given) :
    call.chain.Traced (given ++ call.pieces) := ⟨h.pending, h.held⟩

theorem mono (h : c.Traced given) (more : List Message) : c.Traced (given ++ more) where
  pending g hg m hm := List.mem_append_left _ (h.pending g hg m hm)
  held i now hheld := by
    obtain ⟨m, hm, hwaits⟩ := h.held i now hheld
    exact ⟨m, List.mem_append_left _ hm, hwaits⟩

/-- A call begins with what its chain has. -/
theorem opening (h : c.Traced given) (fresh : Nat) :
    ({ chain := c, fresh } : Call Builtin).Traced given where
  pending g hg m hm := List.mem_append_left _ (h.pending g hg m hm)
  held i now hheld := by
    obtain ⟨m, hm, hwaits⟩ := h.held i now hheld
    exact ⟨m, List.mem_append_left _ hm, hwaits⟩
  delivered w hw := absurd hw List.not_mem_nil

/-- What a stage lets go has been on its journey before, and goes on with it. -/
theorem expire (h : c.Traced given) (patience : Nat) (moment : Moment) (i : Nat)
    (token : UInt64) : (c.expire patience moment i token).Traced given := by
  cases hs : c.slots[i]? with
  | none =>
    rw [Chain.expire, hs]
    exact h.opening moment.fresh
  | some slot =>
    have htold : (c.setStage i (Behaviour.expire moment.now slot.stage token).state).Traced given :=
      ⟨h.pending, fun j now hheld ↦ h.held j now (heldAt_told hs hheld)⟩
    rcases Builtin.expire_cases moment.now slot.stage token with ⟨hr, -⟩ | ⟨m, hheld, hr, -⟩
    · rw [expire_of_none hs hr]
      exact (htold.opening moment.fresh).drain patience
    · rw [expire_of_release hs hr]
      obtain ⟨m', hm', d, earlier, j, w, v, hsets, he, hlast, hstage, hnow⟩ :=
        h.held i m ((heldAt_of_slot hs).trans hheld)
      subst hstage hnow
      have hagain := hsets.released he hlast hs hr
      exact ((htold.opening moment.fresh).send (List.mem_append_left _ hm') hagain).andThen
        fun d hd ↦ hd.drain patience

theorem respond (h : c.Traced given) (x : Input) :
    (c.respond x).Traced (given ++ x.message?.toList) := by
  cases x with
  | message patience moment m =>
    have hdrained : (Call.drain moment.clock patience
        { chain := c, fresh := moment.fresh }).Traced (given ++ [m]) :=
      ((h.mono [m]).opening moment.fresh).drain patience
    rw [Chain.respond, process]
    refine hdrained.andThen fun d hd ↦ ?_
    refine (hd.send ?_ (.enters ..)).andThen fun e he ↦ he.drain patience
    exact List.mem_append_left _ (List.mem_append_right _ List.mem_cons_self)
  | alarm patience moment a => exact (h.mono []).expire patience moment a.stage a.token

end Traced

/-- All messages that a chain was given, and all pieces that were made of them. -/
def sources (c : Chain Builtin) (xs : List Input) : List Message :=
  c.gather (fun x call ↦ x.message?.toList ++ call.pieces) xs

theorem Traced.exists_source (h : c.Traced given) (xs : List Input) :
    ∀ w ∈ c.gather (fun _ call ↦ call.output.delivered) xs,
      ∃ m ∈ given ++ c.sources xs, m.Arrives w := by
  induction xs generalizing c given with
  | nil => exact fun w hw ↦ absurd hw List.not_mem_nil
  | cons x xs ih =>
    have hcall := h.respond x
    intro w hw
    rw [sources, gather, ← List.append_assoc, ← List.append_assoc]
    rcases List.mem_append.1 hw with hw | hw
    · obtain ⟨m, hm, harrives⟩ := hcall.delivered w hw
      exact ⟨m, List.mem_append_left _ hm, harrives⟩
    · exact ih (.closing hcall) w hw

/-- Whatever an empty chain delivers, is where a journey arrives of a message that it was given or
of a piece that was made on the way. -/
theorem Empty.exists_source (h : c.Empty) (xs : List Input) {w : Wrapper}
    (hw : w ∈ c.gather (fun _ call ↦ call.output.delivered) xs) :
    ∃ m ∈ c.sources xs, m.Arrives w := h.traced.exists_source xs w hw

end Chain

end Conduit
