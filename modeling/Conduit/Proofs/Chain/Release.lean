import Conduit.Proofs.Chain.Keeps
import Conduit.Proofs.Pipeline.History
import Conduit.Proofs.Stage.Waiting

/-!
# Going on after a hold

A walk that ends with a held message leaves the message, as the stages before have changed it, with
the stage that it came to last (`Chain.exists_visit_of_held`). When the stage lets it go, a walk of
its own begins behind the stage, with a fresh wrapper that has the metadata of this stage alone. Had
the stage accepted the message at once, the walk would have gone on with all metadata so far, to the
same place unless the stage turns its decisions around (`Chain.goes_on_iff`).
-/

namespace Conduit

open Stage

namespace Chain

variable {σ : Type}

/-! ## Chains with the same ways -/

/-- The chains have stages with the same routing, and the same routes. -/
structure SameWays (c d : Chain σ) : Prop where
  plan : d.plan = c.plan
  routings : d.slots.map (·.routing) = c.slots.map (·.routing)

namespace SameWays

variable {c d : Chain σ}

theorem refl (c : Chain σ) : c.SameWays c := ⟨rfl, rfl⟩

theorem of_alike {e : Chain σ} (h : c.SameWays d) (h' : d.Alike e) : c.SameWays e :=
  ⟨h'.plan.trans h.plan, h'.routings.trans h.routings⟩

theorem route (h : c.SameWays d) (i : Nat) : d.route i = c.route i := by
  rw [Chain.route, Chain.route, h.plan]

theorem routing (h : c.SameWays d) (i : Nat) :
    d.slots[i]?.map (·.routing) = c.slots[i]?.map (·.routing) := by
  rw [← List.getElem?_map, ← List.getElem?_map, h.routings]

variable [Behaviour σ]

theorem keeps (c : Chain σ) : Keeps c.SameWays fun _ ↦ True where
  withPending _ _ h := ⟨h.plan, h.routings⟩
  visit moment d i slot w _ h := ⟨h.of_alike (visit_alike moment d i slot w), trivial⟩

theorem respond (h : c.SameWays d) (x : Input) : c.SameWays (d.respond x).chain := by
  cases x with
  | message patience moment m => exact ((keeps c).process patience moment m h).1
  | alarm patience moment a =>
    exact ((keeps c).expire patience moment a.token
      (fun slot _ ↦ h.of_alike (setStage_alike d a.stage _)) fun _ ↦ h).1

/-- No input changes the ways through a chain. -/
theorem upon (h : c.SameWays d) (xs : List Input) : c.SameWays (d.upon xs) := by
  induction xs generalizing d with
  | nil => exact h
  | cons x xs ih => exact ih (h.respond x)

end SameWays

/-! ## Going on at once -/

/-- Copies for queues change nothing but the names in the wrapper. -/
theorem publications_wrapper (w : Wrapper) (names : List String) :
    (publications w names).2.working = w.working ∧
      (publications w names).2.metadata = w.metadata ∧
      (publications w names).2.accepted = w.accepted := by
  induction names generalizing w with
  | nil => exact ⟨rfl, rfl, rfl⟩
  | cons name rest ih => exact ih { w with redirects := w.redirects.add name }

variable [Behaviour σ]

/-- What follows when the stage in a slot accepts a message that it was shown. -/
def onceAccepted (slot : Slot σ) (r : Route) (i : Nat) (w : Wrapper) : Next :=
  (follow slot r i (.done w.accept)).1

section OnceAccepted

variable {slot : Slot σ} {r : Route} {i : Nat} {w : Wrapper}

theorem onceAccepted_eq_branch (slot : Slot σ) (r : Route) (i : Nat) (w : Wrapper) :
    ∃ w', onceAccepted slot r i w = r.branch i w' ∧ w'.working = w.working ∧
      w'.metadata = w.metadata ∧ w'.accepted = !slot.routing.negate := by
  let decided := if slot.routing.negate then { w.accept with accepted := !w.accept.accepted }
    else w.accept
  have hdecided : decided.working = w.working ∧ decided.metadata = w.metadata ∧
      decided.accepted = !slot.routing.negate := by
    unfold decided
    cases slot.routing.negate <;> exact ⟨rfl, rfl, rfl⟩
  obtain ⟨hworking, hmetadata, haccepted⟩ := publications_wrapper decided slot.routing.redirect
  exact ⟨_, rfl, hworking.trans hdecided.1, hmetadata.trans hdecided.2.1,
    haccepted.trans hdecided.2.2⟩

theorem wrapper_of_onceAccepted {j : Nat} {w' : Wrapper} (h : onceAccepted slot r i w = .go j w') :
    w'.working = w.working ∧ w'.metadata = w.metadata := by
  obtain ⟨u, hu, hworking, hmetadata, -⟩ := onceAccepted_eq_branch slot r i w
  rw [hu, Route.branch] at h
  split at h
  · cases h
    exact ⟨hworking, hmetadata⟩
  · split at h
    · cases h
      exact ⟨hworking, hmetadata⟩
    · cases h

/-- An accepted message goes on behind the stage, unless the stage turns its decisions around. -/
theorem exists_onceAccepted_iff :
    (∃ w', onceAccepted slot r i w = .go (r.onward i) w') ↔
      slot.routing.negate = false ∨ r.rejected = some (r.onward i) := by
  obtain ⟨u, hu, -, -, haccepted⟩ := onceAccepted_eq_branch slot r i w
  rw [hu, Route.branch, haccepted]
  cases slot.routing.negate with
  | false => simp
  | true =>
    cases r.rejected with
    | none => simp
    | some target => simp

end OnceAccepted

/-- The definition says what a visit leads to at which the stage does accept. -/
theorem next_visit_of_accept {moment : Moment} {c : Chain σ} {i : Nat} {slot : Slot σ} {w : Wrapper}
    (hm : meets slot.routing.expect w.working = .ok ())
    (h : (Behaviour.process moment slot.stage (w.mergeMetadata slot.routing.metadata)).outcome =
      .done (w.mergeMetadata slot.routing.metadata).accept) :
    (visit moment c i slot w).visit.next =
      onceAccepted slot (c.route i) i (visit moment c i slot w).visit.entered := by
  have hm' : meets slot.routing.expect (w.mergeMetadata slot.routing.metadata).working = .ok () :=
    hm
  simp only [visit, hm', h, onceAccepted]

/-! ## Where a held message stays -/

section Held

variable {c : Chain Builtin}

/-- A visit that ends with a held message leaves it with the stage. -/
theorem exists_slot_of_held {moment : Moment} {i : Nat} {slot : Slot Builtin} {w : Wrapper}
    (hs : c.slots[i]? = some slot) (hn : (visit moment c i slot w).visit.next = .done .held) :
    ∃ slot', (visit moment c i slot w).chain.slots[i]? = some slot' ∧
      slot'.stage.held = some (visit moment c i slot w).visit.entered.working ∧
      slot'.stage.delays = true := by
  unfold visit at hn ⊢
  dsimp only at hn ⊢
  split at hn
  · cases hn
  · obtain ⟨w', ho⟩ := hold_of_follow_held hn
    obtain ⟨hheld, hdelays⟩ := Builtin.held_of_hold ho
    exact ⟨_, slot_setStage hs _, hheld, hdelays⟩

/-- A walk that ends with a held message leaves it with the stage that it came to last. -/
theorem exists_visit_of_held {moment : Moment} {hops i : Nat} {w : Wrapper}
    (h : (walkFrom moment hops c i w).ending = .held) :
    ∃ v slot, (walkFrom moment hops c i w).visits.getLast? = some v ∧ v.next = .done .held ∧
      (walkFrom moment hops c i w).chain.slots[v.stage]? = some slot ∧
      slot.stage.held = some v.entered.working ∧ slot.stage.delays = true := by
  fun_induction walkFrom moment hops c i w with
  | case1 _ _ _ _ w _ => cases hw : w.accepted <;> simp [hw] at h
  | case2 => cases h
  | case3 moment c i w slot hs hops s ending hn =>
    obtain rfl : ending = .held := h
    obtain ⟨slot', hs', hheld, hdelays⟩ := exists_slot_of_held hs hn
    exact ⟨s.visit, slot', rfl, hn, by rwa [stage_visit], hheld, hdelays⟩
  | case4 moment c i w slot hs hops s j w' hn rest ih =>
    obtain ⟨v, slot', hlast, hv⟩ := ih h
    refine ⟨v, slot', ?_, hv⟩
    rw [List.getLast?_cons, hlast]
    rfl

end Held

/-! ## Going on later -/

/-- The wrapper with which a message goes on that the stage in a slot lets go. -/
def released (slot : Slot σ) (m : Message) : Wrapper :=
  (Wrapper.ofMessage m).mergeMetadata slot.routing.metadata

theorem expire_of_none {e : Chain σ} {patience : Nat} {moment : Moment} {i : Nat} {token : UInt64}
    {slot : Slot σ} (hs : e.slots[i]? = some slot)
    (hr : (Behaviour.expire moment.now slot.stage token).result = .ok none) :
    let told := e.setStage i (Behaviour.expire moment.now slot.stage token).state
    e.expire patience moment i token =
      Call.drain moment.clock patience { chain := told, fresh := moment.fresh } := by
  rw [expire, hs]
  dsimp only
  rw [hr]
  rfl

/-- The call that begins when a stage lets a message go. -/
theorem expire_of_release {e : Chain σ} {patience : Nat} {moment : Moment} {i : Nat}
    {token : UInt64} {slot : Slot σ} {m : Message} (hs : e.slots[i]? = some slot)
    (hr : (Behaviour.expire moment.now slot.stage token).result = .ok (some m)) :
    let told := e.setStage i (Behaviour.expire moment.now slot.stage token).state
    e.expire patience moment i token =
      (Call.send moment.clock { chain := told, fresh := moment.fresh } ((e.route i).onward i)
        (released slot m)).andThen (Call.drain moment.clock patience) := by
  rw [expire, hs]
  dsimp only
  rw [hr]
  rfl

/-- A walk that ends with a held message comes last to a throttle in delay mode, which holds the
working message as it was shown. Whatever the chain is shown meanwhile does not change its ways. If
the throttle then lets this message go, a walk begins behind it with the same working message, and
with the metadata of the throttle alone. This is how the walk would have gone on, had the throttle
accepted the message at once, if and only if the throttle does not turn its decisions around (or
rejected messages go to the same place), and the metadata merged so far are those of the throttle
alone. -/
theorem goes_on_iff {c : Chain Builtin} {moment : Moment} {i : Nat} {w : Wrapper}
    (h : (c.walk moment i w).ending = .held) :
    ∃ v slot, (c.walk moment i w).visits.getLast? = some v ∧ v.next = .done .held ∧
      (c.walk moment i w).chain.slots[v.stage]? = some slot ∧ slot.stage.delays = true ∧
      slot.stage.held = some v.entered.working ∧
      (∀ families xs, c.SameWays (((c.walk moment i w).chain.withPending families).upon xs)) ∧
      ∀ e, c.SameWays e → ∀ patience later token slot', e.slots[v.stage]? = some slot' →
        (Behaviour.expire later.now slot'.stage token).result = .ok (some v.entered.working) →
        let place := (c.route v.stage).onward v.stage
        let again := released slot v.entered.working
        let told := e.setStage v.stage (Behaviour.expire later.now slot'.stage token).state
        e.expire patience later v.stage token =
            (Call.send later.clock { chain := told, fresh := later.fresh } place again).andThen
              (Call.drain later.clock patience) ∧
          again.working = v.entered.working ∧
          ((∃ w', onceAccepted slot (c.route v.stage) v.stage v.entered = .go place w' ∧
              w'.working = again.working ∧ w'.metadata = again.metadata) ↔
            (slot.routing.negate = false ∨ (c.route v.stage).rejected = some place) ∧
              v.entered.metadata = again.metadata) := by
  obtain ⟨v, slot, hlast, hnext, hslot, hheld, hdelays⟩ := exists_visit_of_held h
  have hslot : (c.walk moment i w).chain.slots[v.stage]? = some slot := hslot
  have hways : c.SameWays (c.walk moment i w).chain :=
    (SameWays.refl c).of_alike (walkFrom_alike moment c.hopLimit c i w)
  refine ⟨v, slot, hlast, hnext, hslot, hdelays, hheld, fun families xs ↦ ?_, ?_⟩
  · exact SameWays.upon (d := (c.walk moment i w).chain.withPending families)
      ⟨hways.plan, hways.routings⟩ xs
  · intro e he patience later token slot' hs' hr place again told
    -- the stage may have another state by now, but its routing is the one that the walk met
    have hrouting : slot'.routing = slot.routing := by
      have := (he.routing v.stage).trans (hways.routing v.stage).symm
      rw [hs', hslot] at this
      exact Option.some.inj this
    have hagain : released slot' v.entered.working = again := by
      rw [released, hrouting]
      rfl
    refine ⟨?_, rfl, ?_, ?_⟩
    · rw [expire_of_release hs' hr, he.route, hagain]
    · rintro ⟨w', hgo, -, hmetadata⟩
      refine ⟨exists_onceAccepted_iff.1 ⟨w', hgo⟩, ?_⟩
      rw [← (wrapper_of_onceAccepted hgo).2, hmetadata]
    · rintro ⟨hplace, hmetadata⟩
      obtain ⟨w', hgo⟩ := exists_onceAccepted_iff.2 hplace
      obtain ⟨hworking, hmetadata'⟩ := wrapper_of_onceAccepted hgo
      exact ⟨w', hgo, hworking, hmetadata'.trans hmetadata⟩

/-! ## A throttle by itself, and one behind another stage -/

/-- A throttle that lets one message through at a time. -/
def pace : Throttle where
  rate := 1
  period := 5
  mode := .delay

/-- A throttle by itself, with metadata of its own. -/
def paced : Chain Builtin where
  id := "paced"
  slots := [⟨{ metadata := [("lane", .bool true)] }, .throttle pace⟩]
  plan := { routes := [{}] }

/-- A throttle behind a stage that merges metadata. -/
def taggedPaced : Chain Builtin where
  id := "tagged"
  slots := [⟨{ metadata := [("site", .string "north")] }, .pass {}⟩, ⟨{}, .throttle pace⟩]
  plan := { routes := [{}, {}] }

/-- Behind a throttle by itself, a second message goes on later as it would have gone on at once. -/
theorem goes_on_paced :
    let c := (paced.process 9 ⟨0, 0⟩ (.ofRaw "t" [1])).chain
    let walk := c.walk ⟨0, 0⟩ 0 (.ofMessage (.ofRaw "t" [2]))
    walk.ending = .held ∧ ∃ (v : Visit) (slot : Slot Builtin) (w' : Wrapper),
      walk.visits.getLast? = some v ∧ walk.chain.slots[0]? = some slot ∧
        (Behaviour.expire 5 slot.stage 1).result = .ok (some v.entered.working) ∧
        onceAccepted slot (c.route 0) 0 v.entered = .go ((c.route 0).onward 0) w' ∧
        w'.working = (released slot v.entered.working).working ∧
        w'.metadata = (released slot v.entered.working).metadata := by
  intro c walk
  have hheld : walk.ending = .held := by decide +kernel
  obtain ⟨v, slot, hlast, -, hslot, -, -, -, hgo⟩ := goes_on_iff hheld
  have hv : walk.visits.getLast?.map (fun v ↦ (v.stage, v.entered.working, v.entered.metadata)) =
      some (0, .ofRaw "t" [2], .object [("lane", .bool true)]) := by decide +kernel
  have hlast' : walk.visits.getLast? = some v := hlast
  rw [hlast', Option.map_some, Option.some.injEq, Prod.mk.injEq, Prod.mk.injEq] at hv
  obtain ⟨hstage, hworking, hmetadata⟩ := hv
  rw [hstage] at hslot hgo
  have hslot' : walk.chain.slots[0]?.map (·.routing) =
      some { metadata := [("lane", .bool true)] } := by decide +kernel
  have hresult : walk.chain.slots[0]?.map (fun slot ↦ (Behaviour.expire 5 slot.stage 1).result) =
      some (.ok (some (.ofRaw "t" [2]))) := by rfl
  have hs : walk.chain.slots[0]? = some slot := hslot
  rw [hs, Option.map_some, Option.some.injEq] at hslot' hresult
  rw [← hworking] at hresult
  have hways : c.SameWays walk.chain := (SameWays.refl c).of_alike (walkFrom_alike _ _ c _ _)
  obtain ⟨-, -, hiff⟩ := hgo walk.chain hways 9 ⟨5, 0⟩ 1 slot hs hresult
  obtain ⟨w', hw'⟩ := hiff.2 ⟨.inl (by rw [hslot']), by rw [hmetadata, released, hslot']; rfl⟩
  exact ⟨hheld, v, slot, w', hlast, hs, hresult, hw'⟩

/-- Behind another stage, it goes on without the metadata that it would have had. -/
theorem taggedPaced_forgets :
    let c := (taggedPaced.process 9 ⟨0, 0⟩ (.ofRaw "t" [1])).chain
    (taggedPaced.process 9 ⟨0, 0⟩ (.ofRaw "t" [2])).output.delivered.map (·.metadata) =
        [.object [("site", .string "north")]] ∧
      (c.process 9 ⟨0, 0⟩ (.ofRaw "t" [2])).output.held = 1 ∧
      ((c.process 9 ⟨0, 0⟩ (.ofRaw "t" [2])).chain.expire 9 ⟨5, 0⟩ 1 1).output.delivered.map
        (fun w ↦ (w.working, w.metadata)) = [(.ofRaw "t" [2], .object [])] := by
  decide +kernel

end Chain

end Conduit
