import Conduit.Proofs.Chain.Release
import Conduit.Proofs.Chain.Termination
import Conduit.Proofs.Stage.Windows

/-!
# Throttled cycles

A throttle on the cycle of a splitter lets only so many pieces through in a window, so it brings a
call to an end if the call is over within a window. While a call goes on the clock goes on, though,
and each visit reads it. If a window passes in the time of as many rounds as the throttle has
messages for, the throttle never has to reject one, and the call never ends
(`Chain.process_throttled_loop`).
-/

namespace Conduit

open Stage

/-! ## A throttle that is asked at every second reading -/

namespace Stage.Throttle

variable {clock : Clock} {n : Nat} {t : Throttle}

/-- If a window is open, it has let a message through at every second reading of the clock since it
opened, up to the reading that comes next. -/
def Paced (clock : Clock) (n : Nat) (t : Throttle) : Prop :=
  ∀ start, t.opened = some start →
    ∃ a, start = clock.reading a ∧ a + 2 * t.count = n ∧ t.count ≤ t.rate

/-- If windows pass in time, the throttle has room whenever it is asked. -/
theorem Paced.process (h : t.Paced clock n) (hrate : 0 < t.rate)
    (hclock : ∀ n, clock.reading n + t.period ≤ clock.reading (n + 2 * t.rate)) {moment : Moment}
    (hnow : moment.now = clock.reading n) (w : Wrapper) :
    ∃ t', t.process moment w = { state := t', outcome := .done w.accept } ∧
      t'.Paced clock (n + 2) ∧ t'.rate = t.rate ∧ t'.period = t.period := by
  cases hopen : t.isOpen moment.now with
  | false =>
    rw [Throttle.process, roll_of_not_isOpen hopen]
    dsimp only
    rw [if_pos hrate]
    refine ⟨_, rfl, ?_, rfl, rfl⟩
    rintro start ⟨⟩
    exact ⟨n, hnow, rfl, hrate⟩
  | true =>
    obtain ⟨start, hstart, hlt⟩ : ∃ start, t.opened = some start ∧
        moment.now - start < t.period := by
      unfold isOpen at hopen
      split at hopen
      · rename_i start hstart
        exact ⟨start, hstart, of_decide_eq_true hopen⟩
      · cases hopen
    obtain ⟨a, rfl, hn, hcount⟩ := h start hstart
    have hroom : t.count < t.rate := by
      refine Nat.lt_of_le_of_ne hcount fun hfull ↦ ?_
      have hpassed := hclock a
      rw [← hfull, hn, ← hnow] at hpassed
      exact Nat.not_lt.2 (Nat.le_sub_of_add_le' hpassed) hlt
    rw [Throttle.process, roll_of_isOpen hopen]
    dsimp only
    rw [if_pos hroom]
    refine ⟨_, rfl, ?_, rfl, rfl⟩
    intro start' hstart'
    obtain rfl : clock.reading a = start' := Option.some.inj (hstart.symm.trans hstart')
    exact ⟨a, rfl, by dsimp only; omega, hroom⟩

end Stage.Throttle

namespace Chain

/-- What a visit to a stage leads to that accepts the message as it is, and does not turn its
decision around. -/
theorem visit_accepts {moment : Moment} {c : Chain Builtin} {i : Nat} {r : Routing}
    {s s' : Builtin} {w : Wrapper} (hexpect : r.expect = none) (hnegate : r.negate = false)
    (h : Behaviour.process moment s (w.mergeMetadata r.metadata) =
      { state := s', outcome := .done (w.mergeMetadata r.metadata).accept }) :
    ∃ w', (visit moment c i ⟨r, s⟩ w).visit.next = .go ((c.route i).onward i) w' ∧
      w'.working = w.working ∧ (visit moment c i ⟨r, s⟩ w).chain = c.setStage i s' := by
  have hmeets (m : Message) : meets r.expect m = .ok () := by rw [hexpect]; rfl
  have hnext : (visit moment c i ⟨r, s⟩ w).visit.next =
      onceAccepted ⟨r, s⟩ (c.route i) i (visit moment c i ⟨r, s⟩ w).visit.entered :=
    next_visit_of_accept (hmeets _) (congrArg Response.outcome h)
  have hplain : (Slot.mk r s).routing.negate = false := hnegate
  obtain ⟨w', hgo⟩ := exists_onceAccepted_iff.2 (.inl hplain)
  refine ⟨w', hnext.trans hgo, ?_, ?_⟩
  · rw [(wrapper_of_onceAccepted hgo).1]
    simp only [visit, hmeets]
    rfl
  · simp only [visit, hmeets, h]

/-! ## The cycle -/

/-- A splitter whose pieces come back to it through a throttle. -/
structure ThrottledLoop (c : Chain Builtin) (t : Throttle) : Prop where
  splitter : ∃ r s, c.slots[0]? = some ⟨r, .splitter s⟩ ∧ r.expect = none ∧ s.mode = .bytes ∧
    s.size ≠ 0
  throttle : ∃ r, c.slots[1]? = some ⟨r, .throttle t⟩ ∧ r.expect = none ∧ r.negate = false
  rate : 0 < t.rate
  down : (c.route 0).continuation 0 = 1
  back : (c.route 1).onward 1 = 0
  hops : 2 ≤ c.hopLimit

namespace ThrottledLoop

variable {c : Chain Builtin} {t t' : Throttle} {clock : Clock} {moment : Moment} {w : Wrapper}

theorem setThrottle (h : c.ThrottledLoop t) (hrate : t'.rate = t.rate) :
    (c.setStage 1 (.throttle t')).ThrottledLoop t' := by
  obtain ⟨r, s, hs, hsplitter⟩ := h.splitter
  obtain ⟨r', ht, hthrottle⟩ := h.throttle
  refine ⟨⟨r, s, ?_, hsplitter⟩, ⟨r', slot_setStage ht _, hthrottle⟩, hrate ▸ h.rate, h.down,
    h.back, h.hops⟩
  simpa [setStage] using hs

/-- At the splitter a walk ends in pieces for the throttle. -/
theorem visit_cut (h : c.ThrottledLoop t) (moment : Moment) (hw : w.working.asBytes ≠ []) :
    ∃ slot m rest, c.slots[0]? = some slot ∧ m.asBytes ≠ [] ∧
      (visit moment c 0 slot w).visit.next = .done (.generated ⟨1, m :: rest⟩) ∧
      (visit moment c 0 slot w).chain = c := by
  obtain ⟨r, s, hs, hexpect, hmode, hsize⟩ := h.splitter
  obtain ⟨m, rest, hm, hnext, hchain⟩ := exists_visit_splitter moment hs hexpect hmode hsize hw
  rw [h.down] at hnext
  exact ⟨_, m, rest, hs, hm, hnext, hchain⟩

/-- From the throttle a piece walks to the splitter and is cut there. The next piece comes two
readings later. -/
theorem walk_round (h : c.ThrottledLoop t) {n : Nat} (hpaced : t.Paced clock n)
    (hclock : ∀ n, clock.reading n + t.period ≤ clock.reading (n + 2 * t.rate))
    (hnow : moment.now = clock.reading n) (hw : w.working.asBytes ≠ []) :
    ∃ m rest t', m.asBytes ≠ [] ∧ (c.walk moment 1 w).ending = .generated ⟨1, m :: rest⟩ ∧
      (c.walk moment 1 w).visits.length = 2 ∧ (c.walk moment 1 w).chain.ThrottledLoop t' ∧
      t'.Paced clock (n + 2) ∧ t'.rate = t.rate ∧ t'.period = t.period := by
  obtain ⟨r, ht, hexpect, hnegate⟩ := h.throttle
  obtain ⟨t', hprocess, hpaced', hrate, hperiod⟩ :=
    hpaced.process h.rate hclock hnow (w.mergeMetadata r.metadata)
  have hprocess' : Behaviour.process moment (Builtin.throttle t) (w.mergeMetadata r.metadata) =
      { state := .throttle t', outcome := .done (w.mergeMetadata r.metadata).accept } := by
    change Builtin.respond .throttle (t.process moment _) = _
    rw [hprocess]
    rfl
  obtain ⟨w', hgo, hworking, hchain⟩ := visit_accepts (c := c) (i := 1) hexpect hnegate hprocess'
  rw [h.back] at hgo
  have hloop := h.setThrottle hrate
  obtain ⟨slot, m, rest, hs, hm, hcut, hsame⟩ := hloop.visit_cut
    (moment.next (visit moment c 1 ⟨r, .throttle t⟩ w).named) (hworking ▸ hw)
  have hwalk := walkFrom_go moment (c.hopLimit - 1) w ht hgo
  have hhops : c.hopLimit - 1 = c.hopLimit - 2 + 1 := by have := h.hops; omega
  dsimp only at hwalk
  rw [Nat.sub_add_cancel (Nat.le_of_succ_le h.hops), hhops, hchain,
    walkFrom_done _ _ _ hs hcut, hsame] at hwalk
  rw [walk, hwalk]
  exact ⟨m, rest, t', hm, rfl, rfl, hloop, hpaced', hrate, hperiod⟩

end ThrottledLoop

/-- A throttle does not end the calls of a splitter whose pieces come back through it, if a window
passes in the time of as many rounds as the throttle lets messages through in a window. -/
theorem process_throttled_loop {c : Chain Builtin} {t : Throttle} {moment : Moment} {m : Message}
    (h : c.ThrottledLoop t) (hopened : t.opened = none) (hp : c.pending = []) (hm : m.asBytes ≠ [])
    (hclock : ∀ n, moment.clock.reading n + t.period ≤ moment.clock.reading (n + 2 * t.rate))
    (patience : Nat) : (c.process patience moment m).progress = .unfinished := by
  -- a message comes to the splitter first, each piece to the throttle, in step with the clock
  let P : Entrance Builtin → Prop := fun e ↦ e.entry.message.asBytes ≠ [] ∧
    ∃ t', e.call.chain.ThrottledLoop t' ∧ t'.rate = t.rate ∧ t'.period = t.period ∧
      (e.entry.place = 0 ∧ t'.opened = none ∨
        e.entry.place = 1 ∧ t'.Paced moment.clock (e.call.visits.length + 1))
  refine unfinished_of_invariant (P := P) hp ⟨hm, t, ?_, rfl, rfl, .inl ⟨rfl, hopened⟩⟩ ?_ patience
  · exact ⟨h.splitter, h.throttle, h.rate, h.down, h.back, h.hops⟩
  rintro ⟨call, place, m⟩ ⟨hm, t', hloop, hrate, hperiod, ⟨rfl, hclosed⟩ | ⟨rfl, hpaced⟩⟩
  · obtain ⟨slot, m', rest, hs, hm', hcut, hsame⟩ := hloop.visit_cut (w := .ofMessage m)
      (call.moment moment.clock) hm
    obtain ⟨hend, hafter⟩ := walk_done (call.moment moment.clock) (.ofMessage m) hs hcut
    refine ⟨_, Entrance.begets_first hend, hm', t', ?_, hrate, hperiod, .inr ⟨rfl, ?_⟩⟩
    · change (call.walk moment.clock 0 (.ofMessage m)).chain.ThrottledLoop t'
      rwa [hafter, hsame]
    · rintro start hstart
      cases hclosed.symm.trans hstart
  · have hclock' : ∀ n, moment.clock.reading n + t'.period ≤
        moment.clock.reading (n + 2 * t'.rate) := by rwa [hrate, hperiod]
    have hnow : (call.moment moment.clock).now =
        moment.clock.reading (call.visits.length + 1) := rfl
    obtain ⟨m', rest, t'', hm', hend, hvisits, hloop', hpaced', hrate', hperiod'⟩ :=
      hloop.walk_round (w := .ofMessage m) hpaced hclock' hnow hm
    refine ⟨_, Entrance.begets_first hend, hm', t'', hloop', hrate'.trans hrate,
      hperiod'.trans hperiod, .inr ⟨rfl, ?_⟩⟩
    have hlength : (call.record (call.walk moment.clock 1 (.ofMessage m))).visits.length =
        call.visits.length + 2 := by
      change (call.visits ++ _).length = _
      rw [List.length_append, hvisits]
    exact hlength ▸ hpaced'

/-- Cuts off single bytes, and lets two of them back in a millisecond. -/
def throttledEntries : List Config.StageEntry :=
  [{ type := "splitter", routing := { name := some "cut" },
     params := [("chunk_size", .number (.ofByte 1))] },
    { type := "throttle", routing := { gotoPassed := some "cut" },
      params := [("rate", .number (.ofByte 2)), ("period_ms", .number (.ofByte 1))] }]

/-- The chain that is built from them. -/
def throttledLoop : Chain Builtin where
  id := "loop"
  slots := [⟨{ name := some "cut" }, .splitter { size := 1 }⟩,
    ⟨{ gotoPassed := some "cut" }, .throttle { rate := 2, period := 1000 }⟩]
  plan := { routes := [{}, { passed := some 0 }] }

/-- If every visit takes a quarter of a millisecond, a single byte keeps the chain busy for ever. -/
theorem throttledLoop_never_ends :
    buildAll throttledEntries = .ok throttledLoop.slots ∧
      ofSlots "loop" throttledLoop.slots = .ok throttledLoop ∧
      ∀ patience, (throttledLoop.process patience ⟨⟨fun n ↦ 250 * n⟩, 0⟩
        (.ofRaw "t" [120])).progress = .unfinished := by
  refine ⟨by rfl, by rfl, fun patience ↦ ?_⟩
  have hloop : throttledLoop.ThrottledLoop { rate := 2, period := 1000 } :=
    ⟨⟨_, _, rfl, rfl, rfl, by decide⟩, ⟨_, rfl, rfl, rfl⟩, by decide, rfl, rfl, by decide⟩
  refine process_throttled_loop hloop rfl rfl (by decide) (fun n ↦ ?_) patience
  change 250 * n + 1000 ≤ 250 * (n + 4)
  omega

/-- If visits take a little less, the throttle rejects the third piece, and the call ends. -/
example : (throttledLoop.process 9 ⟨⟨fun n ↦ 249 * n⟩, 0⟩ (.ofRaw "t" [120])).progress =
    .returned := by
  decide +kernel

end Chain

end Conduit
