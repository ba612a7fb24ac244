import Conduit.Proofs.Chain.Nesting
import Conduit.Proofs.Stage.Kind
import Conduit.Stage.Build
import Mathlib.Data.Fintype.Pigeonhole
import Mathlib.Logic.Relation
import Mathlib.Order.Monotone.Basic

/-!
# Which chains of built-in stages end

The hop limit bounds every walk, but a piece starts to count anew, so it does not bound how deep
pieces of pieces nest. What does is the shape of the chain: a piece enters at the continuation of a
splitter that its parent came to, so if no splitter can be reached from itself, no line of pieces of
pieces is longer than there are splitters (`not_endless_of_acyclic`). A splitter that leads back to
itself, on the other hand, keeps a call going for ever whatever the hop limit
(`process_splitter_loop`).
-/

namespace Conduit

open Stage

namespace Chain

open Relation

/-! ## The graph of places -/

/-- The kinds of the stages, in order. -/
def kinds (c : Chain Builtin) : List Kind := c.slots.map (·.stage.kind)

/-- The place has a stage that makes pieces. -/
def Generates (c : Chain Builtin) (i : Nat) : Prop :=
  ∃ k, c.kinds[i]? = some k ∧ k.isGenerator = true

/-- A message that visits place `i`, or its pieces, may come to place `j` next. -/
def Leads (c : Chain Builtin) (i j : Nat) : Prop :=
  ∃ k, c.kinds[i]? = some k ∧
    if k.isGenerator then j = (c.route i).continuation i
    else j = (c.route i).onward i ∨ (c.route i).rejected = some j

/-- No stage that makes pieces can be reached from itself. -/
def Acyclic (c : Chain Builtin) : Prop := ∀ i, c.Generates i → ¬ TransGen c.Leads i i

/-- The chains have stages of the same kinds and the same routes. -/
structure SameShape (c d : Chain Builtin) : Prop where
  kinds : d.kinds = c.kinds
  plan : d.plan = c.plan

variable {c d : Chain Builtin}

theorem SameShape.refl (c : Chain Builtin) : c.SameShape c := ⟨rfl, rfl⟩

theorem SameShape.trans {e : Chain Builtin} (h : c.SameShape d) (h' : d.SameShape e) :
    c.SameShape e := ⟨h'.kinds.trans h.kinds, h'.plan.trans h.plan⟩

theorem SameShape.generates (h : c.SameShape d) : d.Generates = c.Generates := by
  funext i
  simp only [Generates, h.kinds]

theorem SameShape.leads (h : c.SameShape d) : d.Leads = c.Leads := by
  funext i j
  simp only [Leads, route, h.kinds, h.plan]

theorem kind_of_slot {i : Nat} {slot : Slot Builtin} (h : c.slots[i]? = some slot) :
    c.kinds[i]? = some slot.stage.kind := by
  rw [kinds, List.getElem?_map, h]
  rfl

/-! ## Walks along the graph -/

theorem visit_sameShape (moment : Moment) (c : Chain Builtin) {i : Nat} {slot : Slot Builtin}
    (w : Wrapper) (hs : c.slots[i]? = some slot) :
    c.SameShape (visit moment c i slot w).chain := by
  rcases chain_visit moment c i slot w with h | h <;> rw [h]
  · exact .refl c
  · refine ⟨map_slots_setStage _ c i _ fun slot' hs' ↦ ?_, rfl⟩
    obtain rfl : slot = slot' := Option.some.inj (hs.symm.trans hs')
    exact Builtin.kind_process _ _ _

theorem walkFrom_sameShape (moment : Moment) (hops : Nat) (c : Chain Builtin) (i : Nat)
    (w : Wrapper) : c.SameShape (walkFrom moment hops c i w).chain := by
  fun_induction walkFrom moment hops c i w with
  | case1 _ _ c _ _ _ => exact .refl c
  | case2 _ c _ _ _ _ => exact .refl c
  | case3 moment c i w slot hs _ s _ _ => exact visit_sameShape moment c w hs
  | case4 moment c i w slot hs _ s _ _ _ _ ih => exact (visit_sameShape moment c w hs).trans ih

/-- A message that goes on from a visit goes along the graph. -/
theorem leads_of_go {moment : Moment} {i j : Nat} {slot : Slot Builtin} {w w' : Wrapper}
    (hs : c.slots[i]? = some slot) (hn : (visit moment c i slot w).visit.next = .go j w') :
    c.Leads i j := by
  rcases next_visit moment c i slot w with ⟨e, he⟩ | hf
  · rw [he] at hn
    cases hn
  · obtain ⟨⟨w₀, ho⟩, hj⟩ := done_of_follow_go (hf.symm.trans hn)
    refine ⟨slot.stage.kind, kind_of_slot hs, ?_⟩
    rw [Builtin.isGenerator_of_done ho]
    exact hj

/-- A visit that ends in pieces is to a stage that makes pieces, and leads to where they enter. -/
theorem leads_of_generated {moment : Moment} {i : Nat} {slot : Slot Builtin} {w : Wrapper}
    {g : Generation} (hs : c.slots[i]? = some slot)
    (hn : (visit moment c i slot w).visit.next = .done (.generated g)) :
    c.Generates i ∧ c.Leads i g.continuation := by
  rcases next_visit moment c i slot w with ⟨e, he⟩ | hf
  · rw [he] at hn
    cases hn
  · obtain ⟨⟨w₀, ho⟩, hg⟩ := generate_of_follow_generated (hf.symm.trans hn)
    have hk := Builtin.isGenerator_of_generate ho
    refine ⟨⟨_, kind_of_slot hs, hk⟩, slot.stage.kind, kind_of_slot hs, ?_⟩
    rw [hk]
    exact hg

/-- A walk that ends in pieces has come to a stage that makes pieces. -/
theorem exists_generates_of_walkFrom {moment : Moment} {hops i : Nat} {w : Wrapper}
    {g : Generation} (h : (walkFrom moment hops c i w).ending = .generated g) :
    ∃ s, ReflTransGen c.Leads i s ∧ c.Generates s ∧ c.Leads s g.continuation := by
  fun_induction walkFrom moment hops c i w with
  | case1 _ _ _ _ w _ => cases hw : w.accepted <;> simp [hw] at h
  | case2 => cases h
  | case3 moment c i w slot hs hops s ending hn =>
    obtain rfl : ending = .generated g := h
    exact ⟨i, .refl, leads_of_generated hs hn⟩
  | case4 moment c i w slot hs hops s j w' hn rest ih =>
    obtain ⟨t, hjt, ht⟩ := ih h
    have hshape : c.SameShape s.chain := visit_sameShape moment c w hs
    rw [hshape.leads] at hjt ht
    rw [hshape.generates] at ht
    exact ⟨t, .head (leads_of_go hs hn) hjt, ht⟩

/-! ## Lines of pieces -/

/-- The call is through a chain of the same shape. -/
theorem SameShape.enters {clock : Clock} {call : Call Builtin} {entries : List Entry}
    {e : Entrance Builtin} (hc : c.SameShape call.chain) (h : Call.Enters clock call entries e) :
    c.SameShape e.call.chain := by
  obtain ⟨before, rest, -, depth, hb⟩ := h
  let P : Call Builtin → Prop := fun d ↦ c.SameShape d.chain
  have hwalk : ∀ d i w, P d → P (d.record (d.walk clock i w)) :=
    fun d i w hd ↦ hd.trans (walkFrom_sameShape _ _ d.chain i w)
  exact Call.foldlM_induction (P := P)
    (fun _ _ _ hd he ↦ Call.descend_induction (fun d i w hd _ ↦ hwalk d i w hd) hd he) before hc hb

theorem SameShape.begets {clock : Clock} {e e' : Entrance Builtin} (h : c.SameShape e.call.chain)
    (hb : e.Begets clock e') : c.SameShape e'.call.chain :=
  (h.trans (walkFrom_sameShape _ _ e.call.chain _ _)).enters hb

/-- Between a message and its pieces there is a stage that makes pieces. -/
theorem exists_generates_of_begets {clock : Clock} {e e' : Entrance Builtin}
    (h : c.SameShape e.call.chain) (hb : e.Begets clock e') :
    ∃ s, ReflTransGen c.Leads e.entry.place s ∧ c.Generates s ∧ c.Leads s e'.entry.place := by
  obtain ⟨g, hg, hmem⟩ := hb.ending
  obtain ⟨m, -, hm⟩ := List.mem_map.1 hmem
  obtain ⟨s, hs⟩ := exists_generates_of_walkFrom hg
  rw [h.leads, h.generates] at hs
  exact ⟨s, by rw [← hm]; exact hs⟩

theorem lt_of_generates {i : Nat} (h : c.Generates i) : i < c.kinds.length := by
  obtain ⟨k, hk, -⟩ := h
  exact (List.getElem?_eq_some_iff.1 hk).1

/-- A line of pieces that has no end comes to some splitter twice. -/
theorem not_endless_of_acyclic (hc : c.Acyclic) (moment : Moment) (m : Message) :
    ¬ c.Endless moment m := by
  rintro ⟨line, h0, hline⟩
  have hshape : ∀ n, c.SameShape (line n).call.chain := by
    intro n
    induction n with
    | zero => exact SameShape.enters ⟨rfl, rfl⟩ h0
    | succ n ih => exact ih.begets (hline n)
  choose s hto hgen hfrom using fun n ↦ exists_generates_of_begets (hshape n) (hline n)
  have hstep : ∀ n, TransGen c.Leads (s n) (s (n + 1)) := fun n ↦ .head' (hfrom n) (hto (n + 1))
  have hpath : ∀ {a b}, a < b → TransGen c.Leads (s a) (s b) :=
    fun h ↦ Nat.rel_of_forall_rel_succ_of_lt (TransGen c.Leads) hstep h
  obtain ⟨a, b, hab, he⟩ := Finite.exists_ne_map_eq_of_infinite
    fun n ↦ (⟨s n, lt_of_generates (hgen n)⟩ : Fin c.kinds.length)
  have he : s a = s b := congrArg Fin.val he
  rcases Nat.lt_or_gt_of_ne hab with hlt | hlt
  · exact hc (s a) (hgen a) (by simpa only [← he] using hpath hlt)
  · exact hc (s a) (hgen a) (by simpa only [← he] using hpath hlt)

/-- A call to a chain of built-in stages, with any cycles and anything pending, comes to an end (it
returns, or a stage breaks down) exactly when it has no endless line of pieces of pieces, each of
which enters when the clock has been read for all visits before. It has none if no splitter can be
reached from itself. The hop limit does not come into this, as it bounds the single walks only. -/
theorem process_ends_iff (moment : Moment) (c : Chain Builtin) (m : Message) :
    ((∃ patience, (c.process patience moment m).progress ≠ .unfinished) ↔
        ¬ c.Endless moment m) ∧
      (c.Acyclic → ∃ patience, (c.process patience moment m).progress ≠ .unfinished) ∧
      ∀ i w, (c.walk moment i w).visits.length ≤ c.hopLimit :=
  ⟨ends_iff moment c m, fun hc ↦ (ends_iff moment c m).2 (not_endless_of_acyclic hc moment m),
    fun i w ↦ length_visits_walkFrom_le moment c.hopLimit c i w⟩

/-- A chain with a cycle: long messages go from the limiter back to the first stage. The splitter
behind is not on it. -/
def retry : Chain Builtin where
  id := "retry"
  slots := [⟨{ name := some "again" }, .pass {}⟩,
    ⟨{ gotoRejected := some "again" }, .limiter { size := 4 }⟩, ⟨{}, .splitter { size := 1 }⟩]
  plan := { routes := [{}, { rejected := some 0 }, {}] }

theorem retry_acyclic : retry.Acyclic := by
  have hend : ∀ j, ¬ retry.Leads 3 j := by
    rintro j ⟨k, hk, -⟩
    cases hk
  have hsplit : ∀ j, retry.Leads 2 j → j = 3 := by
    rintro j ⟨k, hk, hj⟩
    cases hk
    exact hj
  intro i hi hcycle
  obtain rfl : i = 2 := by
    obtain ⟨k, hk, hg⟩ := hi
    match i, hk with
    | 0, hk | 1, hk =>
      cases hk
      cases hg
    | 2, _ => rfl
    | _ + 3, hk => cases hk
  obtain ⟨j, hj, hrest⟩ := TransGen.head'_iff.1 hcycle
  obtain rfl := hsplit j hj
  rcases hrest.cases_head with h | ⟨j, hj, -⟩
  · cases h
  · exact hend j hj

/-- A message that is too long goes round until the hop limit, a short one is split, and either
way the call ends. -/
theorem process_ends_retry (moment : Moment) (m : Message) :
    retry.Acyclic ∧ ∃ patience, (retry.process patience moment m).progress ≠ .unfinished :=
  ⟨retry_acyclic, (process_ends_iff moment retry m).2.1 retry_acyclic⟩

/-! ## A splitter on a cycle -/

/-- A splitter that can split a message ends its walk in the pieces, and stays as it was. -/
theorem visit_splitter (moment : Moment) (i : Nat) {r : Routing} {s : Splitter} {w : Wrapper}
    {pieces : List Message} (hmeets : meets r.expect w.working = .ok ())
    (hsplit : s.split (Splitter.familyName moment.fresh) w.working = .ok pieces) :
    (visit moment c i ⟨r, .splitter s⟩ w).visit.next =
        .done (.generated ⟨(c.route i).continuation i, pieces⟩) ∧
      (visit moment c i ⟨r, .splitter s⟩ w).chain = c.setStage i (.splitter s) := by
  have hprocess : Behaviour.process moment (Builtin.splitter s) (w.mergeMetadata r.metadata) =
      { state := .splitter s, outcome := .generate (w.mergeMetadata r.metadata) pieces,
        named := 1 } := by
    change Builtin.respond .splitter (s.process moment (w.mergeMetadata r.metadata)) = _
    rw [Splitter.process, show (w.mergeMetadata r.metadata).working = w.working from rfl, hsplit]
    rfl
  unfold visit
  simp only [show meets r.expect (w.mergeMetadata r.metadata).working = .ok () from hmeets, hprocess,
    follow, and_self]

/-- A splitter of bytes cuts what has bytes in it, and the first piece has bytes in it, too. -/
theorem exists_visit_splitter (moment : Moment) {i : Nat} {r : Routing} {s : Splitter} {w : Wrapper}
    (hs : c.slots[i]? = some ⟨r, .splitter s⟩) (hexpect : r.expect = none) (hmode : s.mode = .bytes)
    (hsize : s.size ≠ 0) (hw : w.working.asBytes ≠ []) :
    ∃ m rest, m.asBytes ≠ [] ∧
      (visit moment c i ⟨r, .splitter s⟩ w).visit.next =
        .done (.generated ⟨(c.route i).continuation i, m :: rest⟩) ∧
      (visit moment c i ⟨r, .splitter s⟩ w).chain = c := by
  obtain ⟨m, rest, hsplit, hm⟩ :=
    Splitter.exists_split_cons hmode hsize (Splitter.familyName moment.fresh) hw
  obtain ⟨hnext, hchain⟩ := visit_splitter (c := c) moment i (by rw [hexpect]; rfl) hsplit
  exact ⟨m, rest, hm, hnext, hchain.trans (setStage_self hs)⟩

/-- A splitter whose pieces come back to it keeps a call going for ever, whatever the hop limit. -/
theorem process_splitter_loop {r : Routing} {s : Splitter} {m : Message}
    (hs : c.slots[0]? = some ⟨r, .splitter s⟩) (hexpect : r.expect = none)
    (hmode : s.mode = .bytes) (hsize : s.size ≠ 0) (hroute : (c.route 0).continuation 0 = 0)
    (hp : c.pending = []) (hm : m.asBytes ≠ []) (moment : Moment) (patience : Nat) :
    (c.process patience moment m).progress = .unfinished := by
  -- the splitter is still where it was, and the next piece comes to it with bytes in it
  let P : Entrance Builtin → Prop := fun e ↦
    e.call.chain.slots[0]? = some ⟨r, .splitter s⟩ ∧ e.call.chain.plan = c.plan ∧
      e.entry.place = 0 ∧ e.entry.message.asBytes ≠ []
  refine unfinished_of_invariant (P := P) hp ⟨hs, rfl, rfl, hm⟩ ?_ patience
  rintro ⟨call, place, m⟩ ⟨hs, hplan, rfl, hm⟩
  dsimp only at hs hplan hm
  obtain ⟨m', rest, hm', hnext, hchain⟩ := exists_visit_splitter (call.moment moment.clock)
    (w := .ofMessage m) hs hexpect hmode hsize hm
  have hroute' : (call.chain.route 0).continuation 0 = 0 := by
    simpa only [route, hplan] using hroute
  rw [hroute'] at hnext
  obtain ⟨hend, hafter⟩ := walk_done (call.moment moment.clock) (.ofMessage m) hs hnext
  let e : Entrance Builtin := ⟨call, ⟨0, m⟩⟩
  have hsame : (e.after moment.clock).chain = call.chain := hafter.trans hchain
  exact ⟨⟨e.after moment.clock, ⟨0, m'⟩⟩, Entrance.begets_first hend, by rw [hsame]; exact hs,
    by rw [hsame]; exact hplan, rfl, hm'⟩

/-- A splitter that names itself as the target of its pieces. -/
def loopEntry : Config.StageEntry where
  type := "splitter"
  routing := { name := some "s", goto := some "s" }
  params := [("chunk_size", .number (.ofByte 1))]

/-- The chain that is built from it. -/
def splitterLoop : Chain Builtin where
  id := "loop"
  slots := [⟨loopEntry.routing, .splitter { size := 1 }⟩]
  plan := { routes := [{ next := some 0 }] }
  maxHops := 1

/-- The chain is built without complaint and allows one visit, and a single byte keeps it busy for
ever. -/
theorem splitterLoop_never_ends :
    buildAll [loopEntry] = .ok splitterLoop.slots ∧
      ofSlots "loop" splitterLoop.slots 1 = .ok splitterLoop ∧
      ∀ patience, (splitterLoop.process patience ⟨0, 0⟩ (.ofRaw "t" [120])).progress =
        .unfinished := by
  refine ⟨rfl, rfl, fun patience ↦ ?_⟩
  exact process_splitter_loop rfl rfl rfl (by decide) rfl rfl (by decide) ⟨0, 0⟩ patience

end Chain

end Conduit
