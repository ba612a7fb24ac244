import Conduit.Proofs.Chain.Along
import Conduit.Proofs.Json.Merging
import Conduit.Proofs.Stage.Kind
import Conduit.Proofs.Stage.Reworks
import Mathlib.Data.List.Induction

/-!
# The books of a wrapper

A wrapper keeps books of its walk: the message that entered, the metadata of the stages that it was
shown to, and the queues that have copies of it. If the stages leave these alone
(`Stage.LeavesBooks`), as all but scripts do, the books are true at every stage on entry, in every
copy and of what is delivered (`Chain.walk_books`), however often the walk comes back to a stage and
whatever is decided on the way.
-/

namespace Conduit

open Stage

/-! ## What is in the books -/

namespace Members

/-- The union of objects, of which the later ones win. -/
def overlay (layers : List Members) : Members := layers.foldl insertAll []

theorem overlay_concat (layers : List Members) (extra : Members) :
    overlay (layers ++ [extra]) = (overlay layers).insertAll extra := by
  rw [overlay, List.foldl_append]
  rfl

/-- Under each key is what the last object has that has the key. -/
theorem lookup_overlay {layers : List Members} (h : ∀ layer ∈ layers, layer.keys.Nodup)
    (key : String) :
    (overlay layers).lookup key = layers.reverse.findSome? fun layer ↦ layer.lookup key := by
  induction layers using List.reverseRecOn with
  | nil => rfl
  | append_singleton layers extra ih =>
    obtain ⟨hlayers, hextra⟩ := List.forall_mem_append.1 h
    rw [overlay_concat, lookup_insertAll _ (hextra extra List.mem_cons_self), ih hlayers,
      List.reverse_append]
    cases hlookup : extra.lookup key <;> simp [hlookup]

end Members

/-- The wrapper is of a message, has the metadata of some stages in turn, and names the queues that
have got copies. -/
structure Wrapper.Books (w : Wrapper) (m : Message) (layers : List Members)
    (queues : List String) : Prop where
  incoming : w.incoming = m
  metadata : w.metadata = .object (Members.overlay layers)
  redirects : ∀ name, w.redirects.contains name = true ↔ name ∈ queues

namespace Wrapper.Books

variable {w : Wrapper} {m : Message} {layers : List Members} {queues : List String}

theorem ofMessage (m : Message) : (Wrapper.ofMessage m).Books m [] [] where
  incoming := rfl
  metadata := rfl
  redirects _ := iff_of_false nofun List.not_mem_nil

theorem mergeMetadata (h : w.Books m layers queues) (extra : Members) :
    (w.mergeMetadata extra).Books m (layers ++ [extra]) queues where
  incoming := h.incoming
  metadata := by
    rw [Members.overlay_concat, ← Value.merge_object, ← h.metadata]
    rfl
  redirects := h.redirects

/-- Copies for more queues are told by their names alone. -/
theorem redirect (h : w.Books m layers queues) (working : Message) (accepted : Bool)
    (names : List String) :
    ({ w with working, accepted, redirects := w.redirects.addAll names } : Wrapper).Books m layers
      (queues ++ names) where
  incoming := h.incoming
  metadata := h.metadata
  redirects name := by rw [NameSet.contains_addAll, h.redirects, List.mem_append]

end Wrapper.Books

/-! ## Stages -/

/-- Stages of a sort that change nothing of a wrapper but the working message and the decision, and
stay of that sort. -/
structure Stage.LeavesBooks {σ : Type} [Behaviour σ] (P : σ → Prop) : Prop where
  state : ∀ moment s w, P s → P (Behaviour.process moment s w).state
  wrapper : ∀ moment s w u, P s → (Behaviour.process moment s w).outcome.wrapper? = some u →
    u = { w with working := u.working, accepted := u.accepted }

theorem Stage.Builtin.leavesBooks : LeavesBooks fun s : Builtin ↦ s.kind ≠ .script where
  state moment s w hs := by rwa [kind_process]
  wrapper moment s w u hs hu := by
    obtain ⟨⟨hincoming, hredirects, -⟩, hmetadata⟩ := retouches_of_process hs hu
    rw [← hincoming, ← hredirects, ← hmetadata]

/-! ## Walks -/

/-- A visit at which the books are true on entry, and in each copy, which names the queues of the
stage up to its own. -/
structure Visit.Booked (v : Visit) (m : Message) (layers : List Members)
    (left redirect : List String) : Prop where
  accepted : v.entered.accepted = true
  entered : v.entered.Books m layers left
  copies : ∀ (j : Nat) (p : Publication), v.published[j]? = some p →
    redirect[j]? = some p.queue ∧ p.copy.Books m layers (left ++ redirect.take (j + 1))

namespace Chain

variable {σ : Type}

def metadataAt (c : Chain σ) (i : Nat) : Members := (c.slots[i]?.map (·.routing.metadata)).getD []

def redirectAt (c : Chain σ) (i : Nat) : List String :=
  (c.slots[i]?.map (·.routing.redirect)).getD []

/-- The metadata of the stages visited, in the order of the visits. -/
def layers (c : Chain σ) (visits : List Visit) : List Members :=
  visits.map fun v ↦ c.metadataAt v.stage

/-- The queues that the stages visited name, in the order of the visits. -/
def queues (c : Chain σ) (visits : List Visit) : List String :=
  visits.flatMap fun v ↦ c.redirectAt v.stage

/-- The chain as a walk may leave it, with all stages of one sort. -/
structure Keeping (P : σ → Prop) (c d : Chain σ) : Prop where
  routings : d.slots.map (·.routing) = c.slots.map (·.routing)
  stages : ∀ slot ∈ d.slots, P slot.stage

section

variable (c : Chain σ) (before : List Visit) (v : Visit)

theorem layers_concat : c.layers (before ++ [v]) = c.layers before ++ [c.metadataAt v.stage] := by
  rw [layers, List.map_append]
  rfl

theorem queues_concat : c.queues (before ++ [v]) = c.queues before ++ c.redirectAt v.stage := by
  rw [queues, List.flatMap_append, List.flatMap_singleton]
  rfl

end

variable [Behaviour σ] {P : σ → Prop}

/-- One more visit keeps the books true. -/
theorem carries_books (hP : LeavesBooks P) (c : Chain σ) (m : Message) :
    Carries (c.Keeping P)
      (fun before w ↦ w.accepted = true ∧ w.Books m (c.layers before) (c.queues before))
      fun before v ↦
        v.Booked m (c.layers (before ++ [v])) (c.queues before) (c.redirectAt v.stage) where
  visit before moment d i slot w hs hd hw := by
    obtain ⟨haccepted, hbooks⟩ := hw
    have hrouting : c.slots[i]?.map (·.routing) = some slot.routing := by
      rw [← List.getElem?_map, ← hd.routings, List.getElem?_map, hs]
      rfl
    obtain ⟨slot', hslot', hrouting⟩ := Option.map_eq_some_iff.1 hrouting
    have hmetadata : c.metadataAt i = slot.routing.metadata := by
      rw [metadataAt, hslot', Option.map_some, hrouting, Option.getD_some]
    have hredirect : c.redirectAt i = slot.routing.redirect := by
      rw [redirectAt, hslot', Option.map_some, hrouting, Option.getD_some]
    obtain ⟨hentered, hcases⟩ := visit_cases moment d i slot w
    have hstage := stage_visit moment d i slot w
    generalize Chain.visit moment d i slot w = s at hentered hcases hstage ⊢
    have hentry : s.visit.entered.Books m (c.layers (before ++ [s.visit])) (c.queues before) := by
      rw [layers_concat, hstage, hmetadata, hentered]
      exact hbooks.mergeMetadata slot.routing.metadata
    have haccepted' : s.visit.entered.accepted = true := by rwa [hentered]
    rcases hcases with ⟨hchain, hpublished, e, hnext⟩ | ⟨hchain, hfollow⟩
    · refine ⟨hchain ▸ hd, ⟨haccepted', hentry, fun j p hp ↦ ?_⟩, fun j w' hgo ↦ ?_⟩
      · rw [hpublished] at hp
        cases hp
      · cases hnext.symm.trans hgo
    · obtain ⟨hnext, hpublished⟩ := Prod.mk.inj hfollow
      have hkeeps := hP.wrapper moment slot.stage s.visit.entered
      have hstay := hd.stages slot (List.mem_of_getElem? hs)
      refine ⟨?_, ⟨haccepted', hentry, fun j p hp ↦ ?_⟩, fun j w' hgo ↦ ?_⟩
      · rw [hchain]
        exact ⟨(setStage_alike d i _).routings.trans hd.routings,
          stages_setStage hd.stages i (hP.state _ _ _ hstay)⟩
      · rw [hpublished] at hp
        obtain ⟨u, hu, hqueue, hcopy⟩ := copy_of_follow hp
        rw [hstage, hredirect, hcopy, hkeeps u hstay hu]
        exact ⟨hqueue, hentry.redirect _ _ _⟩
      · obtain ⟨u, hu, hw'⟩ := wrapper_of_follow_go (hnext.symm.trans hgo)
        rw [queues_concat, hstage, hredirect, hw', hkeeps u hstay (congrArg Outcome.wrapper? hu)]
        exact ⟨rfl, hentry.redirect _ _ _⟩

/-- Whoever's stages leave the books alone, as all built-in ones but scripts do: on a walk of a
message, from any place and by any ways, the books are true at each visit. On entry they show what
was merged at the visits so far, this one among them, and the queues of the visits before; and each
copy names the queues up to its own. Every stage is shown an accepted message, and so the walk ends
at a stage, at the hop limit, or by delivering a wrapper whose books show all visits. -/
theorem walk_books :
    (LeavesBooks fun s : Builtin ↦ s.kind ≠ .script) ∧
    ∀ {σ : Type} [Behaviour σ] {P : σ → Prop}, LeavesBooks P →
      ∀ c : Chain σ, (∀ slot ∈ c.slots, P slot.stage) → ∀ moment i m,
      let r := c.walk moment i (.ofMessage m)
      (∀ before v after, r.visits = before ++ v :: after →
        v.Booked m (c.layers (before ++ [v])) (c.queues before) (c.redirectAt v.stage)) ∧
      (∀ w, r.ending = .delivered w →
        w.accepted = true ∧ w.Books m (c.layers r.visits) (c.queues r.visits)) ∧
      ((∃ w, r.ending = .delivered w) ∨ (∃ n, r.ending = .failed (.hopLimit n)) ∨
        ∃ v, r.visits.getLast? = some v ∧ v.next = .done r.ending) := by
  refine ⟨Builtin.leavesBooks, fun hP c hc moment i m ↦ ?_⟩
  obtain ⟨-, hvisits, hend⟩ := (carries_books hP c m).walkFrom moment c.hopLimit c i
    (.ofMessage m) [] ⟨rfl, hc⟩ ⟨rfl, .ofMessage m⟩
  refine ⟨hvisits, ?_, ?_⟩
  · intro w hw
    rcases hend with ⟨w', ⟨haccepted, hbooks⟩, he⟩ | ⟨n, he⟩ | ⟨v, -, -, hne⟩
    · rw [haccepted, if_pos rfl] at he
      cases he.symm.trans hw
      exact ⟨haccepted, hbooks⟩
    · cases he.symm.trans hw
    · exact absurd hw (hne w)
  · rcases hend with ⟨w', ⟨haccepted, -⟩, he⟩ | he | ⟨v, hlast, hv, -⟩
    · rw [haccepted, if_pos rfl] at he
      exact .inl ⟨w', he⟩
    · exact .inr (.inl he)
    · exact .inr (.inr ⟨v, hlast, hv⟩)

/-- A message is turned away by the first stage, goes back to it from the second, and leaves when
the second turns it away. -/
def circuit : Chain Builtin where
  id := "circuit"
  slots := [
    ⟨{ negate := true, metadata := [("k", .bool true)], redirect := ["p"] }, .pass {}⟩,
    ⟨{ metadata := [("k", .bool false), ("l", .null)], redirect := ["q", "p"] },
      .throttle { rate := 1, period := 9 }⟩]
  plan := { routes := [{ rejected := some 1 }, { passed := some 0, rejected := some 2 }] }

/-- The books show both rounds: what the second stage has written last, and two queues. -/
theorem walk_books_circuit :
    (∀ slot ∈ circuit.slots, slot.stage.kind ≠ .script) ∧
    ∃ w, (circuit.walk ⟨0, 0⟩ 0 (.ofMessage (.ofRaw "t" [1]))).ending = .delivered w ∧
      w.accepted = true ∧ w.incoming = .ofRaw "t" [1] ∧
      w.metadata = .object [("k", .bool false), ("l", .null)] ∧
      ∀ name, w.redirects.contains name = true ↔ name ∈ ["p", "q", "p", "p", "q", "p"] := by
  have hstages : ∀ slot ∈ circuit.slots, slot.stage.kind ≠ .script := by decide
  obtain ⟨-, hdelivered, -⟩ :=
    walk_books.2 walk_books.1 circuit hstages ⟨0, 0⟩ 0 (.ofRaw "t" [1])
  have hlayers : Members.overlay (circuit.layers
      (circuit.walk ⟨0, 0⟩ 0 (.ofMessage (.ofRaw "t" [1]))).visits) =
        [("k", .bool false), ("l", .null)] := by decide +kernel
  have hqueues : circuit.queues (circuit.walk ⟨0, 0⟩ 0 (.ofMessage (.ofRaw "t" [1]))).visits =
      ["p", "q", "p", "p", "q", "p"] := by decide +kernel
  obtain ⟨haccepted, hbooks⟩ := hdelivered _ rfl
  refine ⟨hstages, _, rfl, haccepted, hbooks.incoming, ?_, ?_⟩
  · rw [hbooks.metadata, hlayers]
  · intro name
    rw [hbooks.redirects, hqueues]

end Chain

end Conduit
