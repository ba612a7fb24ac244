import Conduit.Proofs.Chain.ByName
import Conduit.Proofs.Chain.Patience
import Conduit.Proofs.Chain.Termination
import Conduit.Proofs.Stage.Splitter

/-!
# Splitters in a row

A splitter that has no target for its pieces sends them to the next stage. Where splitters of bytes
stand in a row, the payload that comes to the first is cut into chunks, these into smaller ones, and
so on (`cutAll`). The recursion that a call comes to takes a payload through the row like that
(`Call.descend_row`): what comes of one chunk is delivered before the next chunk is sent. So the
pieces that a chain of nothing but splitters delivers make the payload again
(`Chain.pieces_reassemble`).
-/

namespace Conduit

open Stage

/-! ## Chunks of chunks -/

section

variable {sizes : List Nat} {bytes part : Bytes}

/-- A payload cut into chunks, the chunks cut into smaller ones, and so on. -/
def cutAll : List Nat → Bytes → List Bytes
  | [], bytes => [bytes]
  | size :: sizes, bytes => (chunks size bytes).flatMap (cutAll sizes)

/-- In order, the smallest chunks are the payload. -/
theorem flatten_cutAll (hpos : ∀ size ∈ sizes, 0 < size) (bytes : Bytes) :
    (cutAll sizes bytes).flatten = bytes := by
  induction sizes generalizing bytes with
  | nil => exact List.append_nil bytes
  | cons size sizes ih =>
    obtain ⟨hsize, hpos⟩ := List.forall_mem_cons.1 hpos
    have hid : List.flatten ∘ cutAll sizes = id := funext (ih hpos)
    rw [cutAll, List.flatMap_def, List.flatten_flatten, List.map_map, hid, List.map_id,
      flatten_chunks hsize]

theorem ne_nil_of_mem_cutAll (hsizes : sizes ≠ []) (h : part ∈ cutAll sizes bytes) : part ≠ [] := by
  induction sizes generalizing bytes with
  | nil => exact absurd rfl hsizes
  | cons size sizes ih =>
    obtain ⟨chunk, hchunk, hpart⟩ := List.mem_flatMap.1 h
    cases sizes with
    | nil =>
      obtain rfl := List.mem_singleton.1 hpart
      exact ne_nil_of_mem_chunks hchunk
    | cons size' sizes => exact ih (List.cons_ne_nil _ _) hpart

theorem length_le_of_mem_cutAll (hpos : ∀ size ∈ sizes, 0 < size) (h : part ∈ cutAll sizes bytes) :
    ∀ size ∈ sizes, part.length ≤ size := by
  induction sizes generalizing bytes with
  | nil => exact fun _ hsize ↦ absurd hsize List.not_mem_nil
  | cons size sizes ih =>
    obtain ⟨-, hpos⟩ := List.forall_mem_cons.1 hpos
    obtain ⟨chunk, hchunk, hpart⟩ := List.mem_flatMap.1 h
    refine List.forall_mem_cons.2 ⟨?_, ih hpos hpart⟩
    -- a chunk is no longer than its size, and what it is cut into is no longer than the chunk
    have hsub : part.Sublist chunk := by
      rw [← flatten_cutAll hpos chunk]
      exact List.sublist_flatten_of_mem hpart
    exact Nat.le_trans hsub.length_le (length_le_of_mem_chunks hchunk)

end

namespace Chain

/-! ## Splitters in a row -/

/-- A splitter of bytes without a target for its pieces. Its label, its metadata and its fan-out
queues do not matter. -/
structure Cuts (slot : Slot Builtin) (size : Nat) : Prop where
  stage : ∃ key, slot.stage = .splitter { size, key }
  next : slot.routing.next = none
  expect : slot.routing.expect = none ∨ slot.routing.expect = some .raw

/-- From a place on, the chain has splitters for these sizes and nothing else. -/
def Row (c : Chain Builtin) : Nat → List Nat → Prop
  | i, [] => c.slots[i]? = none
  | i, size :: sizes =>
    (∃ slot, c.slots[i]? = some slot ∧ Cuts slot size ∧ (c.route i).continuation i = i + 1) ∧
      c.Row (i + 1) sizes

variable {c : Chain Builtin} {sizes : List Nat}

theorem Compiled.continuation_of_next_none (hc : c.Compiled) {i : Nat} {slot : Slot Builtin}
    (hs : c.slots[i]? = some slot) (hnext : slot.routing.next = none) :
    (c.route i).continuation i = i + 1 := by
  have hgoto : ByName.goesTo (c.slots.map (·.routing)) slot.routing.goto = none := by
    unfold Routing.next Routing.nonEmpty at hnext
    unfold ByName.goesTo
    split
    · rfl
    · rename_i target htarget
      rw [htarget] at hnext
      simpa using hnext
  rw [hc.route_eq hs, Route.continuation, ByName.route, hgoto]
  rfl

/-- Splitters that stand in the slots from a place on are a row from there. -/
theorem row_of_forall₂ (hc : c.Compiled) {i : Nat} (h : List.Forall₂ Cuts (c.slots.drop i) sizes) :
    c.Row i sizes := by
  induction sizes generalizing i with
  | nil => exact List.getElem?_eq_none (List.drop_eq_nil_iff.1 (List.forall₂_nil_right_iff.1 h))
  | cons size sizes ih =>
    obtain ⟨slot, slots, hslot, hslots, hdrop⟩ := List.forall₂_cons_right_iff.1 h
    have hs : c.slots[i]? = some slot := by
      rw [← Nat.add_zero i, ← List.getElem?_drop, hdrop]
      rfl
    have hrest : c.slots.drop (i + 1) = slots := by
      rw [← List.drop_drop, hdrop]
      rfl
    exact ⟨⟨slot, hs, hslot, hc.continuation_of_next_none hs hslot.next⟩, ih (hrest ▸ hslots)⟩

/-- The walk of a message that comes to a splitter ends there, in pieces with the chunks of its
payload for the next place. It changes nothing in the chain. -/
theorem walk_of_cuts (moment : Moment) {i size : Nat} {slot : Slot Builtin} (w : Wrapper)
    (hs : c.slots[i]? = some slot) (hslot : Cuts slot size)
    (hnext : (c.route i).continuation i = i + 1) :
    ∃ pieces, (c.walk moment i w).ending = .generated ⟨i + 1, pieces⟩ ∧
      (c.walk moment i w).chain = c ∧
      pieces.map Message.asBytes = chunks size w.working.asBytes := by
  obtain ⟨r, stage⟩ := slot
  obtain ⟨key, rfl⟩ := hslot.stage
  have hmeets : meets r.expect w.working = .ok () := by
    rcases hslot.expect with h | h
    · rw [show r.expect = none from h]
      rfl
    · rw [show r.expect = some .raw from h]
      rfl
  obtain ⟨pieces, hsplit, hbytes⟩ :=
    Splitter.split_bytes (s := { size, key }) rfl (Splitter.familyName moment.fresh) w.working
  obtain ⟨hdone, hchain⟩ := visit_splitter (c := c) moment i hmeets hsplit
  rw [hnext] at hdone
  obtain ⟨hend, hafter⟩ := walk_done moment w hs hdone
  exact ⟨pieces, hend, hafter.trans (hchain.trans (setStage_self hs)), hbytes⟩

end Chain

namespace Call

/-! ## What a row delivers -/

/-- The second call has delivered these payloads more than the first, in order, and nothing else has
come of them; it is at the same chain. -/
structure Delivers (c d : Call Builtin) (parts : List Bytes) : Prop where
  chain : d.chain = c.chain
  delivered : d.output.delivered.map (·.working.asBytes) =
    c.output.delivered.map (·.working.asBytes) ++ parts
  dropped : d.output.dropped = c.output.dropped
  held : d.output.held = c.output.held
  errors : d.output.errors = c.output.errors

variable {c d e : Call Builtin} {clock : Clock} {sizes : List Nat}

theorem Delivers.trans {parts more : List Bytes} (h : c.Delivers d parts)
    (h' : d.Delivers e more) : c.Delivers e (parts ++ more) where
  chain := h'.chain.trans h.chain
  delivered := by rw [h'.delivered, h.delivered, List.append_assoc]
  dropped := h'.dropped.trans h.dropped
  held := h'.held.trans h.held
  errors := h'.errors.trans h.errors

/-- What a walk delivers is delivered by the call, if the walk leaves the chain as it was. -/
theorem delivers_record {i : Nat} {w : Wrapper} {ws : List Wrapper}
    (hout : outputOf (c.walk clock i w).ending = { delivered := ws })
    (hchain : (c.walk clock i w).chain = c.chain) :
    c.Delivers (c.record (c.walk clock i w)) (ws.map (·.working.asBytes)) := by
  have houtput : (c.record (c.walk clock i w)).output = c.output.append { delivered := ws } :=
    congrArg c.output.append hout
  refine ⟨hchain, ?_, ?_, ?_, ?_⟩ <;> rw [houtput]
  · exact List.map_append
  · rfl
  · rfl
  · exact List.append_nil _

/-- If all that comes of a message is delivered in parts, so is all that comes of a family. -/
theorem finish_delivers {depth i : Nat} {f : Bytes → List Bytes} {chain : Chain Builtin}
    (h : ∀ (c : Call Builtin) (m : Message), c.chain = chain →
      ∃ d, descend clock depth c i (.ofMessage m) = .ok d ∧ c.Delivers d (f m.asBytes))
    (pieces : List Message) (hc : c.chain = chain) :
    ∃ d, finish clock depth c ⟨i, pieces⟩ = .ok d ∧
      c.Delivers d ((pieces.map Message.asBytes).flatMap f) := by
  induction pieces generalizing c with
  | nil => exact ⟨c, rfl, rfl, (List.append_nil _).symm, rfl, rfl, rfl⟩
  | cons m more ih =>
    obtain ⟨d, hd, hdelivers⟩ := h c m hc
    obtain ⟨e, he, hmore⟩ := ih (hdelivers.chain.trans hc)
    refine ⟨e, ?_, hdelivers.trans hmore⟩
    rw [finish_cons, hd]
    exact he

/-- A row delivers what comes to it in the smallest chunks. By induction on the row: the pieces that
one splitter makes are sent to the next in order, each with all that comes of it. -/
theorem descend_row {i : Nat} (hrow : c.chain.Row i sizes) (w : Wrapper)
    (hw : w.accepted = true) :
    ∃ d, descend clock (sizes.length + 1) c i w = .ok d ∧
      c.Delivers d (cutAll sizes w.working.asBytes) := by
  induction sizes generalizing c i w with
  | nil =>
    have hwalk : c.walk clock i w = { ending := .delivered w, chain := c.chain } := by
      rw [walk, Chain.walk, Chain.walkFrom_end _ _ _ hrow, hw]
      rfl
    have hend := congrArg Chain.Walk.ending hwalk
    have hdone : (c.walk clock i w).ending ≠ .crashed := fun h ↦ by cases hend.symm.trans h
    refine ⟨c.record (c.walk clock i w), ?_, ?_⟩
    · rw [descend_succ clock _ c hdone, hend]
      rfl
    · exact delivers_record (congrArg outputOf hend) (congrArg Chain.Walk.chain hwalk)
  | cons size sizes ih =>
    obtain ⟨⟨slot, hs, hslot, hnext⟩, hrest⟩ := hrow
    obtain ⟨pieces, hend, hchain, hbytes⟩ := Chain.walk_of_cuts (c.moment clock) w hs hslot hnext
    have hfirst : c.Delivers (c.record (c.walk clock i w)) [] :=
      delivers_record (congrArg outputOf hend) hchain
    obtain ⟨d, hd, hdelivers⟩ := finish_delivers (c := c.record (c.walk clock i w))
      (fun c m hc ↦ ih (hc ▸ hrest) (.ofMessage m) rfl) pieces hfirst.chain
    have hdone : (c.walk clock i w).ending ≠ .crashed := fun h ↦ by cases hend.symm.trans h
    refine ⟨d, ?_, ?_⟩
    · rw [descend_succ clock _ c hdone, hend]
      refine (finishAll_cons clock _ _ ⟨i + 1, pieces⟩ []).trans ?_
      rw [List.length_cons, hd]
      rfl
    · rw [cutAll, ← hbytes]
      exact hfirst.trans hdelivers

end Call

namespace Chain

variable {c : Chain Builtin} {sizes : List Nat}

/-- A call to a row of splitters returns, and delivers the payload in the smallest chunks. -/
theorem process_row (hp : c.pending = []) (hrow : c.Row 0 sizes) (moment : Moment) (m : Message) :
    ∃ patience, ∀ more, patience ≤ more →
      (c.process more moment m).progress = .returned ∧
        (Call.opening moment c).Delivers (c.process more moment m) (cutAll sizes m.asBytes) := by
  have hopen : c.withPending [] = c := by rw [← hp, withPending_pending]
  have hrow : (Call.opening moment c).chain.Row 0 sizes := by
    rwa [show (Call.opening moment c).chain = c from hopen]
  obtain ⟨d, hd, hdelivers⟩ :
      ∃ d, Call.descend moment.clock (sizes.length + 1) (.opening moment c) 0 (.ofMessage m) =
        .ok d ∧ (Call.opening moment c).Delivers d (cutAll sizes m.asBytes) :=
    Call.descend_row hrow (.ofMessage m) rfl
  have heval : c.evaluate (sizes.length + 1) moment m = .ok d := by
    rw [evaluate, hp]
    exact hd
  have hclear := clear_evaluate heval
  obtain ⟨patience, hagrees⟩ := exists_process_of_evaluate (Call.finished_of_ok heval)
  rw [heval] at hagrees
  have hprocess : c.process patience moment m = d := hagrees.trans (Call.atop_nil hclear)
  have hdone : (c.process patience moment m).progress ≠ .unfinished := by
    rw [hprocess, hclear.progress]
    intro h
    cases h
  refine ⟨patience, fun more hmore ↦ ?_⟩
  rw [Call.process_le hmore hdone, hprocess]
  exact ⟨hclear.progress, hdelivers⟩

/-- A chain of nothing but splitters of bytes, of any sizes and without targets for their pieces,
takes any payload: a call returns and delivers pieces that in order make the payload, none of them
empty and none longer than any of the sizes. Nothing is dropped, held or in error. -/
theorem pieces_reassemble (hc : c.Compiled) (hp : c.pending = [])
    (hslots : List.Forall₂ Cuts c.slots sizes) (hsizes : sizes ≠ [])
    (hpos : ∀ size ∈ sizes, 0 < size) (moment : Moment) (m : Message) :
    ∃ patience, ∀ more, patience ≤ more →
      let call := c.process more moment m
      call.progress = .returned ∧
        (call.output.delivered.map (·.working.asBytes)).flatten = m.asBytes ∧
        (∀ w ∈ call.output.delivered, w.working.asBytes ≠ [] ∧
          ∀ size ∈ sizes, w.working.asBytes.length ≤ size) ∧
        call.output.dropped = 0 ∧ call.output.held = 0 ∧ call.output.errors = [] := by
  obtain ⟨patience, hprocess⟩ := process_row hp (row_of_forall₂ hc hslots) moment m
  refine ⟨patience, fun more hmore ↦ ?_⟩
  obtain ⟨hreturned, hdelivers⟩ := hprocess more hmore
  have hparts := hdelivers.delivered
  refine ⟨hreturned, ?_, fun w hw ↦ ?_, hdelivers.dropped, hdelivers.held, hdelivers.errors⟩
  · rw [hparts]
    exact flatten_cutAll hpos m.asBytes
  · have hpart : w.working.asBytes ∈ cutAll sizes m.asBytes := by
      have hmem := List.mem_map_of_mem (f := fun w : Wrapper ↦ w.working.asBytes) hw
      rwa [hparts] at hmem
    exact ⟨ne_nil_of_mem_cutAll hsizes hpart, length_le_of_mem_cutAll hpos hpart⟩

/-- Three splitters in a row, of sizes that do not go into each other. The first one sends copies to
a queue and adds metadata, the second one expects raw messages. -/
def mincer : Chain Builtin where
  id := "mincer"
  slots := [
    ⟨{ name := some "coarse", redirect := ["copies"], metadata := [("cut", .null)] },
      .splitter { size := 4 }⟩,
    ⟨{ expect := some .raw }, .splitter { size := 3 }⟩,
    ⟨{ goto := some "" }, .splitter { size := 2 }⟩]
  plan := { routes := [{}, {}, {}] }

theorem pieces_reassemble_mincer :
    let m := Message.ofDocument "t" (.array [.bool true, .null])
    ∃ patience, ∀ more, patience ≤ more →
      let call := mincer.process more ⟨0, 0⟩ m
      call.progress = .returned ∧
        (call.output.delivered.map (·.working.asBytes)).flatten = m.asBytes ∧
        (∀ w ∈ call.output.delivered, w.working.asBytes ≠ [] ∧
          ∀ size ∈ [4, 3, 2], w.working.asBytes.length ≤ size) ∧
        call.output.dropped = 0 ∧ call.output.held = 0 ∧ call.output.errors = [] := by
  have hslots : List.Forall₂ Cuts mincer.slots [4, 3, 2] :=
    .cons ⟨⟨_, rfl⟩, rfl, .inl rfl⟩ <| .cons ⟨⟨_, rfl⟩, rfl, .inr rfl⟩ <|
      .cons ⟨⟨_, rfl⟩, rfl, .inl rfl⟩ .nil
  exact pieces_reassemble (c := mincer) rfl rfl hslots (List.cons_ne_nil _ _) (by decide) _ _

end Chain

end Conduit
