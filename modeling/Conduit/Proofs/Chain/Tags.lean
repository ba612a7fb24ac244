import Conduit.Proofs.Chain.Along
import Conduit.Proofs.Chain.Journeys
import Conduit.Proofs.Stage.Reworks

/-!
# The tags of pieces

A splitter puts a tag on each piece of a family, and no stage takes it off: the tag is on the piece
wherever it arrives, whatever has become of its payload and topic on the way, and however often it
was held (`Message.Arrives.chunk`). If all pieces of a family arrive, the tags that arrive are those
that the splitter has put on; and if none of them is held, they arrive in order
(`Call.exists_drain_family`). Both are in `Chain.tags_kept`.
-/

namespace Conduit

open Stage

/-! ## Tags that splitters put on -/

namespace Stage

namespace Splitter

/-- The tags of a family of pieces, in order. -/
def tags (name : String) (total : Nat) : List (Option ChunkTag) :=
  (List.range total).map fun k ↦ some (tag name k total)

theorem chunk_tagged (name : String) (parts : List Message) :
    (tagged name parts).map (·.chunk) = tags name (tagged name parts).length := by
  have hlength : (tagged name parts).length = parts.length := by simp [tagged]
  rw [hlength, tags, tagged, List.map_map, List.range_eq_range', ← List.zipIdx_map_snd 0 parts,
    List.map_map]
  rfl

theorem exists_tagged_of_split {s : Splitter} {name : String} {m : Message}
    {pieces : List Message} (h : s.split name m = .ok pieces) :
    ∃ parts, pieces = tagged name parts := by
  unfold split at h
  split at h
  · cases h
    exact ⟨_, rfl⟩
  · obtain ⟨parts, -, rfl⟩ := map_eq_ok h
    exact ⟨parts, rfl⟩

end Splitter

/-- The pieces that a stage makes have the tags of one family, in order. -/
theorem Builtin.tags_of_generate {moment : Moment} {s : Builtin} {w u : Wrapper}
    {pieces : List Message} (h : (Behaviour.process moment s w).outcome = .generate u pieces) :
    ∃ name, pieces.map (·.chunk) = Splitter.tags name pieces.length := by
  have hkind := isGenerator_of_generate h
  cases s with
  | splitter s =>
    change (s.process moment w).outcome = .generate u pieces at h
    unfold Splitter.process at h
    split at h
    · rename_i hsplit
      cases h
      obtain ⟨parts, rfl⟩ := Splitter.exists_tagged_of_split hsplit
      exact ⟨_, Splitter.chunk_tagged _ parts⟩
    · cases h
  | _ => cases hkind

end Stage

/-! ## Tags along a walk -/

namespace Chain

variable {c : Chain Builtin} {moment : Moment} {i : Nat} {w w' : Wrapper} {v : Visit}
  {g : Generation}

/-- What a visit hands on has the tag of what the stage was shown, and pieces that it ends in have
the tags of their own family. -/
theorem carries_tag (tag : Option ChunkTag) :
    Carries (fun _ : Chain Builtin ↦ True) (fun _ w ↦ w.working.chunk = tag) fun _ v ↦
      v.entered.working.chunk = tag ∧ ∀ g, v.next = .done (.generated g) →
        ∃ name, g.pieces.map (·.chunk) = Splitter.tags name g.pieces.length where
  visit before moment c i slot w _ _ hw := by
    obtain ⟨hentered, hcases⟩ := visit_cases moment c i slot w
    generalize Chain.visit moment c i slot w = s at hentered hcases ⊢
    have hentry : s.visit.entered.working.chunk = tag := by rw [hentered]; exact hw
    rcases hcases with ⟨-, -, e, hnext⟩ | ⟨-, hfollow⟩
    · refine ⟨trivial, ⟨hentry, fun g hg ↦ ?_⟩, fun j w' hgo ↦ ?_⟩
      · cases hnext.symm.trans hg
      · cases hnext.symm.trans hgo
    · obtain ⟨hnext, -⟩ := Prod.mk.inj hfollow
      refine ⟨trivial, ⟨hentry, fun g hg ↦ ?_⟩, fun j w' hgo ↦ ?_⟩
      · obtain ⟨⟨u, hu⟩, -⟩ := generate_of_follow_generated (hnext.symm.trans hg)
        exact Builtin.tags_of_generate hu
      · obtain ⟨u, hu, rfl⟩ := wrapper_of_follow_go (hnext.symm.trans hgo)
        exact (Builtin.reworks_of_process (congrArg Outcome.wrapper? hu)).chunk.trans hentry

theorem chunk_of_delivered (h : (c.walk moment i w).ending = .delivered w') :
    w'.working.chunk = w.working.chunk := by
  obtain ⟨-, -, hend⟩ := (carries_tag w.working.chunk).walkFrom moment c.hopLimit c i w [] trivial rfl
  rcases hend with ⟨u, hu, he⟩ | ⟨n, he⟩ | ⟨v, -, -, hne⟩
  · rw [walk, he] at h
    split at h <;> cases h
    exact hu
  · cases he.symm.trans h
  · exact absurd h (hne w')

/-- What is said of tags is so at every visit. -/
theorem tag_of_visit (h : v ∈ (c.walk moment i w).visits) :
    v.entered.working.chunk = w.working.chunk ∧ ∀ g, v.next = .done (.generated g) →
      ∃ name, g.pieces.map (·.chunk) = Splitter.tags name g.pieces.length := by
  obtain ⟨-, hvisits, -⟩ :=
    (carries_tag w.working.chunk).walkFrom moment c.hopLimit c i w [] trivial rfl
  obtain ⟨front, back, hsplit⟩ := List.append_of_mem h
  exact hvisits front v back hsplit

theorem tags_of_generated (h : (c.walk moment i w).ending = .generated g) :
    ∃ name, g.pieces.map (·.chunk) = Splitter.tags name g.pieces.length := by
  obtain ⟨-, -, hend⟩ :=
    (carries_tag w.working.chunk).walkFrom moment c.hopLimit c i w [] trivial rfl
  rcases hend with ⟨u, -, he⟩ | ⟨n, he⟩ | ⟨v, hlast, hv, -⟩
  · rw [walk, he] at h
    split at h <;> cases h
  · cases he.symm.trans h
  · exact (tag_of_visit (List.mem_of_getLast? hlast)).2 g (hv.trans (congrArg Next.done h))

end Chain

namespace Message

variable {m : Message} {w : Wrapper}

/-- A message sets out with its tag, also after a hold. -/
theorem SetsOut.chunk {c : Chain Builtin} {moment : Moment} {i : Nat}
    (h : m.SetsOut c moment i w) : w.working.chunk = m.chunk := by
  induction h with
  | enters => rfl
  | released _ _ hlast _ _ ih => exact (Chain.tag_of_visit (List.mem_of_getLast? hlast)).1.trans ih

theorem Arrives.chunk (h : m.Arrives w) : w.working.chunk = m.chunk := by
  obtain ⟨c, moment, i, u, hsets, hend⟩ := h
  exact (Chain.chunk_of_delivered hend).trans hsets.chunk

theorem chunk_of_arrive {ms : List Message} {ws : List Wrapper}
    (h : List.Forall₂ Arrives ms ws) : ws.map (·.working.chunk) = ms.map (·.chunk) := by
  induction h with
  | nil => rfl
  | cons h _ ih => rw [List.map_cons, List.map_cons, h.chunk, ih]

end Message

/-! ## Families of which nothing is held -/

namespace Output

theorem append_empty (a : Output) : a ++ {} = a := by
  change a.append {} = a
  simp [append]

theorem append_assoc (a b c : Output) : a ++ b ++ c = a ++ (b ++ c) := by
  change (a.append b).append c = a.append (b.append c)
  simp [append, List.append_assoc, Nat.add_assoc]

end Output

namespace Call

variable {clock : Clock} {c : Call Builtin}

/-- What is delivered by the walk with which it enters, has nothing come of it. -/
theorem enter_of_delivered {e : Entry} {w : Wrapper}
    (h : (c.walk clock e.place (.ofMessage e.message)).ending = .delivered w) :
    enter clock 1 c e = .ok (c.record (c.walk clock e.place (.ofMessage e.message))) := by
  have hdone : (c.walk clock e.place (.ofMessage e.message)).ending ≠ .crashed :=
    fun he ↦ by cases he.symm.trans h
  rw [enter, descend_succ clock 0 c hdone, h]
  rfl

/-- If each piece of a family is delivered by the walk with which it enters, the family is used up
after one step for each of them and one more, and has been delivered in order. By induction on the
pieces, since each of them leaves the call in another state for the next. -/
theorem exists_drain_family (hc : c.Clear) (i : Nat) (pieces : List Message)
    (h : ∀ e, Enters clock c (Generation.entries ⟨i, pieces⟩) e →
      ∃ w, (e.walk clock).ending = .delivered w) :
    ∃ (d : Call Builtin) (ws : List Wrapper), d.output = c.output ++ { delivered := ws } ∧
      List.Forall₂ Message.Arrives pieces ws ∧
      ∀ patience rest, drain clock (patience + (pieces.length + 1)) (c.atop (⟨i, pieces⟩ :: rest)) =
        drain clock patience (d.atop rest) := by
  induction pieces generalizing c with
  | nil =>
    exact ⟨c, [], (Output.append_empty _).symm, .nil, fun patience ↦ drain_atop_used patience i c⟩
  | cons m more ih =>
    obtain ⟨w, hw⟩ := h ⟨c, ⟨i, m⟩⟩ (enters_head c _ _)
    have hdone : (c.walk clock i (.ofMessage m)).ending ≠ .crashed :=
      fun he ↦ by cases he.symm.trans hw
    have hrecord := clear_record hc hdone
    obtain ⟨d, ws, houtput, hws, hdrain⟩ :=
      ih hrecord fun e he ↦ h e (he.cons (enter_of_delivered hw))
    refine ⟨d, w :: ws, ?_, .cons ⟨_, _, i, _, .enters .., hw⟩ hws, fun patience rest ↦ ?_⟩
    · have hone : (c.record (c.walk clock i (.ofMessage m))).output =
          c.output ++ { delivered := [w] } := congrArg (c.output ++ outputOf ·) hw
      rw [houtput, hone, Output.append_assoc]
      rfl
    · have hnone : pendingOf (c.walk clock i (.ofMessage m)).ending = [] := congrArg pendingOf hw
      rw [List.length_cons, ← Nat.add_assoc, drain_atop_piece, send_atop, hnone,
        List.nil_append, atop_andThen hrecord, hdrain]

end Call

namespace Chain

/-- A message keeps its tag until it arrives, whatever stages it goes through on the way, scripts
among them, and however often it is held; a splitter would have put other messages in its place. So
what an empty chain delivers, in the course of any inputs, has the tag of a message that it was
given or of a piece that was made on the way.

If a walk in a call ends in pieces, they are tagged as one family; and where all of them arrive, so
do all of their tags and no others. If each piece is delivered by the walk with which it enters,
the call delivers them next, in order of their tags, and then goes on with what was pending. -/
theorem tags_kept :
    (∀ {m : Message} {w : Wrapper}, m.Arrives w → w.working.chunk = m.chunk) ∧
    (∀ {c : Chain Builtin}, c.Empty → ∀ xs,
      ∀ w ∈ c.gather (fun _ call ↦ call.output.delivered) xs,
        ∃ m ∈ c.sources xs, m.Arrives w ∧ w.working.chunk = m.chunk) ∧
    ∀ {clock : Clock} {call : Call Builtin} {i : Nat} {w : Wrapper} {g : Generation},
      (call.walk clock i w).ending = .generated g →
      ∃ name, g.pieces.map (·.chunk) = Splitter.tags name g.pieces.length ∧
        (∀ ws, List.Forall₂ Message.Arrives g.pieces ws →
          ws.map (·.working.chunk) = Splitter.tags name g.pieces.length) ∧
        (call.Clear →
          (∀ e, Call.Enters clock (call.record (call.walk clock i w)) g.entries e →
            ∃ w, (e.walk clock).ending = .delivered w) →
          ∃ (d : Call Builtin) (ws : List Wrapper),
            d.output = call.output ++ { delivered := ws } ∧
            List.Forall₂ Message.Arrives g.pieces ws ∧
            ws.map (·.working.chunk) = Splitter.tags name g.pieces.length ∧
            ∀ patience pending,
              Call.drain clock (patience + (g.pieces.length + 1))
                  ((call.atop pending).send clock i w) =
                Call.drain clock patience (d.atop pending)) := by
  refine ⟨Message.Arrives.chunk, fun hc xs w hw ↦ ?_, fun {clock call i w g} hend ↦ ?_⟩
  · obtain ⟨m, hm, harrives⟩ := hc.exists_source xs hw
    exact ⟨m, hm, harrives, harrives.chunk⟩
  · obtain ⟨name, htags⟩ := tags_of_generated hend
    refine ⟨name, htags, fun ws hws ↦ (Message.chunk_of_arrive hws).trans htags, ?_⟩
    intro hclear henters
    have hdone : (call.walk clock i w).ending ≠ .crashed := fun he ↦ by cases he.symm.trans hend
    obtain ⟨d, ws, houtput, hws, hdrain⟩ :=
      Call.exists_drain_family (Call.clear_record hclear hdone) g.continuation g.pieces henters
    have hsame : (call.record (call.walk clock i w)).output = call.output :=
      (congrArg (call.output ++ Call.outputOf ·) hend).trans (Output.append_empty _)
    refine ⟨d, ws, hsame ▸ houtput, hws, (Message.chunk_of_arrive hws).trans htags, ?_⟩
    intro patience pending
    rw [Call.send_atop, hend]
    exact hdrain patience pending

/-- A splitter, a builder that makes new payloads and topics, and a throttle with a rate. -/
def workshop (rate : Nat) : Chain Builtin where
  id := "workshop"
  slots := [
    ⟨{}, .splitter { size := 1 }⟩,
    ⟨{}, .builder { template := .object [("made", .bool true)], topic := some "goods" }⟩,
    ⟨{}, .throttle { rate, period := 5, mode := .delay }⟩]
  plan := { routes := [{}, {}, {}] }

/-- What comes of two bytes: the two pieces, and the goods that they are made into. -/
def crude : List Message := Splitter.tagged "0" [.ofRaw "t" [1], .ofRaw "t" [2]]

def goods (k : Nat) : Message :=
  ⟨"goods", .document (.object [("made", .bool true)]), some (Splitter.tag "0" k 2)⟩

theorem arrives_at_once : crude[0].Arrives { incoming := crude[0], working := goods 0 } :=
  ⟨workshop 1, ⟨0, 1⟩, 1, _, .enters .., by decide +kernel⟩

/-- The second piece is held, and arrives when it is let go. -/
theorem arrives_released : crude[1].Arrives { incoming := goods 1, working := goods 1 } := by
  let c := ((workshop 1).walk ⟨0, 1⟩ 1 (.ofMessage crude[0])).chain
  let slot : Slot Builtin := ⟨{}, .throttle ⟨1, 5, .delay, some 0, 1, some (goods 1), 1, true⟩⟩
  have hheld : (c.walk ⟨0, 1⟩ 1 (.ofMessage crude[1])).ending = .held := by decide +kernel
  have hlast : (c.walk ⟨0, 1⟩ 1 (.ofMessage crude[1])).visits.getLast? = some
      { stage := 2, entered := { incoming := crude[1], working := goods 1 }, next := .done .held,
        timers := [⟨5, 1⟩] } := by decide +kernel
  have hslot : (c.walk ⟨0, 1⟩ 1 (.ofMessage crude[1])).chain.slots[2]? = some slot := by
    with_unfolding_all rfl
  have hgoes : (Behaviour.expire (Moment.mk 5 1).now slot.stage 1).result =
      .ok (some (goods 1)) := rfl
  have hagain := (Message.SetsOut.enters (m := crude[1]) c ⟨0, 1⟩ 1).released hheld hlast hslot hgoes
  exact ⟨_, _, _, _, hagain, by decide +kernel⟩

/-- With a rate of one, the second piece is held and arrives when it is let go; with a rate of two,
both are delivered in turn. They arrive as other messages, and with their tags. -/
theorem tags_kept_workshop :
    let whole := Wrapper.ofMessage (.ofRaw "t" [1, 2])
    let call := fun rate ↦ Call.opening ⟨0, 0⟩ (workshop rate)
    let xs := [.message 5 ⟨0, 0⟩ whole.working, .alarm 5 ⟨5, 1⟩ ⟨5, 2, 1⟩]
    (∀ rate ∈ [1, 2], ((call rate).walk 0 0 whole).ending = .generated ⟨1, crude⟩) ∧
    (∃ w v, List.Forall₂ Message.Arrives crude [w, v] ∧ v.working = goods 1 ∧
      v.working.chunk = crude[1].chunk ∧
      [w, v].map (·.working.chunk) = Splitter.tags "0" 2) ∧
    (∃ w ∈ (workshop 1).gather (fun _ call ↦ call.output.delivered) xs, w.working = goods 1 ∧
      ∃ m ∈ (workshop 1).sources xs, m.Arrives w ∧ w.working.chunk = m.chunk) ∧
    ∃ d : Call Builtin, d.output.delivered.map (·.working.chunk) = Splitter.tags "0" 2 ∧
      ∀ patience, Call.drain 0 (patience + 3) ((call 2).send 0 0 whole) =
        Call.drain 0 patience (d.atop []) := by
  intro whole call xs
  obtain ⟨hkept, hgathered, hfamily⟩ := tags_kept
  have hmade : ∀ rate ∈ [1, 2], ((call rate).walk 0 0 whole).ending = .generated ⟨1, crude⟩ := by
    decide +kernel
  have htags : crude.map (·.chunk) = Splitter.tags "0" 2 := by decide +kernel
  refine ⟨hmade, ?_, ?_, ?_⟩
  · obtain ⟨name, hname, harrive, -⟩ := hfamily (hmade 1 (by decide))
    have hpieces : List.Forall₂ Message.Arrives crude [_, _] :=
      .cons arrives_at_once (.cons arrives_released .nil)
    exact ⟨_, _, hpieces, rfl, hkept arrives_released,
      (harrive _ hpieces).trans (hname.symm.trans htags)⟩
  · obtain ⟨w, hw, hgoods⟩ : ∃ w ∈ (workshop 1).gather (fun _ call ↦ call.output.delivered) xs,
        w.working = goods 1 := by decide +kernel
    exact ⟨w, hw, hgoods, hgathered ⟨rfl, by decide⟩ xs w hw⟩
  · obtain ⟨name, hname, -, horder⟩ := hfamily (hmade 2 (by decide))
    let first := (call 2).record ((call 2).walk 0 0 whole)
    let second := first.record (first.walk 0 1 (.ofMessage crude[0]))
    have hfirst : (first.walk 0 1 (.ofMessage crude[0])).ending =
        .delivered { incoming := crude[0], working := goods 0 } := by decide +kernel
    have hsecond : (second.walk 0 1 (.ofMessage crude[1])).ending =
        .delivered { incoming := crude[1], working := goods 1 } := by decide +kernel
    have hturns : ∀ e, Call.Enters 0 first [⟨1, crude[0]⟩, ⟨1, crude[1]⟩] e →
        ∃ w, (e.walk 0).ending = .delivered w := by
      intro e he
      have hone := Call.enter_of_delivered (e := ⟨1, crude[0]⟩) hfirst
      have htwo := Call.enter_of_delivered (e := ⟨1, crude[1]⟩) hsecond
      rcases (Call.enters_cons_iff hone e).1 he with rfl | he
      · exact ⟨_, hfirst⟩
      rcases (Call.enters_cons_iff htwo e).1 he with rfl | he
      · exact ⟨_, hsecond⟩
      · exact absurd he (Call.not_enters_nil _ e)
    obtain ⟨d, ws, houtput, -, hws, hdrain⟩ := horder (Call.clear_opening ..) hturns
    have hdelivered : d.output.delivered = ws := congrArg Output.delivered houtput
    refine ⟨d, ?_, fun patience ↦ hdrain patience []⟩
    rw [hdelivered, hws, ← hname, htags]

end Chain

end Conduit
