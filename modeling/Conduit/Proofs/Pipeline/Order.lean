import Conduit.Proofs.Pipeline.Cargo
import Conduit.Proofs.Stage.Holding
import Mathlib.Data.List.Flatten

/-!
# Order in a run, and between runs

The journal of a run keeps track of it: the messages that were run, followed by those on their way,
are a part of what was received, in the same order, and the wrappers that were handed out, followed
by those on their way, a part of what the chain let through (`Journal.Tracks`). So messages are run,
and wrappers handed out, in order and at most once, in each run and over all of them.

A run leaves nothing to the next one. Its queues go with it, and the next one begins with a chain
that was stopped: no pieces are pending, and no stage holds a message (`History.runs_in_order`).
-/

namespace Conduit

open Stage

variable {σ : Type}

/-! ## Journals keep track -/

namespace Journal

variable [Behaviour σ]

section Note

variable (j : Journal σ) (deed : Option (Deed σ))

omit [Behaviour σ] in
@[simp] theorem opened_note : (j.note deed).opened = j.opened := by
  rcases deed with _ | d
  · rfl
  · cases d <;> rfl

omit [Behaviour σ] in
theorem received_note : (j.note deed).received = j.received ++ Deed.arrived deed := by
  rcases deed with _ | d
  · simp [note, Deed.arrived]
  · cases d <;> simp [note, Deed.arrived]

omit [Behaviour σ] in
theorem handed_note : (j.note deed).handed = j.handed ++ Deed.passedOn deed := by
  rcases deed with _ | d
  · simp [note, Deed.passedOn]
  · cases d <;> simp [note, Deed.passedOn]

omit [Behaviour σ] in
theorem ran_note : (j.note deed).ran = j.ran ++ Deed.shown deed := by
  rcases deed with _ | d
  · simp [note, ran, Deed.shown]
  · cases d with
    | ran x => cases x <;> simp [note, ran, Deed.shown, Input.message?]
    | _ => simp [note, ran, Deed.shown]

omit [Behaviour σ] in
theorem rung_note : (j.note deed).rung = j.rung ++ Deed.rung deed := by
  rcases deed with _ | d
  · simp [note, rung, Deed.rung]
  · cases d with
    | ran x => cases x <;> simp [note, rung, Deed.rung, Input.alarm?]
    | _ => simp [note, rung, Deed.rung]

theorem gather_note {α : Type} (f : Input → Call σ → List α) :
    (j.note deed).opened.gather f (j.note deed).inputs =
      j.opened.gather f j.inputs ++ Deed.gather (j.opened.upon j.inputs) f deed := by
  rcases deed with _ | d
  · simp [note, Deed.gather]
  · cases d with
    | ran x => exact Chain.gather_concat f j.opened j.inputs x
    | _ => simp [note, Deed.gather]

theorem upon_note :
    (j.note deed).opened.upon (j.note deed).inputs = Deed.chain (j.opened.upon j.inputs) deed := by
  rcases deed with _ | d
  · rfl
  · cases d with
    | ran x => exact Chain.upon_concat j.opened j.inputs x
    | _ => rfl

end Note

/-- What a journal says in the end: messages were run and wrappers handed out in order, and each at
most once; alarms were rung that had been set in the same run. -/
structure Sound (j : Journal σ) : Prop where
  ran : j.ran.Sublist j.received
  handed : j.handed.Sublist j.delivered
  rung : j.rung ⊆ j.set

/-- A journal of a run that is live, with what is on its way in the run. -/
structure Tracks (j : Journal σ) (m : Machine σ) (r : Run) : Prop where
  incoming : (j.ran ++ r.incoming).Sublist j.received
  outgoing : (j.handed ++ r.outgoing).Sublist j.delivered
  rung : j.rung ⊆ j.set
  working : (∃ exit, r.processor = .leaving exit) ∨
    m.chain = some (j.opened.upon j.inputs) ∧ r.alarmed ⊆ j.set

variable {j : Journal σ} {m : Machine σ} {r : Run}

theorem Tracks.sound (h : j.Tracks m r) : j.Sound where
  ran := (List.sublist_append_left _ _).trans h.incoming
  handed := (List.sublist_append_left _ _).trans h.outgoing
  rung := h.rung

/-- What a journal has to be told of a move so that it keeps track. -/
theorem Tracks.note {deed : Option (Deed σ)} {m' : Machine σ} {r' : Run} (h : j.Tracks m r)
    (hin : (Deed.shown deed ++ r'.incoming).Sublist (r.incoming ++ Deed.arrived deed))
    (hout : (Deed.passedOn deed ++ r'.outgoing).Sublist
      (r.outgoing ++ Deed.answered (j.opened.upon j.inputs) deed))
    (hrung : Deed.rung deed ⊆ j.set)
    (hworking : (∃ exit, r'.processor = .leaving exit) ∨
      m'.chain = some (Deed.chain (j.opened.upon j.inputs) deed) ∧
        r'.alarmed ⊆ j.set ++ Deed.set (j.opened.upon j.inputs) deed) :
    (j.note deed).Tracks m' r' where
  incoming := by
    rw [ran_note, received_note, List.append_assoc]
    refine ((List.Sublist.refl j.ran).append hin).trans ?_
    rw [← List.append_assoc]
    exact h.incoming.append (.refl _)
  outgoing := by
    have hdelivered : (j.note deed).delivered =
        j.delivered ++ Deed.answered (j.opened.upon j.inputs) deed := gather_note j deed _
    rw [handed_note, hdelivered, List.append_assoc]
    refine ((List.Sublist.refl j.handed).append hout).trans ?_
    rw [← List.append_assoc]
    exact h.outgoing.append (.refl _)
  rung := by
    have hset : (j.note deed).set = j.set ++ Deed.set (j.opened.upon j.inputs) deed :=
      gather_note j deed _
    rw [rung_note, hset]
    exact List.append_subset.2 ⟨List.subset_append_of_subset_left _ h.rung,
      List.subset_append_of_subset_left _ hrung⟩
  working := by
    have hset : (j.note deed).set = j.set ++ Deed.set (j.opened.upon j.inputs) deed :=
      gather_note j deed _
    rwa [upon_note, hset]

theorem Tracks.of_receiver {type : String} {deed : Option (Deed σ)} {s : Receiver.Share}
    (h : j.Tracks m r) (hd : Receiver.Does type (m.receiverShare r) deed s) :
    (j.note deed).Tracks (m.withReceiver r s) (r.withReceiver s) := by
  have hout : Deed.passedOn deed = [] := by cases hd <;> rfl
  refine h.note ?_ ?_ ?_ ?_
  · rw [Deed.shown_of_quiet hd.ne_ran, List.nil_append, Run.incoming, Run.incoming,
      List.append_assoc]
    exact (List.Sublist.refl r.processor.inHand).append hd.incoming
  · rw [hout]
    exact List.sublist_append_left _ _
  · simp [Deed.rung_of_quiet hd.ne_ran]
  · rw [Deed.chain_of_quiet hd.ne_ran]
    exact h.working.imp_right fun hw ↦ ⟨hw.1, List.subset_append_of_subset_left _ hw.2⟩

theorem Tracks.of_sender {type : String} {deed : Option (Deed σ)} {s : Sender.Share}
    (h : j.Tracks m r) (hd : Sender.Does type (m.senderShare r) deed s) :
    (j.note deed).Tracks (m.withSender r s) (r.withSender s) := by
  refine h.note ?_ ?_ ?_ ?_
  · rw [Deed.shown_of_quiet hd.ne_ran]
    exact List.sublist_append_left _ _
  · have hitems : Deed.passedOn deed ++ s.outbound.items = r.outbound.items := hd.outgoing
    rw [Run.outgoing, ← List.append_assoc]
    exact hitems ▸ List.sublist_append_left _ _
  · simp [Deed.rung_of_quiet hd.ne_ran]
  · rw [Deed.chain_of_quiet hd.ne_ran]
    exact h.working.imp_right fun hw ↦ ⟨hw.1, List.subset_append_of_subset_left _ hw.2⟩

theorem Tracks.of_processor {deed : Option (Deed σ)} {s : Processor.Share σ}
    (h : j.Tracks m r) (hd : Processor.Does (m.processorShare r) deed s) :
    (j.note deed).Tracks (m.withProcessor r s) (r.withProcessor s) := by
  have hin : Deed.arrived deed = [] := by cases hd <;> rfl
  have hhanded : Deed.passedOn deed = [] := by cases hd <;> rfl
  have hincoming : (Deed.shown deed ++ (r.withProcessor s).incoming).Sublist
      (r.incoming ++ Deed.arrived deed) := by
    rw [hin, List.append_nil, Run.incoming, Run.incoming, ← List.append_assoc, ← List.append_assoc,
      ← List.append_assoc, List.append_assoc (Deed.shown deed)]
    exact hd.incoming.append (.refl r.receiver.inHand)
  rcases h.working with ⟨exit, hl⟩ | ⟨hc, halarmed⟩
  · obtain ⟨rfl, ⟨exit', hl'⟩, hitems⟩ := hd.of_leaving hl
    refine h.note hincoming ?_ (List.nil_subset _) (.inl ⟨exit', hl'⟩)
    have hsame : (r.withProcessor s).outgoing = r.outbound.items := by
      simp [Run.outgoing, Run.withProcessor, hitems, hl', Processor.leftover,
        Machine.processorShare]
    rw [hhanded, List.nil_append, hsame]
    exact (List.sublist_append_left _ _).trans (List.sublist_append_left _ _)
  · refine h.note hincoming ?_ ?_ ?_
    · rw [hhanded, List.nil_append]
      exact hd.outgoing hc
    · exact fun a ha ↦ halarmed (List.mem_append_right _ (List.mem_append_right _ (hd.rung ha)))
    · refine (hd.working hc).imp_right fun hw ↦ ⟨hw.1, fun a ha ↦ List.mem_append.2 ?_⟩
      exact (hw.2 a ha).imp_left (halarmed ·)

theorem Tracks.of_alarms {r' : Run} (h : j.Tracks m r) (hd : r.Rings r') :
    j.Tracks (m.setRun r') r' where
  incoming := by
    rw [Run.incoming, hd.processor, hd.raw, hd.receiver]
    exact h.incoming
  outgoing := by
    rw [Run.outgoing, hd.outbound, hd.processor]
    exact h.outgoing
  rung := h.rung
  working := by
    rw [hd.processor]
    exact h.working.imp_right fun hw ↦ ⟨hw.1, fun a ha ↦ hw.2 (hd.alarmed ha)⟩

theorem tracks_begin (c : Chain σ) (hc : m.chain = some c) (raw : Queue Message)
    (alarms : Queue Alarm) (outbound : Queue Wrapper) (hraw : raw.items = [])
    (halarms : alarms.items = []) (hout : outbound.items = []) :
    ({ opened := c } : Journal σ).Tracks m { raw, alarms, outbound } where
  incoming := by simp [Run.incoming, ran, hraw, Processor.inHand, Receiver.inHand]
  outgoing := by simp [Run.outgoing, hout, Processor.leftover]
  rung := List.nil_subset _
  working := .inr ⟨hc, by simp [Run.alarmed, halarms, Processor.alarms]⟩

/-- A journal does not notice what does not touch its run. -/
theorem Tracks.of_machine {m' : Machine σ} (h : j.Tracks m r) (hc : m'.chain = m.chain) :
    j.Tracks m' r :=
  { h with working := h.working.imp_right fun hw ↦ ⟨hc.trans hw.1, hw.2⟩ }

/-- To tear a run down does nothing to what is on its way. -/
theorem exists_tracks_of_tears {m' : Machine σ} {phase phase' : Phase} (hr : m.run = some r)
    (ht : m.Tears r phase m' phase') :
    ∃ r', m'.run = some r' ∧ ∀ j : Journal σ, j.Tracks m r → j.Tracks m' r' := by
  cases ht with
  | deactivate => exact ⟨r, hr, fun _ h ↦ h.of_machine rfl⟩
  | look => exact ⟨r, hr, fun _ h ↦ h⟩
  | mark failed => cases failed <;> exact ⟨r, hr, fun _ h ↦ h.of_machine rfl⟩
  | stop => exact ⟨r, hr, fun _ h ↦ h⟩
  | close => exact ⟨_, rfl, fun _ h ↦ ⟨h.incoming, h.outgoing, h.rung, h.working⟩⟩
  | joinReceiver =>
    exact ⟨r, (Machine.run_join m _ _).trans hr,
      fun _ h ↦ h.of_machine (Machine.chain_join m (by decide) _)⟩
  | wake => exact ⟨_, rfl, fun _ h ↦ ⟨h.incoming, h.outgoing, h.rung, h.working⟩⟩
  | joinProcessor hg =>
    exact ⟨r, (Machine.run_join m _ _).trans hr,
      fun _ h ↦ { h with working := .inl ⟨_, Machine.gone?_process hg⟩ }⟩
  | joinSender =>
    exact ⟨r, (Machine.run_join m _ _).trans hr,
      fun _ h ↦ h.of_machine (Machine.chain_join m (by decide) _)⟩

omit [Behaviour σ] in
/-- What is not the beginning of a run goes into the latest journal. -/
theorem noteAll_cons {deed : Option (Deed σ)} (h : ∀ c, deed ≠ some (.began c)) (j : Journal σ)
    (earlier : List (Journal σ)) : noteAll (j :: earlier) deed = j.note deed :: earlier := by
  rcases deed with _ | d
  · rfl
  · cases d with
    | began c => exact absurd rfl (h c)
    | _ => rfl

omit [Behaviour σ] in
@[simp] theorem noteAll_none (journals : List (Journal σ)) : noteAll journals none = journals := by
  cases journals <;> rfl

end Journal

/-! ## Runs -/

/-- The chain that a run begins with has been started, and was stopped before if it has been in a
run. -/
def Journal.Fresh (c : Chain σ) [Behaviour σ] : List (Journal σ) → Prop
  | [] => True
  | j :: earlier =>
    Fresh c earlier ∧
      ∃ now d, j.opened = d.start now ∧ if earlier = [] then d = c else ∃ e : Chain σ, d = e.stop

namespace Journal.Fresh

variable [Behaviour σ] {c : Chain σ} {journals : List (Journal σ)}

/-- All runs but the first begin with a chain that was stopped. -/
theorem stopped (h : Fresh c journals) :
    ∀ j ∈ journals.dropLast, ∃ (e : Chain σ) (now : Instant), j.opened = e.stop.start now := by
  induction journals with
  | nil => exact fun j hj ↦ (List.not_mem_nil hj).elim
  | cons j earlier ih =>
    obtain ⟨hrest, now, d, hd, hfrom⟩ := h
    cases earlier with
    | nil => exact fun j hj ↦ (List.not_mem_nil hj).elim
    | cons j' earlier =>
      obtain ⟨e, rfl⟩ := hfrom
      intro j₁ hj₁
      rcases List.mem_cons.1 hj₁ with rfl | hj₁
      · exact ⟨e, now, hd⟩
      · exact ih hrest j₁ hj₁

/-- The first run begins with the chain of the machine. -/
theorem first (h : Fresh c journals) :
    ∀ j ∈ journals.getLast?, ∃ now : Instant, j.opened = c.start now := by
  induction journals with
  | nil => exact fun j hj ↦ by cases hj
  | cons j earlier ih =>
    obtain ⟨hrest, now, d, hd, hfrom⟩ := h
    cases earlier with
    | nil =>
      obtain rfl : d = c := hfrom
      rintro j₁ ⟨⟩
      exact ⟨now, hd⟩
    | cons j' earlier => exact fun j₁ hj₁ ↦ ih hrest j₁ (by simpa using hj₁)

end Journal.Fresh

namespace History

variable [Behaviour σ]

/-- All journals are sound, the one of a live run keeps track of it, and each run began afresh. -/
structure Ordered (c : Chain σ) (h : History σ) : Prop where
  sound : ∀ j ∈ h.journals, j.Sound
  live : ∀ r, h.machine.run = some r → ∃ j earlier, h.journals = j :: earlier ∧ j.Tracks h.machine r
  fresh : Journal.Fresh c h.journals
  rested : h.machine.run = none → ∀ d, h.machine.chain = some d →
    if h.journals = [] then d = c else ∃ e : Chain σ, d = e.stop

variable {c : Chain σ} {h : History σ} {m' : Machine σ} {r : Run}

/-- A journal of a live run is kept by what keeps track. -/
theorem Ordered.of_run {r' : Run} {deed : Option (Deed σ)} (ho : h.Ordered c)
    (hr : h.machine.run = some r) (hr' : m'.run = some r')
    (hdeed : ∀ d, deed ≠ some (.began d))
    (htracks : ∀ j : Journal σ, j.Tracks h.machine r → (j.note deed).Tracks m' r') :
    Ordered c ⟨m', Journal.noteAll h.journals deed⟩ := by
  obtain ⟨j, earlier, hj, ht⟩ := ho.live r hr
  have hnote : Journal.noteAll h.journals deed = j.note deed :: earlier := by
    rw [hj]
    exact Journal.noteAll_cons hdeed j earlier
  have ht' := htracks j ht
  have hsound := ho.sound
  have hfresh := ho.fresh
  rw [hj] at hsound hfresh
  rw [hnote]
  refine ⟨fun j' hj' ↦ ?_, fun r₁ hr₁ ↦ ?_, ⟨hfresh.1, ?_⟩, fun hnone ↦ ?_⟩
  · rcases List.mem_cons.1 hj' with rfl | hj'
    · exact ht'.sound
    · exact hsound j' (List.mem_cons_of_mem _ hj')
  · cases hr'.symm.trans hr₁
    exact ⟨_, _, rfl, ht'⟩
  · rw [Journal.opened_note]
    exact hfresh.2
  · cases hr'.symm.trans hnone

/-- What leaves things alone leaves journals alone. -/
theorem Ordered.of_rests (ho : h.Ordered c) (hm : h.machine.Rests m') :
    Ordered c ⟨m', h.journals⟩ where
  sound := ho.sound
  live r hr := by
    have hr₀ : h.machine.run = some r := hm.run ▸ hr
    obtain ⟨j, earlier, hj, ht⟩ := ho.live r hr₀
    refine ⟨j, earlier, hj, ht.of_machine (hm.chain.resolve_right fun hn ↦ ?_)⟩
    cases hr₀.symm.trans hn.1
  fresh := ho.fresh
  rested hnone d hd := by
    rcases hm.chain with hc | hc
    · exact ho.rested (hm.run ▸ hnone) d (hc ▸ hd)
    · cases hc.2.symm.trans hd

/-- Whatever a machine does keeps the journals in order. -/
theorem Ordered.of_does {deed : Option (Deed σ)} (ho : h.Ordered c) (hm : h.machine.Orderly)
    (hd : h.machine.Does deed m') : Ordered c ⟨m', Journal.noteAll h.journals deed⟩ := by
  cases hd with
  | receiver hr hd => exact ho.of_run hr rfl hd.ne_began fun _ ht ↦ ht.of_receiver hd
  | sender hr hd => exact ho.of_run hr rfl hd.ne_began fun _ ht ↦ ht.of_sender hd
  | processor hr hd => exact ho.of_run hr rfl hd.ne_began fun _ ht ↦ ht.of_processor hd
  | alarms hr hd => exact ho.of_run hr rfl (fun _ he ↦ by cases he) fun _ ht ↦ ht.of_alarms hd
  | controller hd =>
    rcases Machine.controls_cases hd with ⟨rfl, hm'⟩ | ⟨e, now, rfl, hs, hc, hc', -, -, -, hr'⟩ |
      ⟨reason, phase, phase', r, m₁, rfl, -, hr, ht, rfl⟩ | ⟨reason, r, rfl, -, hr, hm'⟩
    · rw [Journal.noteAll_none]
      exact ho.of_rests hm'
    · have hnone : h.machine.run = none := hm.resting (.inl hs)
      have ht : ({ opened := e.start now } : Journal σ).Tracks m' _ :=
        Journal.tracks_begin (e.start now) hc' { capacity := h.machine.sizing.inbound }
          { capacity := h.machine.sizing.events } { capacity := h.machine.sizing.outbound }
          rfl rfl rfl
      refine ⟨fun j hj ↦ ?_, fun r hr ↦ ?_, ⟨ho.fresh, now, e, rfl, ho.rested hnone e hc⟩,
        fun hn ↦ ?_⟩
      · rcases List.mem_cons.1 hj with rfl | hj
        · exact ht.sound
        · exact ho.sound j hj
      · cases hr'.symm.trans hr
        exact ⟨_, _, rfl, ht⟩
      · cases hr'.symm.trans hn
    · obtain ⟨r', hr', ht'⟩ := Journal.exists_tracks_of_tears hr ht
      exact ho.of_run hr hr' (fun _ he ↦ by cases he) fun j hj ↦ (ht' j hj).of_machine rfl
    · obtain ⟨j, earlier, hj, -⟩ := ho.live r hr
      have hcleared : Ordered c ⟨h.machine.clear r, h.journals⟩ := by
        refine ⟨ho.sound, fun _ hr₁ ↦ (by cases hr₁), ho.fresh, fun _ d hd ↦ ?_⟩
        obtain ⟨e, -, rfl⟩ := Option.map_eq_some_iff.1 hd
        rw [if_neg (by simp [hj])]
        exact ⟨e, rfl⟩
      rw [Journal.noteAll_none]
      exact hcleared.of_rests hm'

theorem Ordered.of_host (ho : h.Ordered c) (requests : List Request)
    (replies : List (Except PipelineError Lifecycle)) :
    Ordered c { h with machine := { h.machine with requests, replies } } where
  sound := ho.sound
  live r hr := (ho.live r hr).imp fun _ ↦ .imp fun _ hj ↦ ⟨hj.1, hj.2.of_machine rfl⟩
  fresh := ho.fresh
  rested := ho.rested

theorem ordered_ready (sizing : Config.Sizing) (inboundType outboundType : String) (c : Chain σ) :
    (Machine.ready sizing inboundType outboundType c).history.Ordered c where
  sound _ hj := (List.not_mem_nil hj).elim
  live _ hr := by cases hr
  fresh := trivial
  rested _ _ hd := (Option.some.inj hd).symm

/-- What is true of a machine that is ready, and is kept while runs and journals are in order, is
true after all acts, and so is the order. -/
theorem ready_induction {P : History σ → Prop} (sizing : Config.Sizing)
    (inboundType outboundType : String) (c : Chain σ) (acts : List Act)
    (ready : P (Machine.ready sizing inboundType outboundType c).history)
    (host : ∀ h requests replies, P h →
      P { h with machine := { h.machine with requests, replies } })
    (does : ∀ h deed m, h.machine.Orderly → h.Ordered c → P h → h.machine.Does deed m →
      P ⟨m, Journal.noteAll h.journals deed⟩) :
    let h := (Machine.ready sizing inboundType outboundType c).history.after acts
    h.machine.Orderly ∧ h.Ordered c ∧ P h :=
  after_induction (P := fun h ↦ h.machine.Orderly ∧ h.Ordered c ∧ P h) acts
    ⟨Machine.orderly_ready sizing inboundType outboundType c,
      ordered_ready sizing inboundType outboundType c, ready⟩
    (fun h requests replies ⟨hm, ho, hp⟩ ↦
      ⟨hm.of_host requests replies, ho.of_host requests replies, host h requests replies hp⟩)
    fun h deed m ⟨hm, ho, hp⟩ hd ↦ ⟨hm.of_does hd, ho.of_does hm hd, does h deed m hm ho hp hd⟩

/-! ## Over all runs -/

section

variable (h : History σ)

omit [Behaviour σ] in
/-- The messages that the inbound connector returned, over all runs. -/
def received : List Message := h.journals.reverse.flatMap (·.received)

omit [Behaviour σ] in
/-- The messages that were run through the chain, over all runs. -/
def ran : List Message := h.journals.reverse.flatMap (·.ran)

/-- What the chain let through, input by input, over all runs. -/
def delivered : List Wrapper := h.journals.reverse.flatMap (·.delivered)

omit [Behaviour σ] in
/-- The wrappers that were handed to the outbound connector, over all runs. -/
def handed : List Wrapper := h.journals.reverse.flatMap (·.handed)

end

end History

/-- A chain has no message left: no pieces are pending, and no stage holds one. -/
structure Chain.Empty (c : Chain Builtin) : Prop where
  pending : c.pending = []
  held : ∀ slot ∈ c.slots, slot.stage.held = none

/-- A chain that was stopped is empty when it is started. -/
theorem Chain.empty_start_stop (c : Chain Builtin) (now : Instant) : (c.stop.start now).Empty where
  pending := rfl
  held slot hslot := by
    obtain ⟨slot₁, h₁, rfl⟩ := List.mem_map.1 hslot
    obtain ⟨slot₂, -, rfl⟩ := List.mem_map.1 h₁
    exact (Builtin.held_start now _).trans (Builtin.held_stop _)

/-- Whatever everybody does in whatever order, and however often the pipeline is started and
stopped: over all runs, the wrappers that are handed out are a part of what the chain lets through,
in the same order, and the messages that are run a part of what is received. The same is true of
each run by itself, so that nothing is run or handed out that was received or queued in another run;
and a run that is not the first begins with an empty chain, so that nothing goes on that was held or
pending. -/
theorem History.runs_in_order (sizing : Config.Sizing) (inboundType outboundType : String)
    (c : Chain Builtin) (acts : List Act) :
    let h := (Machine.ready sizing inboundType outboundType c).history.after acts
    h.handed.Sublist h.delivered ∧ h.ran.Sublist h.received ∧
      (∀ j ∈ h.journals,
        j.handed.Sublist j.delivered ∧ j.ran.Sublist j.received ∧ j.rung ⊆ j.set) ∧
      (∀ j ∈ h.journals.dropLast, j.opened.Empty) ∧
      ∀ j ∈ h.journals.getLast?, ∃ now, j.opened = c.start now := by
  intro h
  have ho : h.Ordered c :=
    (ready_induction (P := fun _ ↦ True) sizing inboundType outboundType c acts trivial
      (fun _ _ _ _ ↦ trivial) fun _ _ _ _ _ _ _ ↦ trivial).2.1
  refine ⟨?_, ?_, fun j hj ↦ ?_, fun j hj ↦ ?_, ho.fresh.first⟩
  · exact List.Sublist.flatMap_right _ fun j hj ↦ (ho.sound j (List.mem_reverse.1 hj)).handed
  · exact List.Sublist.flatMap_right _ fun j hj ↦ (ho.sound j (List.mem_reverse.1 hj)).ran
  · exact ⟨(ho.sound j hj).handed, (ho.sound j hj).ran, (ho.sound j hj).rung⟩
  · obtain ⟨e, now, he⟩ := ho.fresh.stopped j hj
    rw [he]
    exact e.empty_start_stop now

end Conduit
