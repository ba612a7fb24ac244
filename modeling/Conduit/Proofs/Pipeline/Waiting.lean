import Conduit.Proofs.Chain.Awaiting
import Conduit.Proofs.Pipeline.Exits
import Conduit.Proofs.Pipeline.Order

/-!
# Held messages and their alarms

A stage that holds a message waits for an alarm. As long as the processor works, the alarms of a run
that are set, have gone off or are being handled are those that the chain waits for, each once, but
for the alarms that the full queue has refused (`Run.Minded`). So a message is let go sooner or
later unless its alarm is refused, and none is refused by a queue that has room for one alarm of
each throttle in delay mode (`History.held_alarmed`).
-/

namespace Conduit

open Stage

/-! ## Alarms that are set and go off -/

namespace Alarm

theorem perm_insert (a : Alarm) (alarms : List Alarm) : (insert a alarms).Perm (a :: alarms) := by
  induction alarms with
  | nil => exact .refl _
  | cons b rest ih =>
    unfold insert
    split
    · exact .refl _
    · exact (ih.cons b).trans (.swap a b rest)

theorem perm_insertAll (alarms new : List Alarm) : (insertAll alarms new).Perm (alarms ++ new) := by
  induction new generalizing alarms with
  | nil => simp [insertAll]
  | cons a rest ih =>
    refine (ih (insert a alarms)).trans ?_
    exact ((perm_insert a alarms).append_right rest).trans List.perm_middle.symm

end Alarm

/-- An alarm that goes off stays under way, or is refused by the full queue. -/
theorem Run.Rings.alarmed_cases {r r' : Run} (h : r.Rings r') :
    r'.alarms.capacity = r.alarms.capacity ∧
      ((r'.alarms.rejected = r.alarms.rejected ∧ r'.alarmed.Perm r.alarmed) ∨
        r.alarms.isFull = true ∧ r'.alarms.rejected = r.alarms.rejected + 1 ∧
          r.alarms.items.length < r.alarmed.length ∧ ∃ a, r.alarmed.Perm (a :: r'.alarmed)) := by
  have htaken {i : Nat} {a : Alarm} (ha : r.timers[i]? = some a) :
      r.timers.Perm (a :: r.timers.eraseIdx i) := by
    obtain ⟨hi, rfl⟩ := List.getElem?_eq_some_iff.1 ha
    exact (List.getElem_cons_eraseIdx_perm hi).symm
  cases h with
  | @ring i a ha =>
    refine ⟨rfl, .inl ⟨rfl, ?_⟩⟩
    simp only [Run.alarmed]
    refine .trans ?_ ((htaken ha).symm.append_right _)
    simp only [List.append_assoc, List.cons_append]
    refine .trans ?_ List.perm_middle
    exact List.perm_middle.append_left _
  | @lose i a ha hf =>
    refine ⟨rfl, .inr ⟨hf, rfl, ?_, a, (htaken ha).append_right _⟩⟩
    have hpos := List.length_pos_of_mem (List.mem_of_getElem? ha)
    simp only [Run.alarmed, List.length_append]
    omega
  | signal => exact ⟨rfl, .inl ⟨rfl, .refl _⟩⟩

/-! ## What the processor does to alarms -/

namespace Processor

variable {σ : Type} [Behaviour σ] {s s' : Share σ} {deed : Option (Deed σ)}

/-- The alarms of a run, as the processor sees them. -/
def Share.alarmed (s : Share σ) : List Alarm := s.timers ++ (s.alarms.items ++ s.processor.alarms)

/-- The processor refuses no alarm. -/
theorem Does.alarms_eq (h : Does s deed s') :
    s'.alarms.capacity = s.alarms.capacity ∧ s'.alarms.rejected = s.alarms.rejected := by
  cases h <;> exact ⟨rfl, rfl⟩

omit [Behaviour σ] in
/-- What the processor is about to show to the chain is the first alarm in its hand, if any. -/
theorem exists_alarms_of_input? {p : Processor} {patience : Nat} {moment : Moment} {x : Input}
    (h : p.input? patience moment = some x) : ∃ rest, p.alarms = x.alarm?.toList ++ rest := by
  cases p with
  | running m =>
    cases h
    exact ⟨[], rfl⟩
  | handling alarms =>
    cases alarms with
    | nil => cases h
    | cons a rest =>
      cases h
      exact ⟨rest, rfl⟩
  | _ => cases h

omit [Behaviour σ] in
theorem Share.alarmed_perm {x : Input} (rest : List Alarm)
    (h : s.processor.alarms = x.alarm?.toList ++ rest) :
    s.alarmed.Perm (x.alarm?.toList ++ (s.timers ++ (s.alarms.items ++ rest))) := by
  rw [Share.alarmed, h, ← List.append_assoc]
  refine (List.perm_append_comm_assoc _ _ _).trans ?_
  rw [List.append_assoc]

/-- Unless it shows something to the chain, the processor takes alarms from the queue in its hand,
or leaves. -/
theorem Does.alarmed_cases (h : Does s deed s') :
    (s'.chain = s.chain ∧ ((∃ exit, s'.processor = .leaving exit) ∨ s'.alarmed = s.alarmed)) ∨
      ∃ c patience moment x rest, s.processor.input? patience moment = some x ∧
        s.chain = some c ∧ s'.chain = some (c.respond x).chain ∧
        s.alarmed.Perm (x.alarm?.toList ++ rest) ∧ ((∃ exit, s'.processor = .leaving exit) ∨
          s'.alarmed.Perm (rest ++ Alarm.ofVisits moment.clock (c.respond x).visits)) := by
  have hset (clock : Clock) (visits : List Visit) (rest : List Alarm) :
      (Alarm.insertAll s.timers (Alarm.ofVisits clock visits) ++ (s.alarms.items ++ rest)).Perm
        (s.timers ++ (s.alarms.items ++ rest) ++ Alarm.ofVisits clock visits) := by
    refine ((Alarm.perm_insertAll _ _).append_right _).trans ?_
    rw [List.append_assoc, List.append_assoc]
    exact List.perm_append_comm.append_left _
  cases h with
  | @answerAlarm c a rest patience moment hpos hc hp =>
    exact .inr ⟨c, patience, moment, .alarm patience moment a, _, by rw [hpos]; rfl, hc, rfl,
      Share.alarmed_perm rest (congrArg alarms hpos), .inr (hset moment.clock _ rest)⟩
  | @answerMessage c m patience moment hpos hc hp =>
    exact .inr ⟨c, patience, moment, .message patience moment m, _, by rw [hpos]; rfl, hc, rfl,
      Share.alarmed_perm [] (congrArg alarms hpos), .inr (hset moment.clock _ [])⟩
  | @breakDown c x patience moment hx hc hp =>
    obtain ⟨rest, hin⟩ := exists_alarms_of_input? hx
    exact .inr ⟨c, patience, moment, x, _, hx, hc, rfl, Share.alarmed_perm rest hin, .inl ⟨_, rfl⟩⟩
  | quit => exact .inl ⟨rfl, .inl ⟨_, rfl⟩⟩
  | leave => exact .inl ⟨rfl, .inl ⟨_, rfl⟩⟩
  | look h =>
    refine .inl ⟨rfl, .inr ?_⟩
    split <;> simp [Share.alarmed, alarms, h]
  | @resume next h =>
    refine .inl ⟨rfl, .inr ?_⟩
    cases next <;> simp [Share.alarmed, alarms, Errand.resume, h]
  | @count o next h =>
    refine .inl ⟨rfl, .inr ?_⟩
    cases next <;> simp [Share.alarmed, alarms, h]
  | @queue w ws next h =>
    refine .inl ⟨rfl, .inr ?_⟩
    cases next <;> simp [Share.alarmed, alarms, h]
  | @overflow w ws next h =>
    refine .inl ⟨rfl, .inr ?_⟩
    cases next <;> simp [Share.alarmed, alarms, h]
  | _ =>
    rename_i h
    refine .inl ⟨rfl, .inr ?_⟩
    simp [Share.alarmed, alarms, *]

/-- As long as the run is to go on, the processor leaves only when a stage breaks down. -/
theorem Does.isBroken {exit : Exit} (h : Does s deed s')
    (hs : s.board.active = true → ∀ exit, s.processor = .leaving exit → exit.isBroken = true)
    (ha : s'.board.active = true) (hl : s'.processor = .leaving exit) : exit.isBroken = true := by
  rw [h.active] at ha
  cases h with
  | quit h hq => cases hq.symm.trans ha
  | breakDown =>
    cases hl
    rfl
  | leave hpos he =>
    cases hl
    exact he.isBroken.trans (hs ha _ hpos)
  | look => split at hl <;> cases hl
  | @resume next => cases next <;> cases hl
  | _ => cases hl

end Processor

/-! ## A run and its chain -/

/-- As long as the processor works, the alarms of the run are those that the chain waits for, but
for those that were refused, and none is refused if all of them fit into the queue. -/
structure Run.Minded (events delays : Nat) (chain : Option (Chain Builtin)) (r : Run) : Prop where
  capacity : r.alarms.capacity = events
  working : (∃ exit, r.processor = .leaving exit) ∨ ∃ d, chain = some d ∧
    d.Attended delays r.alarmed r.alarms.rejected ∧
    (events = 0 ∨ delays ≤ events → r.alarms.rejected = 0)

namespace Run.Minded

variable {events delays : Nat} {chain : Option (Chain Builtin)} {r r' : Run}

/-- What does not touch alarms nor the processor does not matter. -/
theorem of_eq (h : r.Minded events delays chain) (halarms : r'.alarms = r.alarms)
    (htimers : r'.timers = r.timers) (hprocessor : r'.processor = r.processor) :
    r'.Minded events delays chain where
  capacity := halarms ▸ h.capacity
  working := by
    rw [Run.alarmed, halarms, htimers, hprocessor]
    exact h.working

/-- A queue that all alarms fit into is not full when one goes off. -/
theorem of_rings (h : r.Minded events delays chain) (hr : r.Rings r') :
    r'.Minded events delays chain := by
  obtain ⟨hcapacity, hcases⟩ := hr.alarmed_cases
  refine ⟨hcapacity.trans h.capacity, ?_⟩
  rw [hr.processor]
  refine h.working.imp_right ?_
  rintro ⟨d, hd, hattended, hroom⟩
  refine ⟨d, hd, ?_⟩
  rcases hcases with ⟨hrejected, hperm⟩ | ⟨hfull, hrejected, hlt, a, hperm⟩ <;> rw [hrejected]
  · exact ⟨hattended.of_perm hperm, hroom⟩
  · -- the full queue and the alarm that it refuses are more than the chain waits for, if all fit
    refine ⟨(hattended.of_perm hperm.symm).refuse, fun hfits ↦ ?_⟩
    have hle := hattended.length_le
    simp only [Queue.isFull, Queue.size, Bool.and_eq_true, decide_eq_true_eq, h.capacity] at hfull
    omega

theorem of_processor {m : Machine Builtin} {deed : Option (Deed Builtin)}
    {s : Processor.Share Builtin} (h : r.Minded events delays m.chain)
    (hdelays : ∀ d, m.chain = some d → d.delays = delays)
    (hd : Processor.Does (m.processorShare r) deed s) :
    (r.withProcessor s).Minded events delays s.chain ∧
      ∀ d, s.chain = some d → d.delays = delays := by
  obtain ⟨hcapacity, hrejected⟩ := hd.alarms_eq
  rcases hd.alarmed_cases with ⟨hchain, halarmed⟩ |
    ⟨c, patience, moment, x, rest, hx, hc, hchain, hbefore, hafter⟩
  · refine ⟨⟨hcapacity.trans h.capacity, ?_⟩, fun d hd' ↦ hdelays d (hchain.symm.trans hd')⟩
    rcases h.working with ⟨exit, hl⟩ | ⟨d, hd', hattended, hroom⟩
    · exact .inl (hd.of_leaving hl).2.1
    · refine halarmed.imp_right fun he ↦ ⟨d, hchain.trans hd', ?_, fun hfits ↦ ?_⟩
      · have he : (r.withProcessor s).alarmed = r.alarmed := he
        rw [he]
        exact hrejected ▸ hattended
      · exact hrejected.trans (hroom hfits)
  · -- it shows something to the chain, so it has not left
    obtain ⟨d, hd', hattended, hroom⟩ := h.working.resolve_left fun ⟨exit, hl⟩ ↦ by
      have hx : r.processor.input? patience moment = some x := hx
      rw [hl] at hx
      cases hx
    cases hd'.symm.trans hc
    have hresponse := hattended.respond hbefore moment.clock
    refine ⟨⟨hcapacity.trans h.capacity, ?_⟩, fun d hd' ↦ ?_⟩
    · refine hafter.imp_right fun hp ↦ ⟨_, hchain, ?_, fun hfits ↦ hrejected.trans (hroom hfits)⟩
      have hresponse' := hresponse.of_perm hp
      exact hrejected ▸ hresponse'
    · cases hchain.symm.trans hd'
      exact hresponse.delays

end Run.Minded

/-! ## The controller -/

namespace Machine

section Sizing

variable {σ : Type} {m m' : Machine σ}

theorem sizing_afterwards (m : Machine σ) (reason : Reason) :
    (m.afterwards reason).sizing = m.sizing := by
  cases reason with
  | failure => rfl
  | request r =>
    cases r with
    | start => rfl
    | terminate => rfl
    | stop =>
      unfold afterwards
      dsimp only
      split <;> rfl
    | restart =>
      unfold afterwards
      dsimp only
      split <;> rfl

theorem sizing_tearDown (m : Machine σ) (reason : Reason) :
    (m.tearDown reason).sizing = m.sizing := by
  unfold tearDown
  split
  · rfl
  · exact sizing_afterwards m reason

theorem sizing_join (m : Machine σ) (w : Worker) (broken : Bool) :
    (m.join w broken).sizing = m.sizing := by
  cases broken <;> cases w <;> rfl

theorem Controls.sizing [Behaviour σ] {deed : Option (Deed σ)} (h : m.Controls deed m') :
    m'.sizing = m.sizing := by
  cases h with
  | @accept request rest h hq =>
    rcases take_cases { m with requests := rest } request with ⟨answer, ha⟩ | ⟨q, hr⟩
    · rw [ha]
      rfl
    · rw [hr]
      exact sizing_tearDown _ _
  | notice => exact sizing_tearDown _ _
  | ignore => rfl
  | giveUp => rfl
  | begin => rfl
  | tear h hr ht =>
    cases ht with
    | mark failed => cases failed <;> rfl
    | joinReceiver => exact sizing_join m _ _
    | joinProcessor => exact sizing_join m _ _
    | joinSender => exact sizing_join m _ _
    | _ => rfl
  | clear => exact sizing_afterwards _ _

end Sizing

/-! ## All that a machine does -/

/-- The alarms of the run, if one is live, are those that the chain waits for, as far as they fit
into the queue. -/
structure Minds (events delays : Nat) (m : Machine Builtin) : Prop where
  sized : m.sizing.events = events
  shape : ∀ d, m.chain = some d → d.delays = delays
  run : ∀ r, m.run = some r → r.Minded events delays m.chain
  isBroken : ∀ r exit, m.run = some r → m.board.active = true → r.processor = .leaving exit →
    exit.isBroken = true

namespace Minds

variable {events delays : Nat} {m m' : Machine Builtin} {r r' : Run}

/-- What a run does that is live before and after. -/
theorem of_run (h : m.Minds events delays) (hr : m.run = some r) (hr' : m'.run = some r')
    (hsizing : m'.sizing = m.sizing) (hchain : m'.chain = m.chain)
    (hactive : m'.board.active = true → m.board.active = true)
    (hprocessor : r'.processor = r.processor)
    (hminded : r.Minded events delays m.chain → r'.Minded events delays m.chain) :
    m'.Minds events delays where
  sized := hsizing ▸ h.sized
  shape d hd := h.shape d (hchain ▸ hd)
  run r₁ hr₁ := by
    cases hr'.symm.trans hr₁
    rw [hchain]
    exact hminded (h.run r hr)
  isBroken r₁ exit hr₁ ha hl := by
    cases hr'.symm.trans hr₁
    exact h.isBroken r exit hr (hactive ha) (hprocessor.symm.trans hl)

theorem of_rests (h : m.Minds events delays) (hm : m.Rests m') (hsizing : m'.sizing = m.sizing) :
    m'.Minds events delays := by
  cases hr : m.run with
  | some r =>
    refine h.of_run hr (hm.run.trans hr) hsizing ?_ (hm.active ▸ id) rfl id
    exact hm.chain.resolve_right fun hn ↦ by cases hr.symm.trans hn.1
  | none =>
    have hr' : m'.run = none := hm.run.trans hr
    refine ⟨hsizing ▸ h.sized, fun d hd ↦ ?_, fun r₁ hr₁ ↦ ?_, fun r₁ exit hr₁ ↦ ?_⟩
    · rcases hm.chain with hc | ⟨-, hc⟩
      · exact h.shape d (hc ▸ hd)
      · cases hc.symm.trans hd
    · cases hr'.symm.trans hr₁
    · cases hr'.symm.trans hr₁

theorem of_tears {phase phase' : Phase} (h : m.Minds events delays) (hr : m.run = some r)
    (ht : m.Tears r phase m' phase') (hsizing : m'.sizing = m.sizing) :
    m'.Minds events delays := by
  cases ht with
  | deactivate => exact h.of_run hr hr rfl rfl (fun ha ↦ by cases ha) rfl id
  | look => exact h
  | mark failed => cases failed <;> exact h.of_run hr hr rfl rfl id rfl id
  | stop => exact h
  | close => exact h.of_run hr rfl rfl rfl id rfl fun hm ↦ hm.of_eq rfl rfl rfl
  | joinReceiver =>
    exact h.of_run hr ((run_join m _ _).trans hr) hsizing (chain_join m (by decide) _)
      (by rw [active_join]; exact id) rfl id
  | wake => exact h.of_run hr rfl rfl rfl id rfl fun hm ↦ hm.of_eq rfl rfl rfl
  | @joinProcessor broken hg =>
    -- the processor has left, so nothing is said of its alarms, nor of the chain if that is gone
    have hr' : (m.join .process broken).run = some r := (run_join m _ _).trans hr
    refine ⟨hsizing ▸ h.sized, fun d hd ↦ ?_, fun r₁ hr₁ ↦ ?_, fun r₁ exit hr₁ ha hl ↦ ?_⟩
    · cases broken with
      | false => exact h.shape d hd
      | true => cases hd
    · cases hr'.symm.trans hr₁
      exact ⟨(h.run r hr).capacity, .inl ⟨_, gone?_process hg⟩⟩
    · cases hr'.symm.trans hr₁
      exact h.isBroken r exit hr (active_join m _ _ ▸ ha) hl
  | joinSender =>
    exact h.of_run hr ((run_join m _ _).trans hr) hsizing (chain_join m (by decide) _)
      (by rw [active_join]; exact id) rfl id

/-- A run that begins has no alarms, and its chain waits for none. -/
theorem of_begin {d : Chain Builtin} (h : m.Minds events delays) (hd : d.Idle)
    (hdelays : d.delays = delays) (hsizing : m'.sizing = m.sizing) (hchain : m'.chain = some d)
    {raw : Queue Message} {outbound : Queue Wrapper}
    (hr' : m'.run = some { raw, alarms := { capacity := m.sizing.events }, outbound }) :
    m'.Minds events delays where
  sized := hsizing ▸ h.sized
  shape d' hd' := by
    cases hchain.symm.trans hd'
    exact hdelays
  run r₁ hr₁ := by
    cases hr'.symm.trans hr₁
    exact ⟨h.sized, .inr ⟨d, hchain, hdelays ▸ hd.attended, fun _ ↦ rfl⟩⟩
  isBroken r₁ exit hr₁ _ hl := by
    cases hr'.symm.trans hr₁
    cases hl

theorem of_does {c : Chain Builtin} {h : History Builtin} {deed : Option (Deed Builtin)}
    (hc : c.Idle) (hm : h.machine.Orderly) (ho : h.Ordered c)
    (hp : h.machine.Minds events delays) (hd : h.machine.Does deed m') :
    m'.Minds events delays := by
  cases hd with
  | receiver hr hd =>
    exact hp.of_run hr rfl rfl rfl (hd.active ▸ id) rfl fun hw ↦ hw.of_eq rfl rfl rfl
  | sender hr hd =>
    exact hp.of_run hr rfl rfl rfl (hd.active ▸ id) rfl fun hw ↦ hw.of_eq rfl rfl rfl
  | @processor r deed s hr hd =>
    obtain ⟨hminded, hshape⟩ := (hp.run r hr).of_processor hp.shape hd
    refine ⟨hp.sized, hshape, ?_, ?_⟩
    · rintro r₁ ⟨⟩
      exact hminded
    · rintro r₁ exit ⟨⟩ ha hl
      exact hd.isBroken (fun ha exit ↦ hp.isBroken r exit hr ha) ha hl
  | alarms hr hd => exact hp.of_run hr rfl rfl rfl id hd.processor fun hw ↦ hw.of_rings hd
  | controller hd =>
    have hsizing := hd.sizing
    rcases controls_cases hd with ⟨rfl, hm'⟩ | ⟨e, now, rfl, hs, he, he', -, -, -, hr'⟩ |
      ⟨reason, phase, phase', r, m₁, rfl, -, hr, ht, rfl⟩ | ⟨reason, r, rfl, -, hr, hm'⟩
    · exact hp.of_rests hm' hsizing
    · -- between runs the chain is as it was built, or it has been stopped
      have hidle : e.Idle := by
        have hrested := ho.rested (hm.resting (.inl hs)) e he
        split at hrested
        · exact hrested ▸ hc
        · obtain ⟨e', rfl⟩ := hrested
          exact Chain.idle_stop e'
      exact hp.of_begin (hidle.start now) ((Chain.delays_start e now).trans (hp.shape e he))
        hsizing he' hr'
    · have hp' := hp.of_tears hr ht hsizing
      exact ⟨hp'.sized, hp'.shape, hp'.run, hp'.isBroken⟩
    · have hcleared : (h.machine.clear r).Minds events delays := by
        refine ⟨hp.sized, fun d hd' ↦ ?_, fun _ hr₁ ↦ (by cases hr₁), fun _ _ hr₁ ↦ (by cases hr₁)⟩
        obtain ⟨e, he, rfl⟩ := Option.map_eq_some_iff.1 hd'
        exact (Chain.delays_stop e).trans (hp.shape e he)
      exact hcleared.of_rests hm' hsizing

end Minds

end Machine

/-! ## Over all acts -/

/-- As long as a run is to go on, its processor leaves only when a stage breaks down. As long as the
processor has not left, the alarms that are set, have gone off or are being handled, with as many
more as the full queue has refused, are what the stages wait for, each once. So if none was refused,
each message that a stage holds has an alarm with the latest token of the stage under way, and is
let go when this alarm is handled, whenever that is. None is refused if the queue has room for one
alarm of each throttle in delay mode. -/
theorem History.held_alarmed (sizing : Config.Sizing) (inboundType outboundType : String)
    {c : Chain Builtin} (hc : c.Idle) (acts : List Act) :
    let m := ((Machine.ready sizing inboundType outboundType c).history.after acts).machine
    ∀ r, m.run = some r →
      (m.board.active = true → ∀ exit, r.processor = .leaving exit → exit.isBroken = true) ∧
      ∀ d, m.chain = some d → (∀ exit, r.processor ≠ .leaving exit) →
        (∃ lost, lost.length = r.alarms.rejected ∧
          (r.alarmed.map Alarm.key ++ lost).Perm d.awaited) ∧
        (r.alarms.rejected = 0 → ∀ i slot message, d.slots[i]? = some slot →
          slot.stage.held = some message → ∃ a ∈ r.alarmed, a.stage = i ∧
            slot.stage.awaits = some a.token ∧
            ∀ now, (Behaviour.expire now slot.stage a.token).result = .ok (some message)) ∧
        (sizing.events = 0 ∨ c.delays ≤ sizing.events → r.alarms.rejected = 0) := by
  intro m r hr
  have hminds : m.Minds sizing.events c.delays :=
    (ready_induction (P := fun h ↦ h.machine.Minds sizing.events c.delays) sizing inboundType
      outboundType c acts ⟨rfl, fun d hd ↦ by cases hd; rfl, fun _ hr ↦ (by cases hr),
        fun _ _ hr ↦ (by cases hr)⟩
      (fun h requests replies hp ↦ ⟨hp.sized, hp.shape, hp.run, hp.isBroken⟩)
      fun h deed m' hm ho hp hd ↦ hp.of_does hc hm ho hd).2.2
  refine ⟨fun ha exit ↦ hminds.isBroken r exit hr ha, fun d hd hstays ↦ ?_⟩
  obtain ⟨d', hd', hattended, hroom⟩ :=
    (hminds.run r hr).working.resolve_left fun ⟨exit, hl⟩ ↦ hstays exit hl
  cases hd'.symm.trans hd
  refine ⟨hattended.awaited, fun hnone i slot message hs hheld ↦ ?_, hroom⟩
  have hpunctual := hattended.punctual slot (List.mem_of_getElem? hs)
  obtain ⟨token, htoken⟩ : ∃ token, slot.stage.awaits = some token :=
    Option.isSome_iff_exists.1 (hpunctual.held.symm.trans (by rw [hheld]; rfl))
  rw [hnone] at hattended
  obtain ⟨a, ha, hstage, rfl⟩ :=
    hattended.exists_of_awaits ((Chain.awaits_of_slot hs).trans htoken)
  refine ⟨a, ha, hstage, htoken, fun now ↦ ?_⟩
  obtain ⟨⟨message', hheld', hresult⟩, -⟩ := hpunctual.release_of_awaits htoken now
  cases hheld.symm.trans hheld'
  exact hresult

/-! ## Two throttles and a queue for one alarm -/

/-- Of three messages at once the first goes through, the second throttle holds the second, and the
first throttle the third. -/
def Chain.narrowing : Chain Builtin where
  id := "narrowing"
  slots := [⟨{}, .throttle { rate := 2, period := 5, mode := .delay }⟩,
    ⟨{}, .throttle { rate := 1, period := 5, mode := .delay }⟩]
  plan := { routes := [{}, {}] }

/-- Three messages are received and run. -/
def Act.threeMessages : List Act :=
  let receive (byte : UInt8) : List Act :=
    [.move 9 ⟨0, 0⟩ (.work .receive), .move 9 ⟨0, 0⟩ (.receive (.ok (.ofRaw "t" [byte]))),
      .move 9 ⟨0, 0⟩ (.work .receive), .move 9 ⟨0, 0⟩ (.work .receive)]
  [.post .start, .move 9 ⟨0, 0⟩ .accept, .move 9 ⟨0, 0⟩ (.launch (.ok ()) (.ok ()))] ++
    (receive 1 ++ receive 2 ++ receive 3) ++ List.replicate 21 (.move 9 ⟨0, 0⟩ (.work .process))

/-- Then both alarms go off before the processor handles one. -/
def Act.bothAlarms : List Act := threeMessages ++ List.replicate 2 (.move 9 ⟨5, 0⟩ (.ring 0))

/-- With room for both alarms, the message that the first throttle holds has its alarm under way. -/
theorem History.held_alarmed_narrowing :
    let m := ((Machine.ready { events := 2 } "a" "b" Chain.narrowing).history.after
      Act.bothAlarms).machine
    Chain.narrowing.Idle ∧ ∃ r d slot message, m.run = some r ∧ m.chain = some d ∧
      r.processor = .waiting ∧ d.slots[0]? = some slot ∧ slot.stage.held = some message ∧
      r.alarms.rejected = 0 ∧ ∃ a ∈ r.alarmed, a.stage = 0 ∧ slot.stage.awaits = some a.token := by
  intro m
  have hidle : Chain.narrowing.Idle := by
    intro slot hslot
    rcases List.mem_pair.1 hslot with rfl | rfl <;> exact ⟨rfl, rfl⟩
  obtain ⟨r, hr⟩ : ∃ r, m.run = some r := Option.isSome_iff_exists.1 (by decide +kernel)
  obtain ⟨d, hd⟩ : ∃ d, m.chain = some d := Option.isSome_iff_exists.1 (by decide +kernel)
  have hwaiting : m.run.map (·.processor) = some .waiting := by decide +kernel
  have hheld : m.chain.map (·.slots[0]?.map (·.stage.held)) =
      some (some (some (.ofRaw "t" [3]))) := by decide +kernel
  simp only [hr, hd, Option.map_some, Option.some.injEq, Option.map_eq_some_iff] at hwaiting hheld
  obtain ⟨slot, hs, hmessage⟩ := hheld
  obtain ⟨-, hrun⟩ := held_alarmed { events := 2 } "a" "b" hidle Act.bothAlarms r hr
  obtain ⟨-, halarmed, hroom⟩ := hrun d hd fun exit hl ↦ by cases hwaiting.symm.trans hl
  have hnone : r.alarms.rejected = 0 := hroom (.inr (by decide))
  obtain ⟨a, ha, hstage, htoken, -⟩ := halarmed hnone 0 slot _ hs hmessage
  exact ⟨hidle, r, d, slot, _, hr, hd, hwaiting, hs, hmessage, hnone, a, ha, hstage, htoken⟩

/-- With room for one, the alarm of the first throttle is refused. The run goes on, and no alarm is
under way for the message that this throttle holds. -/
theorem History.held_stranded :
    let m := ((Machine.ready { events := 1 } "a" "b" Chain.narrowing).history.after
      Act.bothAlarms).machine
    ∃ r d slot message, m.run = some r ∧ m.chain = some d ∧ m.board.active = true ∧
      m.control = .idle ∧ r.processor = .waiting ∧ d.slots[0]? = some slot ∧
      slot.stage.held = some message ∧ ∀ a ∈ r.alarmed, a.stage ≠ 0 := by
  intro m
  obtain ⟨r, hr⟩ : ∃ r, m.run = some r := Option.isSome_iff_exists.1 (by decide +kernel)
  obtain ⟨d, hd⟩ : ∃ d, m.chain = some d := Option.isSome_iff_exists.1 (by decide +kernel)
  have hactive : m.board.active = true ∧ m.control = .idle := by decide +kernel
  have hrun : m.run.map (fun r ↦ (r.processor, r.alarmed.map (·.stage))) =
      some (.waiting, [1]) := by decide +kernel
  have hheld : m.chain.map (·.slots[0]?.map (·.stage.held)) =
      some (some (some (.ofRaw "t" [3]))) := by decide +kernel
  simp only [hr, hd, Option.map_some, Option.some.injEq, Option.map_eq_some_iff, Prod.mk.injEq]
    at hrun hheld
  obtain ⟨slot, hs, hmessage⟩ := hheld
  refine ⟨r, d, slot, _, hr, hd, hactive.1, hactive.2, hrun.1, hs, hmessage, fun a ha hstage ↦ ?_⟩
  have hmem : a.stage ∈ r.alarmed.map (·.stage) := List.mem_map_of_mem ha
  rw [hrun.2, hstage] at hmem
  exact absurd hmem (by decide)

end Conduit
