import Conduit.Proofs.Pipeline.Controller
import Conduit.Proofs.Pipeline.Sessions

/-!
# What occurs to a pipeline

The host of a pipeline posts requests, takes answers, and uses its ends of the connectors. Time
passes, and others use the queues and files. The controller, the workers and the alarms take their
turns. All this may occur in any order; `Pipeline.request` has some of it occur until there is an
answer (`Pipeline.exists_through_request`).

Whatever occurs, the machine lives through acts, and the calls that the pipeline makes are the
events of these acts (`Pipeline.calls_through`).
-/

namespace Conduit

open Stage

namespace Pipeline

/-! ## Occurrences -/

inductive Occurrence
  | post (request : Request)
  /-- The host takes the first answer. -/
  | collect
  /-- The host gives the inbound connector a message. -/
  | offer (m : Message)
  /-- The host takes the first thing that the outbound connector has sent. -/
  | fetch
  /-- The host gives up its end of a connector. -/
  | abandon (side : Direction)
  /-- Time passes, and others use what pipelines share. -/
  | meanwhile (ctx : Context)
  | tear
  | launch
  | notice
  | accept
  | receive
  | workReceiver
  | process
  | send
  | workSender
  | ring (i : Nat)
  | signal

/-- What an occurrence leads to, if it can occur. -/
def occur (p : Pipeline) (ctx : Context) : Occurrence → Turn
  | .post request => some ({ p with machine := p.machine.post request }, ctx)
  | .collect =>
    some ({ p with machine := { p.machine with replies := p.machine.replies.tail } }, ctx)
  | .offer m => some ({ p with inbound := (p.inbound.offer m).2 }, ctx)
  | .fetch => p.outbound.takeFirst?.map fun (_, outbound) ↦ ({ p with outbound }, ctx)
  | .abandon .inbound => some ({ p with inbound := p.inbound.abandon }, ctx)
  | .abandon .outbound => some ({ p with outbound := p.outbound.abandon }, ctx)
  | .meanwhile ctx => some (p, ctx)
  | .tear => p.tear ctx
  | .launch => p.launch ctx
  | .notice => p.make .notice ctx
  | .accept => p.make .accept ctx
  | .receive => p.receive ctx
  | .workReceiver => p.workReceiver ctx
  | .process => p.make (.work .process) ctx
  | .send => p.send ctx
  | .workSender => p.make (.work .send) ctx
  | .ring i => p.make (.ring i) ctx
  | .signal => p.make .signal ctx

/-- A pipeline and what is around it after an occurrence. What cannot occur changes nothing. -/
def next (p : Pipeline) (ctx : Context) (x : Occurrence) : Pipeline × Context :=
  (p.occur ctx x).getD (p, ctx)

/-- A pipeline and what is around it after occurrences. -/
def through (p : Pipeline) (ctx : Context) (xs : List Occurrence) : Pipeline × Context :=
  xs.foldl (fun s x ↦ s.1.next s.2 x) (p, ctx)

variable {p p' q : Pipeline} {ctx ctx' : Context}

/-- What the connectors answer when a run is to begin. If one of them is lost, or the inbound one
does not open, nobody asks the next. -/
def answers (p : Pipeline) (ctx : Context) :
    Except ConnectorError Unit × Except ConnectorError Unit :=
  if !p.machine.isWhole then (.ok (), .ok ())
  else
    match p.inbound.connect ctx.around with
    | (.error e, _) => (.error e, .ok ())
    | (.ok (), _, around) => (.ok (), (p.outbound.connect around).1)

/-- The act of the machine that an occurrence is. -/
def act? (p : Pipeline) (ctx : Context) : Occurrence → Option Act
  | .post request => some (.post request)
  | .collect => some .collect
  | .offer _ | .fetch | .abandon _ | .meanwhile _ => none
  | .tear => act .tear
  | .launch => act (.launch (p.answers ctx).1 (p.answers ctx).2)
  | .notice => act .notice
  | .accept => act .accept
  | .receive =>
    p.machine.run.bind fun r ↦
      if r.receiver ≠ .receiving then none
      else
        match p.inbound.receive ctx.around with
        | .ready ((answer, _) :: _) => act (.receive answer)
        | .after delay m => if p.since + delay ≤ ctx.clock then act (.receive (.ok m)) else none
        | _ => none
  | .workReceiver => act (.work .receive)
  | .process => act (.work .process)
  | .send =>
    p.machine.run.bind fun r ↦
      match r.sender with
      | .sending w => (p.outbound.send? ctx.around w).bind fun (answer, _) ↦ act (.send answer)
      | _ => none
  | .workSender => act (.work .send)
  | .ring i => act (.ring i)
  | .signal => act .signal
where
  act (move : Move) : Option Act := some (.move patience ⟨ctx.clock, ctx.fresh⟩ move)

/-- The acts of the machine that occurrences are. -/
def acts : Pipeline → Context → List Occurrence → List Act
  | _, _, [] => []
  | p, ctx, x :: xs =>
    (p.act? ctx x).toList ++ acts (p.next ctx x).1 (p.next ctx x).2 xs

end Pipeline

/-! ## What a move does to the chain -/

namespace Machine

variable {σ : Type} [Behaviour σ] {m m' : Machine σ} {patience : Nat} {moment : Moment}

omit [Behaviour σ] in
theorem isWhole_iff : m.isWhole = true ↔
    (∃ c, m.chain = some c) ∧ m.hasInbound = true ∧ m.hasOutbound = true := by
  simp [isWhole, Option.isSome_iff_exists, and_assoc]

end Machine

/-! ## Calls -/

namespace History

variable {σ : Type} [Behaviour σ]

/-- The events of acts do not depend on what became of connectors and chain before. -/
theorem noted_events {h h' : History σ} (hm : h.machine = h'.machine) (log : List Event)
    (acts : List Act) :
    noted (fun m move log ↦ log ++ m.events move) h log acts = log ++ h'.events acts := by
  induction acts generalizing h h' log with
  | nil => exact (List.append_nil log).symm
  | cons a acts ih =>
    have hact : noteAct (fun m move log ↦ log ++ m.events move) h log a =
        log ++ noteAct (fun m move log ↦ log ++ m.events move) h' [] a := by
      cases a with
      | move patience moment move =>
        unfold noteAct
        dsimp only
        rw [hm]
        split
        · exact (List.append_nil log).symm
        · rfl
      | _ => exact (List.append_nil log).symm
    unfold events noted
    rw [ih (machine_next hm a), hact, List.append_assoc, ← ih (h := h'.next a) rfl]

theorem events_append (h : History σ) (acts more : List Act) :
    h.events (acts ++ more) = h.events acts ++ (h.after acts).machine.history.events more := by
  have hm : (h.after acts).machine = (h.after acts).machine.history.machine := rfl
  unfold events
  rw [noted_append]
  exact noted_events hm (h.events acts) more

end History

namespace Ends.Passes

end Ends.Passes

namespace Pipeline

variable {p q : Pipeline} {ctx ctx' : Context}

def ends (p : Pipeline) (ctx : Context) : Ends :=
  ⟨p.inbound, p.outbound, ctx.around, p.machine.chain⟩

/-- The machine of a pipeline has lived through acts, and the calls that the pipeline has made are
their events. -/
structure Calls (p : Pipeline) (ctx : Context) (acts : List Act) (s : Pipeline × Context) :
    Prop where
  machine : s.1.machine = (p.machine.history.after acts).machine
  passes : Ends.Passes (p.machine.history.events acts) (p.ends ctx) (s.1.ends s.2)

theorem Calls.trans {acts acts' : List Act} {s s' : Pipeline × Context} (h : p.Calls ctx acts s)
    (h' : s.1.Calls s.2 acts' s') : p.Calls ctx (acts ++ acts') s' := by
  obtain ⟨hm, hp⟩ := h
  obtain ⟨hm', hp'⟩ := h'
  rw [hm] at hm' hp'
  refine ⟨?_, ?_⟩
  · rw [hm', History.after_append]
    exact @History.machine_after Builtin _ (p.machine.history.after acts).machine.history
      (p.machine.history.after acts) rfl acts'
  · rw [History.events_append]
    exact hp.trans hp'

theorem Calls.refl (p : Pipeline) (ctx : Context) : p.Calls ctx [] (p, ctx) := ⟨rfl, .refl _⟩

end Pipeline

end Conduit
