import Conduit.Pipeline.Basic
import Conduit.Proofs.Pipeline.Inversion

/-!
# Histories

A machine lives through acts: the host posts requests and collects answers, and whoever can makes a
move. The acts may come in any order; a move that cannot be made changes nothing. A history goes
with the machine and keeps a journal of every run.

What is true of a machine that is ready, and is kept by the host and by everything that the machine
does, is true after all acts (`History.after_induction`). What the machine does not remember can be
noted along the way (`History.noted`).
-/

namespace Conduit

open Stage

variable {σ : Type} [Behaviour σ]

/-! ## Inputs in turn -/

namespace Chain

/-- The chain after inputs, one after the other. -/
def upon (c : Chain σ) (xs : List Input) : Chain σ := xs.foldl (fun c x ↦ (c.respond x).chain) c

/-- What can be found in the answers to inputs, in order. -/
def gather {α : Type} (f : Input → Call σ → List α) : Chain σ → List Input → List α
  | _, [] => []
  | c, x :: xs => f x (c.respond x) ++ gather f (c.respond x).chain xs

theorem upon_concat (c : Chain σ) (xs : List Input) (x : Input) :
    c.upon (xs ++ [x]) = ((c.upon xs).respond x).chain :=
  List.foldl_append

theorem gather_concat {α : Type} (f : Input → Call σ → List α) (c : Chain σ) (xs : List Input)
    (x : Input) :
    gather f c (xs ++ [x]) = gather f c xs ++ f x ((c.upon xs).respond x) := by
  induction xs generalizing c with
  | nil => simp [gather, upon]
  | cons y ys ih =>
    rw [List.cons_append, gather, ih, gather, List.append_assoc]
    rfl

end Chain

/-! ## Journals -/

/-- What happened to messages in one run. -/
structure Journal (σ : Type) where
  /-- The chain that the run began with. -/
  opened : Chain σ
  /-- What the inbound connector returned. -/
  received : List Message := []
  /-- What was shown to the chain, and answered. -/
  inputs : List Input := []
  /-- What was handed to the outbound connector. -/
  handed : List Wrapper := []
  /-- How many wrappers the outbound connector returned an error for. -/
  refused : Nat := 0
  /-- The workers that broke down. -/
  broken : List Worker := []

namespace Journal

omit [Behaviour σ] in
/-- The messages that were run through the chain. -/
def ran (j : Journal σ) : List Message := j.inputs.filterMap Input.message?

omit [Behaviour σ] in
/-- The alarms that the chain was told of. -/
def rung (j : Journal σ) : List Alarm := j.inputs.filterMap Input.alarm?

/-- What the chain let through, input by input. -/
def delivered (j : Journal σ) : List Wrapper :=
  j.opened.gather (fun _ call ↦ call.output.delivered) j.inputs

/-- The alarms that the stages set. -/
def set (j : Journal σ) : List Alarm :=
  j.opened.gather (fun x call ↦ Alarm.ofVisits x.moment.clock call.visits) j.inputs

omit [Behaviour σ] in
def note (j : Journal σ) : Option (Deed σ) → Journal σ
  | some (.received m) => { j with received := j.received ++ [m] }
  | some (.ran x) => { j with inputs := j.inputs ++ [x] }
  | some (.handed w) => { j with handed := j.handed ++ [w] }
  | some .refused => { j with refused := j.refused + 1 }
  | some (.broke w) => { j with broken := j.broken ++ [w] }
  | some (.began _) | none => j

omit [Behaviour σ] in
/-- A run that begins opens a journal; what else is done goes into the latest one. -/
def noteAll : List (Journal σ) → Option (Deed σ) → List (Journal σ)
  | journals, some (.began c) => { opened := c } :: journals
  | [], _ => []
  | j :: rest, deed => j.note deed :: rest

end Journal

/-! ## Acts -/

inductive Act
  | post (request : Request)
  /-- The host takes the first answer. -/
  | collect
  | move (patience : Nat) (moment : Moment) (move : Move)

/-- A machine with the journals of its runs, the latest one first. -/
structure History (σ : Type) where
  machine : Machine σ
  journals : List (Journal σ) := []

namespace History

def next (h : History σ) : Act → History σ
  | .post request => { h with machine := h.machine.post request }
  | .collect => { h with machine := { h.machine with replies := h.machine.replies.tail } }
  | .move patience moment move =>
    match h.machine.step patience moment move with
    | none => h
    | some out => {
        machine := out.machine
        journals := Journal.noteAll h.journals (h.machine.deed patience moment move) }

def after (h : History σ) (acts : List Act) : History σ := acts.foldl next h

theorem after_induction {P : History σ → Prop} {h : History σ} (acts : List Act) (hh : P h)
    (host : ∀ h requests replies, P h →
      P { h with machine := { h.machine with requests, replies } })
    (does : ∀ h deed m, P h → h.machine.Does deed m → P ⟨m, Journal.noteAll h.journals deed⟩) :
    P (h.after acts) := by
  have hnext (h : History σ) (a : Act) (hh : P h) : P (h.next a) := by
    cases a with
    | post request => exact host h _ _ hh
    | collect => exact host h _ _ hh
    | move patience moment move =>
      unfold next
      dsimp only
      split
      · exact hh
      · rename_i out hs
        exact does h _ _ hh (Machine.does_of_step hs)
  induction acts generalizing h with
  | nil => exact hh
  | cons a acts ih => exact ih (hnext h a hh)

theorem after_append (h : History σ) (acts more : List Act) :
    h.after (acts ++ more) = (h.after acts).after more :=
  List.foldl_append

/-! ## Notes -/

section Notes

variable {γ : Type} (f : Machine σ → Move → γ → γ)

/-- What has been noted after an act. Only moves that can be made are noted, each with the machine
that it finds. -/
def noteAct (h : History σ) (g : γ) : Act → γ
  | .post _ | .collect => g
  | .move patience moment move =>
    match h.machine.step patience moment move with
    | none => g
    | some _ => f h.machine move g

/-- What has been noted after acts. -/
def noted : History σ → γ → List Act → γ
  | _, g, [] => g
  | h, g, a :: acts => noted (h.next a) (noteAct f h g a) acts

theorem noted_append (h : History σ) (g : γ) (acts more : List Act) :
    noted f h g (acts ++ more) = noted f (h.after acts) (noted f h g acts) more := by
  induction acts generalizing h g with
  | nil => rfl
  | cons a acts ih => exact ih (h.next a) (noteAct f h g a)

variable {f} in
/-- What is true of a history and its notes, and is kept by the host and by every move, is true
after all acts. -/
theorem noted_induction {P : History σ → γ → Prop} {h : History σ} {g : γ} (acts : List Act)
    (hh : P h g)
    (host : ∀ h g requests replies, P h g →
      P { h with machine := { h.machine with requests, replies } } g)
    (does : ∀ h g patience moment move m, P h g →
      h.machine.DoesBy move (h.machine.deed patience moment move) m →
      P ⟨m, Journal.noteAll h.journals (h.machine.deed patience moment move)⟩
        (f h.machine move g)) :
    P (h.after acts) (noted f h g acts) := by
  have hnext (h : History σ) (g : γ) (a : Act) (hh : P h g) : P (h.next a) (noteAct f h g a) := by
    cases a with
    | post request => exact host h g _ _ hh
    | collect => exact host h g _ _ hh
    | move patience moment move =>
      unfold next noteAct
      dsimp only
      cases hs : h.machine.step patience moment move with
      | none => exact hh
      | some out => exact does h g patience moment move _ hh (Machine.doesBy_of_step hs)
  induction acts generalizing h g with
  | nil => exact hh
  | cons a acts ih => exact ih (hnext h g a hh)

end Notes

end History

/-! ## Machines that are ready -/

namespace Machine

omit [Behaviour σ]

/-- A machine with a chain, that has not run yet. -/
def ready (sizing : Config.Sizing) (inboundType outboundType : String) (c : Chain σ) : Machine σ :=
  { sizing, inboundType, outboundType, chain := some c }

/-- The history of a machine, from its beginning. -/
def history (m : Machine σ) : History σ := ⟨m, []⟩

end Machine

namespace Pipeline

/-- A pipeline of ready parts has a machine that is ready. -/
theorem machine_ofParts (sizing : Config.Sizing) (chain : Chain Builtin)
    (inbound outbound : Connector) :
    (ofParts sizing chain inbound outbound).machine =
      .ready sizing inbound.typeName outbound.typeName chain := rfl

end Pipeline

end Conduit
