import Conduit.Proofs.Chain.Balance
import Conduit.Proofs.Chain.Keeps
import Conduit.Proofs.Pipeline.Board
import Conduit.Proofs.Stage.Plain

/-!
# Chains without pieces and held messages

In a chain of plain stages a message has one outcome, at once (`Chain.Plain.process`), and nothing
happens when a timer goes off (`Chain.Plain.expire`).
-/

namespace Conduit

open Stage

variable {σ : Type} [Behaviour σ]

/-- The chain is made of stages with the property, and nothing is pending. -/
structure Chain.Plain (P : σ → Prop) (c : Chain σ) : Prop where
  stages : ∀ slot ∈ c.slots, P slot.stage
  pending : c.pending = []

/-- The walk ends neither in pieces nor with a held message. -/
def Ending.IsPlain : Ending → Prop
  | .generated _ | .held => False
  | _ => True

theorem Ending.IsPlain.pendingOf {e : Ending} (h : e.IsPlain) : Call.pendingOf e = [] := by
  cases e with
  | generated g => exact h.elim
  | _ => rfl

/-- Such an end is one outcome, unless a stage broke down. -/
theorem Ending.IsPlain.outcome {e : Ending} (h : e.IsPlain) (hne : e ≠ .crashed) :
    (({} : Output) ++ Call.outputOf e).delivered.length +
      (({} : Output) ++ Call.outputOf e).settled = 1 := by
  cases e with
  | generated g => exact h.elim
  | held => exact h.elim
  | crashed => exact absurd rfl hne
  | _ => rfl

/-- With nothing pending there is nothing to drain. -/
theorem Call.drain_of_pending_nil {clock : Clock} {patience : Nat} {c : Call σ}
    (h : c.chain.pending = []) : drain clock patience c = c := by
  cases patience with
  | zero => simp [drain, Chain.isGenerating, h]
  | succ patience => simp [drain, h]

namespace Call

variable {clock : Clock} {patience : Nat} {c : Call σ} {i : Nat} {w : Wrapper}

/-- If a walk ends without pieces and nothing else is pending, nothing is pending after it. -/
theorem pending_send (hp : c.chain.pending = []) (hw : pendingOf (c.walk clock i w).ending = []) :
    (c.send clock i w).chain.pending = [] := by
  change pendingOf (c.walk clock i w).ending ++ (c.walk clock i w).chain.pending = []
  rw [Chain.pending_walk, hp, hw]
  rfl

theorem send_andThen_drain (hp : c.chain.pending = [])
    (hw : pendingOf (c.walk clock i w).ending = []) :
    (c.send clock i w).andThen (drain clock patience) = c.send clock i w := by
  unfold andThen
  split
  · exact drain_of_pending_nil (pending_send hp hw)
  · rfl

end Call

namespace Chain

/-- With nothing pending, a call begins with the walk of its message. -/
theorem walk_opening {c : Chain σ} (hp : c.pending = []) (moment : Moment) (i : Nat) (w : Wrapper) :
    (Call.opening moment c).walk moment.clock i w = c.walk (moment.next 0) i w := by
  have hopen : c.withPending [] = c := by rw [← hp, withPending_pending]
  change (c.withPending []).walk (moment.next 0) i w = _
  rw [hopen]

/-- If this walk ends without pieces, the call is over. -/
theorem process_eq_send {c : Chain σ} {moment : Moment} {m : Message} (hp : c.pending = [])
    (hw : Call.pendingOf (c.walk (moment.next 0) 0 (.ofMessage m)).ending = []) (patience : Nat) :
    c.process patience moment m = (Call.opening moment c).send moment.clock 0 (.ofMessage m) := by
  rw [process_of_pending_nil hp, Call.send_andThen_drain rfl (by rwa [walk_opening hp])]

variable {P : σ → Prop} {c : Chain σ}

omit [Behaviour σ] in
theorem Plain.map_stages (h : c.Plain P) {f : σ → σ} (hf : ∀ s, P s → P (f s)) :
    (c.mapStages f).Plain P where
  stages slot hslot := by
    obtain ⟨slot', h', rfl⟩ := List.mem_map.1 hslot
    exact hf _ (h.stages slot' h')
  pending := h.pending

theorem Plain.start (hP : Stage.Plain P) (h : c.Plain P) (now : Instant) : (c.start now).Plain P :=
  h.map_stages (hP.start now)

theorem Plain.stop (hP : Stage.Plain P) (h : c.Plain P) : c.stop.Plain P where
  stages := (h.map_stages hP.stop).stages
  pending := rfl

/-- A plain stage does not end a walk with pieces or a held message. -/
theorem isPlain_of_follow {slot : Slot σ} {r : Route} {i : Nat} {o : Outcome} {e : Ending}
    (hg : ∀ w pieces, o ≠ .generate w pieces) (hh : ∀ w, o ≠ .hold w)
    (he : (follow slot r i o).1 = .done e) : e.IsPlain := by
  cases o with
  | done w =>
    cases Route.eq_dropped_of_branch_done he
    trivial
  | generate w pieces => exact absurd rfl (hg w pieces)
  | hold w => exact absurd rfl (hh w)
  | failed _ =>
    cases he
    trivial
  | crashed =>
    cases he
    trivial

theorem keeps_plain (hP : Stage.Plain P) :
    Keeps (fun c : Chain σ ↦ ∀ slot ∈ c.slots, P slot.stage)
      (fun v ↦ ∀ e, v.next = .done e → e.IsPlain) where
  withPending _ _ h := h
  visit moment c i slot w hs h := by
    have hslot : P slot.stage := h slot (List.mem_of_getElem? hs)
    refine ⟨?_, fun e he ↦ ?_⟩
    · rcases chain_visit moment c i slot w with hv | hv <;> rw [hv]
      · exact h
      · exact stages_setStage h i (hP.process moment slot.stage _ hslot)
    · rcases next_visit moment c i slot w with ⟨e', hf⟩ | hn
      · cases hf.symm.trans he
        trivial
      · exact isPlain_of_follow
          (fun w pieces ↦ hP.ne_generate moment slot.stage _ w pieces hslot)
          (fun w ↦ hP.ne_hold moment slot.stage _ w hslot) (hn.symm.trans he)

/-- A walk through a plain chain does not end in pieces or with a held message. -/
theorem Plain.isPlain_walk (hP : Stage.Plain P) (h : c.Plain P) (moment : Moment) (i : Nat)
    (w : Wrapper) : (c.walk moment i w).ending.IsPlain := by
  have hvisits := ((keeps_plain hP).walkFrom moment c.hopLimit i w h.stages).2
  unfold walk
  rcases @exists_visit_of_ending _ _ moment c.hopLimit c i w with
    ⟨w', he⟩ | he | ⟨n, he⟩ | ⟨v, hv, he⟩
  · rw [he]
    trivial
  · rw [he]
    trivial
  · rw [he]
    trivial
  · exact hvisits v hv _ he

/-- A call to a plain chain is one walk. -/
theorem Plain.process_eq_absorb (hP : Stage.Plain P) (h : c.Plain P) (patience : Nat)
    (moment : Moment) (m : Message) :
    c.process patience moment m =
      (Call.opening moment c).absorb (c.walk (moment.next 0) 0 (.ofMessage m)) := by
  rw [process_eq_send h.pending (h.isPlain_walk hP (moment.next 0) 0 _).pendingOf, Call.send]
  exact congrArg (Call.opening moment c).absorb (walk_opening h.pending moment 0 (.ofMessage m))

/-- In a plain chain a message has one outcome, and the chain stays plain. -/
theorem Plain.process (hP : Stage.Plain P) (h : c.Plain P) (patience : Nat) (moment : Moment)
    (m : Message) :
    (c.process patience moment m).chain.Plain P ∧
      ((c.process patience moment m).progress = .returned →
        (c.process patience moment m).output.delivered.length +
          (c.process patience moment m).output.settled = 1) := by
  have hplain := h.isPlain_walk hP (moment.next 0) 0 (.ofMessage m)
  have hstages := ((keeps_plain hP).process patience moment m h.stages).1
  rw [h.process_eq_absorb hP] at hstages ⊢
  refine ⟨⟨hstages, ?_⟩, fun hret ↦ ?_⟩
  · change Call.pendingOf _ ++ (c.walk (moment.next 0) 0 (.ofMessage m)).chain.pending = []
    rw [pending_walk, h.pending, hplain.pendingOf]
    rfl
  · have hne : (c.walk (moment.next 0) 0 (.ofMessage m)).ending ≠ .crashed := by
      intro he
      have hcrash : ((Call.opening moment c).absorb
          (c.walk (moment.next 0) 0 (.ofMessage m))).progress = .crashed := if_pos he
      cases hret.symm.trans hcrash
    change (({} : Output) ++ Call.outputOf _).delivered.length +
      (({} : Output) ++ Call.outputOf _).settled = 1
    exact hplain.outcome hne

/-- In a plain chain nothing happens when a timer goes off. -/
theorem Plain.expire (hP : Stage.Plain P) (h : c.Plain P) (patience : Nat) (moment : Moment)
    (i : Nat) (token : UInt64) :
    (c.expire patience moment i token).chain.Plain P ∧
      (c.expire patience moment i token).output = {} := by
  cases hs : c.slots[i]? with
  | none =>
    rw [Chain.expire, hs]
    exact ⟨h, rfl⟩
  | some slot =>
    have hslot : P slot.stage := h.stages slot (List.mem_of_getElem? hs)
    have hset : (c.setStage i (Behaviour.expire moment.now slot.stage token).state).Plain P :=
      ⟨stages_setStage h.stages i (hP.expire moment.now slot.stage token hslot), h.pending⟩
    simp only [Chain.expire, hs, hP.release moment.now slot.stage token hslot, Call.andThen]
    rw [Call.drain_of_pending_nil hset.pending]
    exact ⟨hset, rfl⟩

end Chain

end Conduit
