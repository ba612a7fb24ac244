import Conduit.Proofs.Chain.DepthFirst
import Mathlib.Order.WellFounded

/-!
# When a call comes to an end

Every walk is short, so a call that never ends makes pieces of pieces for ever. Each message that
enters the chain in the course of a call does so with the call in some state (`Entrance`), and the
pieces that it is made into enter after it (`Begets`). A message settles, that is, it is done with
together with all that comes of it, exactly when it is accessible in that relation
(`settles_iff_acc`): one direction is by induction on the depth of the recursion, the other by
induction on accessibility. So a call ends exactly when there is no endless line of messages of
which each is a piece of the one before (`Chain.ends_iff`).
-/

namespace Conduit

open Stage

variable {σ : Type}

/-- A message that has to be sent from a place. -/
structure Entry where
  place : Nat
  message : Message

/-- The messages of a family, in order. -/
def Generation.entries (g : Generation) : List Entry := g.pieces.map (Entry.mk g.continuation)

/-- A message as it enters the chain, and the call at that time. -/
structure Entrance (σ : Type) where
  call : Call σ
  entry : Entry

namespace Call

variable [Behaviour σ]

/-! ## Entries instead of families -/

/-- Sends a message, and all that comes of it. -/
def enter (clock : Clock) (depth : Nat) (c : Call σ) (e : Entry) : Except Progress (Call σ) :=
  descend clock depth c e.place (.ofMessage e.message)

/-- Sends messages in order. -/
def enterAll (clock : Clock) (depth : Nat) (entries : List Entry) (c : Call σ) :
    Except Progress (Call σ) :=
  entries.foldlM (enter clock depth) c

section Equations

variable (clock : Clock) (depth : Nat) (c : Call σ)

theorem enterAll_cons (e : Entry) (rest : List Entry) :
    enterAll clock depth (e :: rest) c = enter clock depth c e >>= enterAll clock depth rest := by
  simp only [enterAll, List.foldlM_cons]
  rfl

theorem enterAll_append (entries rest : List Entry) :
    enterAll clock depth (entries ++ rest) c =
      enterAll clock depth entries c >>= enterAll clock depth rest := by
  simp only [enterAll, List.foldlM_append]
  rfl

theorem finish_eq_enterAll (g : Generation) :
    finish clock depth c g = enterAll clock depth g.entries c := by
  simp only [finish, enterAll, Generation.entries, List.foldlM_map, enter]

theorem finishAll_eq_enterAll (families : List Generation) :
    finishAll clock depth families c =
      enterAll clock depth (families.flatMap Generation.entries) c := by
  induction families generalizing c with
  | nil => rfl
  | cons g families ih =>
    rw [finishAll_cons, List.flatMap_cons, enterAll_append, finish_eq_enterAll]
    exact bind_congr fun d ↦ ih d

end Equations

variable {clock : Clock}

theorem enter_le {depth depth' : Nat} (hle : depth ≤ depth') {c : Call σ} {e : Entry}
    (h : enter clock depth c e ≠ .error .unfinished) :
    enter clock depth' c e = enter clock depth c e :=
  descend_le hle h

theorem enterAll_le {depth depth' : Nat} (hle : depth ≤ depth') {entries : List Entry}
    {c : Call σ} (h : enterAll clock depth entries c ≠ .error .unfinished) :
    enterAll clock depth' entries c = enterAll clock depth entries c :=
  foldlM_congr_of_finished (fun _ _ he ↦ enter_le hle he) entries c h

/-- Results at two depths are the same if both are finished. -/
theorem enterAll_unique {depth depth' : Nat} {entries : List Entry} {c : Call σ}
    (h : enterAll clock depth entries c ≠ .error .unfinished)
    (h' : enterAll clock depth' entries c ≠ .error .unfinished) :
    enterAll clock depth entries c = enterAll clock depth' entries c := by
  rw [← enterAll_le (Nat.le_max_left depth depth') h,
    ← enterAll_le (Nat.le_max_right depth depth') h']

/-! ## Who enters when -/

/-- A message enters when those before it are done with. -/
def Enters (clock : Clock) (c : Call σ) (entries : List Entry) (e : Entrance σ) : Prop :=
  ∃ before rest, entries = before ++ e.entry :: rest ∧
    ∃ depth, enterAll clock depth before c = .ok e.call

theorem enters_head (c : Call σ) (e : Entry) (rest : List Entry) :
    Enters clock c (e :: rest) ⟨c, e⟩ :=
  ⟨[], rest, rfl, 0, rfl⟩

/-- What enters after the first message is done with enters after it. -/
theorem Enters.cons {depth : Nat} {c d : Call σ} {e : Entry} {rest : List Entry}
    {e' : Entrance σ} (h : Enters clock d rest e') (he : enter clock depth c e = .ok d) :
    Enters clock c (e :: rest) e' := by
  obtain ⟨before, after, rfl, depth', hb⟩ := h
  refine ⟨e :: before, after, rfl, max depth depth', ?_⟩
  rw [enterAll_cons, enter_le (Nat.le_max_left _ _) (finished_of_ok he), he]
  exact (enterAll_le (Nat.le_max_right _ _) (finished_of_ok hb)).trans hb

theorem not_enters_nil (c : Call σ) (e : Entrance σ) : ¬ Enters clock c [] e := by
  rintro ⟨before, rest, hsplit, -⟩
  exact List.cons_ne_nil _ _ (List.append_eq_nil_iff.1 hsplit.symm).2

theorem enters_cons_iff {depth : Nat} {c d : Call σ} {e : Entry} {rest : List Entry}
    (he : enter clock depth c e = .ok d) (e' : Entrance σ) :
    Enters clock c (e :: rest) e' ↔ e' = ⟨c, e⟩ ∨ Enters clock d rest e' := by
  constructor
  · rintro ⟨before, after, hsplit, depth', hb⟩
    cases before with
    | nil =>
      obtain ⟨he', -⟩ := List.cons.inj hsplit
      cases hb
      rw [he']
      exact .inl rfl
    | cons first before =>
      obtain ⟨rfl, hrest⟩ := List.cons.inj hsplit
      have hfirst : enter clock depth' c e ≠ .error .unfinished := by
        intro hu
        rw [enterAll_cons, hu] at hb
        cases hb
      have hd : enter clock depth' c e = .ok d := by
        rw [← enter_le (Nat.le_max_left depth' depth) hfirst,
          enter_le (Nat.le_max_right depth' depth) (finished_of_ok he), he]
      rw [enterAll_cons, hd] at hb
      exact .inr ⟨before, after, hrest, depth', hb⟩
  · rintro (rfl | h)
    · exact enters_head c e rest
    · exact h.cons he

/-- If messages are done with at a depth, each of them is. -/
theorem enter_of_enterAll {depth : Nat} {c : Call σ} {entries : List Entry} {e : Entrance σ}
    (h : enterAll clock depth entries c ≠ .error .unfinished) (he : Enters clock c entries e) :
    enter clock depth e.call e.entry ≠ .error .unfinished := by
  obtain ⟨before, rest, rfl, depth', hb⟩ := he
  rw [enterAll_append] at h
  have hbefore : enterAll clock depth before c ≠ .error .unfinished := fun hu ↦ h (by rw [hu]; rfl)
  have hcall : enterAll clock depth before c = .ok e.call :=
    (enterAll_unique hbefore (finished_of_ok hb)).trans hb
  rw [hcall] at h
  intro hu
  refine h ?_
  change enterAll clock depth (e.entry :: rest) e.call = _
  rw [enterAll_cons, hu]
  rfl

/-- If each of some messages is done with at its depth, they are at one depth. -/
theorem exists_enterAll (entries : List Entry) (c : Call σ)
    (h : ∀ e, Enters clock c entries e →
      ∃ depth, enter clock depth e.call e.entry ≠ .error .unfinished) :
    ∃ depth, enterAll clock depth entries c ≠ .error .unfinished := by
  induction entries generalizing c with
  | nil => exact ⟨0, finished_of_ok rfl⟩
  | cons e rest ih =>
    obtain ⟨depth, he⟩ := h ⟨c, e⟩ (enters_head c e rest)
    cases hd : enter clock depth c e with
    | error x =>
      refine ⟨depth, ?_⟩
      rw [enterAll_cons, hd]
      rw [hd] at he
      exact he
    | ok d =>
      obtain ⟨depth', hr⟩ := ih d fun e' he' ↦ h e' (he'.cons hd)
      refine ⟨max depth depth', ?_⟩
      rw [enterAll_cons, enter_le (Nat.le_max_left _ _) he, hd]
      change enterAll clock (max depth depth') rest d ≠ _
      rw [enterAll_le (Nat.le_max_right _ _) hr]
      exact hr

end Call

/-! ## Nesting -/

namespace Entrance

open Call

variable [Behaviour σ]

/-- The walk of the message. -/
def walk (clock : Clock) (e : Entrance σ) : Chain.Walk σ :=
  e.call.walk clock e.entry.place (.ofMessage e.entry.message)

/-- The call after the walk. -/
def after (clock : Clock) (e : Entrance σ) : Call σ := e.call.record (e.walk clock)

/-- The pieces that the message is made into. -/
def offspring (clock : Clock) (e : Entrance σ) : List Entry :=
  (pendingOf (e.walk clock).ending).flatMap Generation.entries

/-- One message is a piece of the other. -/
def Begets (clock : Clock) (e e' : Entrance σ) : Prop :=
  Enters clock (e.after clock) (e.offspring clock) e'

/-- The message and all that comes of it is done with at some depth. -/
def Settles (clock : Clock) (e : Entrance σ) : Prop :=
  ∃ depth, enter clock depth e.call e.entry ≠ .error .unfinished

variable {clock : Clock}

theorem enter_of_crashed (depth : Nat) {e : Entrance σ} (h : (e.walk clock).ending = .crashed) :
    enter clock (depth + 1) e.call e.entry = .error .crashed :=
  descend_of_crashed clock depth e.call h

theorem enter_succ (depth : Nat) {e : Entrance σ} (h : (e.walk clock).ending ≠ .crashed) :
    enter clock (depth + 1) e.call e.entry =
      enterAll clock depth (e.offspring clock) (e.after clock) := by
  rw [enter, descend_succ clock depth e.call h, finishAll_eq_enterAll]
  rfl

/-- A stage that breaks down makes no pieces. -/
theorem not_begets_of_crashed {e e' : Entrance σ} (h : (e.walk clock).ending = .crashed) :
    ¬ e.Begets clock e' := by
  rintro ⟨before, rest, hb, -⟩
  rw [offspring, h] at hb
  exact absurd hb (by simp [pendingOf])

/-- A piece enters at the continuation of the family that it belongs to. -/
theorem Begets.ending {e e' : Entrance σ} (h : e.Begets clock e') :
    ∃ g, (e.walk clock).ending = .generated g ∧ e'.entry ∈ g.entries := by
  obtain ⟨before, rest, hb, -⟩ := h
  have hmem : e'.entry ∈ e.offspring clock := by
    rw [hb]
    exact List.mem_append_right _ List.mem_cons_self
  rw [offspring] at hmem
  cases he : (e.walk clock).ending with
  | generated g => exact ⟨g, rfl, by simpa [he, pendingOf] using hmem⟩
  | _ => simp [he, pendingOf] at hmem

/-- The first piece of a family enters at once. -/
theorem begets_first {e : Entrance σ} {i : Nat} {m : Message} {rest : List Message}
    (h : (e.walk clock).ending = .generated ⟨i, m :: rest⟩) :
    e.Begets clock ⟨e.after clock, ⟨i, m⟩⟩ := by
  refine ⟨[], rest.map (Entry.mk i), ?_, 0, rfl⟩
  simp [offspring, h, pendingOf, Generation.entries]

/-- A message settles exactly when its pieces, their pieces, and so on all come to an end. -/
theorem settles_iff_acc (e : Entrance σ) :
    e.Settles clock ↔ Acc (fun e' e ↦ Begets clock e e') e := by
  constructor
  · rintro ⟨depth, h⟩
    induction depth generalizing e with
    | zero => exact absurd rfl h
    | succ depth ih =>
      refine Acc.intro e fun e' he' ↦ ?_
      by_cases hc : (e.walk clock).ending = .crashed
      · exact absurd he' (not_begets_of_crashed hc)
      · rw [enter_succ depth hc] at h
        exact ih e' (enter_of_enterAll h he')
  · intro h
    induction h with
    | intro e _ ih =>
      by_cases hc : (e.walk clock).ending = .crashed
      · refine ⟨1, ?_⟩
        rw [enter_of_crashed 0 hc]
        exact fun h ↦ by cases h
      · obtain ⟨depth, hd⟩ := exists_enterAll (e.offspring clock) (e.after clock) ih
        refine ⟨depth + 1, ?_⟩
        rw [enter_succ depth hc]
        exact hd

end Entrance

/-! ## Calls -/

namespace Chain

open Call

variable [Behaviour σ]

/-- What a call has to send: the pending pieces, from the top down, and then its message. -/
def agenda (c : Chain σ) (m : Message) : List Entry :=
  c.pending.flatMap Generation.entries ++ [⟨0, m⟩]

/-- A message of the agenda enters the chain. -/
def Opens (moment : Moment) (c : Chain σ) (m : Message) (e : Entrance σ) : Prop :=
  Enters moment.clock (opening moment c) (c.agenda m) e

theorem evaluate_eq_enterAll (depth : Nat) (moment : Moment) (c : Chain σ) (m : Message) :
    c.evaluate depth moment m = enterAll moment.clock depth (c.agenda m) (opening moment c) := by
  rw [evaluate, agenda, enterAll_append, finishAll_eq_enterAll]
  refine bind_congr fun d ↦ ?_
  rw [enterAll_cons]
  exact (bind_pure (enter moment.clock depth d ⟨0, m⟩)).symm

/-- The stack comes to an end exactly when the recursion does. -/
theorem ends_iff_evaluate (moment : Moment) (c : Chain σ) (m : Message) :
    (∃ patience, (c.process patience moment m).progress ≠ .unfinished) ↔
      ∃ depth, c.evaluate depth moment m ≠ .error .unfinished := by
  constructor
  · rintro ⟨patience, h⟩
    obtain ⟨depth, hd⟩ := exists_evaluate_of_process h
    exact ⟨depth, hd.finished⟩
  · rintro ⟨depth, h⟩
    obtain ⟨patience, hp⟩ := exists_process_of_evaluate h
    refine ⟨patience, ?_⟩
    cases hx : c.evaluate depth moment m with
    | error e =>
      rw [hx] at hp
      rw [hp.2]
      decide
    | ok d =>
      rw [hx] at hp
      rw [show c.process patience moment m = d.atop [] from hp,
        show (d.atop []).progress = .returned from (clear_evaluate hx).progress]
      decide

/-- A call comes to an end exactly when all messages of its agenda settle. -/
theorem ends_iff_settles (moment : Moment) (c : Chain σ) (m : Message) :
    (∃ patience, (c.process patience moment m).progress ≠ .unfinished) ↔
      ∀ e, c.Opens moment m e → e.Settles moment.clock := by
  simp only [ends_iff_evaluate, evaluate_eq_enterAll]
  constructor
  · rintro ⟨depth, h⟩ e he
    exact ⟨depth, enter_of_enterAll h he⟩
  · exact exists_enterAll (c.agenda m) (opening moment c)

/-- A line of messages in a call, each a piece of the one before, that has no end. -/
def Endless (moment : Moment) (c : Chain σ) (m : Message) : Prop :=
  ∃ line : Nat → Entrance σ, c.Opens moment m (line 0) ∧
    ∀ n, (line n).Begets moment.clock (line (n + 1))

/-- A call comes to an end exactly when it has no endless line of pieces of pieces. -/
theorem ends_iff (moment : Moment) (c : Chain σ) (m : Message) :
    (∃ patience, (c.process patience moment m).progress ≠ .unfinished) ↔
      ¬ c.Endless moment m := by
  rw [ends_iff_settles]
  constructor
  · rintro h ⟨line, h0, hline⟩
    have hacc := (line 0).settles_iff_acc.1 (h (line 0) h0)
    exact not_acc_iff_exists_descending_chain.2 ⟨line, rfl, hline⟩ hacc
  · intro h e he
    rw [Entrance.settles_iff_acc]
    by_contra hacc
    obtain ⟨line, h0, hline⟩ := not_acc_iff_exists_descending_chain.1 hacc
    exact h ⟨line, h0 ▸ he, hline⟩

/-- A call never ends if its message is made into pieces of which the first is again made into
pieces, and so on. -/
theorem unfinished_of_invariant {moment : Moment} {c : Chain σ} {m : Message}
    {P : Entrance σ → Prop} (hp : c.pending = []) (h0 : P ⟨opening moment c, ⟨0, m⟩⟩)
    (step : ∀ e, P e → ∃ e', e.Begets moment.clock e' ∧ P e') (patience : Nat) :
    (c.process patience moment m).progress = .unfinished := by
  by_contra h
  have hopens : c.Opens moment m ⟨opening moment c, ⟨0, m⟩⟩ := by
    rw [Opens, agenda, hp]
    exact enters_head _ _ []
  have hacc := (Entrance.settles_iff_acc _).1
    ((ends_iff_settles moment c m).1 ⟨patience, h⟩ _ hopens)
  -- no accessible message has the property: the pieces come first
  have hnot : ∀ e, Acc (fun e' e ↦ Entrance.Begets moment.clock e e') e → ¬ P e := by
    intro e he
    induction he with
    | intro e _ ih =>
      intro hpe
      obtain ⟨e', hb, hpe'⟩ := step e hpe
      exact ih e' hb hpe'
  exact hnot _ hacc h0

end Chain

end Conduit
