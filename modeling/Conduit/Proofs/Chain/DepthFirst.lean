import Conduit.Proofs.Chain.Call

/-!
# The stack of families as a recursion

A call keeps the families of pieces that are not used up on a stack and always goes on with the one
on top. The same call can be told without a stack: to send a message is to walk it and, if the walk
ends in pieces, to send each piece in turn, the next one only when the one before is done with all
that came of it (`Call.descend`). The recursion may nest for ever, so it is given a depth, beyond
which it is `unfinished`.

The two agree (`process_returns_iff`). From the recursion to the stack, what the recursion makes of
some families is what the stack makes of them before it looks at any family below (`Reaches`, which
composes like the recursion does). From the stack to the recursion, the argument is by induction on
the patience; the depth grows by one with each family that a walk puts on top, and a result that is
not `unfinished` stays the same with more depth (`descend_le`).
-/

namespace Conduit

open Stage

variable {σ : Type}

namespace Call

/-! ## The recursion -/

variable [Behaviour σ]

/-- Sends a message from a place, and then each piece that is made of it, in order and with all
that comes of it, before the next. -/
def descend (clock : Clock) : (depth : Nat) → Call σ → Nat → Wrapper → Except Progress (Call σ)
  | 0, _, _, _ => .error .unfinished
  | depth + 1, c, i, w =>
    match (c.walk clock i w).ending with
    | .crashed => .error .crashed
    | .generated g =>
      g.pieces.foldlM (fun c m ↦ descend clock depth c g.continuation (.ofMessage m))
        (c.record (c.walk clock i w))
    | _ => .ok (c.record (c.walk clock i w))

/-- Sends the pieces of a family in order. -/
def finish (clock : Clock) (depth : Nat) (c : Call σ) (g : Generation) :
    Except Progress (Call σ) :=
  g.pieces.foldlM (fun c m ↦ descend clock depth c g.continuation (.ofMessage m)) c

/-- Finishes families in order, the top one first. -/
def finishAll (clock : Clock) (depth : Nat) (families : List Generation) (c : Call σ) :
    Except Progress (Call σ) :=
  families.foldlM (finish clock depth) c

end Call

/-- A call as a recursion: the pending families are finished from the top down, then the message is
sent from the first place. -/
def Chain.evaluate [Behaviour σ] (depth : Nat) (moment : Moment) (c : Chain σ) (m : Message) :
    Except Progress (Call σ) := do
  let call ← Call.finishAll moment.clock depth c.pending (.opening moment c)
  call.descend moment.clock depth 0 (.ofMessage m)

namespace Call

/-! ## Equations of the recursion -/

section Equations

variable [Behaviour σ] (clock : Clock) (depth : Nat) (c : Call σ)

theorem descend_of_crashed {i : Nat} {w : Wrapper} (h : (c.walk clock i w).ending = .crashed) :
    descend clock (depth + 1) c i w = .error .crashed := by
  simp only [descend, h]

/-- To send a message is to walk it and to finish the family that the walk ends in, if any. -/
theorem descend_succ {i : Nat} {w : Wrapper} (h : (c.walk clock i w).ending ≠ .crashed) :
    descend clock (depth + 1) c i w =
      finishAll clock depth (pendingOf (c.walk clock i w).ending)
        (c.record (c.walk clock i w)) := by
  simp only [descend]
  cases he : (c.walk clock i w).ending with
  | crashed => exact absurd he h
  | generated g => simp [pendingOf, finishAll, finish]
  | _ => rfl

theorem finish_cons (i : Nat) (m : Message) (more : List Message) :
    finish clock depth c ⟨i, m :: more⟩ =
      descend clock depth c i (.ofMessage m) >>= fun c ↦ finish clock depth c ⟨i, more⟩ := by
  simp only [finish, List.foldlM_cons]

theorem finishAll_cons (g : Generation) (rest : List Generation) :
    finishAll clock depth (g :: rest) c =
      finish clock depth c g >>= finishAll clock depth rest := by
  simp only [finishAll, List.foldlM_cons]
  rfl

theorem finishAll_append (families rest : List Generation) :
    finishAll clock depth (families ++ rest) c =
      finishAll clock depth families c >>= finishAll clock depth rest := by
  simp only [finishAll, List.foldlM_append]
  rfl

/-- The first piece of the top family is sent, and the rest of the family is on top after it. -/
theorem finishAll_piece (i : Nat) (m : Message) (more : List Message) (rest : List Generation) :
    finishAll clock depth (⟨i, m :: more⟩ :: rest) c =
      descend clock depth c i (.ofMessage m) >>= finishAll clock depth (⟨i, more⟩ :: rest) := by
  rw [finishAll_cons, finish_cons, bind_assoc]
  refine bind_congr fun c' ↦ ?_
  rw [finishAll_cons]

end Equations

/-! ## Folds that may stop -/

theorem finished_of_ok {x : Except Progress (Call σ)} {c : Call σ} (h : x = .ok c) :
    x ≠ .error .unfinished := by
  rw [h]
  exact fun h ↦ by cases h

/-- What each step of a fold keeps, the fold keeps. -/
theorem foldlM_induction {α : Type} {P : Call σ → Prop}
    {f : Call σ → α → Except Progress (Call σ)}
    (step : ∀ c a c', P c → f c a = .ok c' → P c') (l : List α) {c c' : Call σ} (hc : P c)
    (h : l.foldlM f c = .ok c') : P c' := by
  induction l generalizing c with
  | nil =>
    cases h
    exact hc
  | cons a l ih =>
    rw [List.foldlM_cons] at h
    cases hf : f c a with
    | error e =>
      rw [hf] at h
      cases h
    | ok d =>
      rw [hf] at h
      exact ih (step c a d hc hf) h

/-- A fold that is not `unfinished` goes the same with steps that agree where they are not
`unfinished`. -/
theorem foldlM_congr_of_finished {α : Type} {f f' : Call σ → α → Except Progress (Call σ)}
    (h : ∀ c a, f c a ≠ .error .unfinished → f' c a = f c a) (l : List α) (c : Call σ)
    (hl : l.foldlM f c ≠ .error .unfinished) : l.foldlM f' c = l.foldlM f c := by
  induction l generalizing c with
  | nil => rfl
  | cons a l ih =>
    simp only [List.foldlM_cons] at hl ⊢
    cases hf : f c a with
    | error e =>
      rw [hf] at hl
      rw [h c a (by rw [hf]; exact hl), hf]
      rfl
    | ok c' =>
      rw [hf] at hl
      rw [h c a (finished_of_ok hf), hf]
      exact ih c' hl

/-! ## More depth

A result that is not `unfinished` does not change with more depth, first for the pieces of a family
and then, by induction on the depth, for all that comes of a message. -/

variable [Behaviour σ] {clock : Clock}

theorem descend_step (depth : Nat) (c : Call σ) (i : Nat) (w : Wrapper)
    (h : descend clock depth c i w ≠ .error .unfinished) :
    descend clock (depth + 1) c i w = descend clock depth c i w := by
  induction depth generalizing c i w with
  | zero => exact absurd rfl h
  | succ depth ih =>
    by_cases hc : (c.walk clock i w).ending = .crashed
    · rw [descend_of_crashed clock _ c hc, descend_of_crashed clock _ c hc]
    · rw [descend_succ clock _ c hc] at h
      rw [descend_succ clock _ c hc, descend_succ clock _ c hc]
      refine foldlM_congr_of_finished (fun c g hg ↦ ?_) _ _ h
      exact foldlM_congr_of_finished (fun c m hm ↦ ih c _ _ hm) _ _ hg

/-- A message that is done with at some depth is done with alike at every greater depth. -/
theorem descend_le {depth depth' : Nat} (hle : depth ≤ depth') {c : Call σ} {i : Nat} {w : Wrapper}
    (h : descend clock depth c i w ≠ .error .unfinished) :
    descend clock depth' c i w = descend clock depth c i w := by
  induction hle with
  | refl => rfl
  | step _ ih => rw [descend_step _ c i w (by rw [ih]; exact h), ih]

theorem finishAll_le {depth depth' : Nat} (hle : depth ≤ depth') {families : List Generation}
    {c : Call σ} (h : finishAll clock depth families c ≠ .error .unfinished) :
    finishAll clock depth' families c = finishAll clock depth families c :=
  foldlM_congr_of_finished
    (fun c _ hg ↦ foldlM_congr_of_finished (fun _ _ hm ↦ descend_le hle hm) _ c hg) _ c h

/-! ## What the recursion keeps -/

section Keeps

variable {P : Call σ → Prop}

/-- What one walk keeps, all that comes of a message keeps. -/
theorem descend_induction
    (step : ∀ c i w, P c → (c.walk clock i w).ending ≠ .crashed → P (c.record (c.walk clock i w)))
    {depth : Nat} {c c' : Call σ} {i : Nat} {w : Wrapper} (hc : P c)
    (h : descend clock depth c i w = .ok c') : P c' := by
  induction depth generalizing c c' i w with
  | zero => cases h
  | succ depth ih =>
    by_cases he : (c.walk clock i w).ending = .crashed
    · rw [descend_of_crashed clock _ c he] at h
      cases h
    · rw [descend_succ clock _ c he] at h
      refine foldlM_induction (fun c g c' hc hg ↦ ?_) _ (step c i w hc he) h
      exact foldlM_induction (fun c m c' hc hm ↦ ih hc hm) _ hc hg

theorem finishAll_induction
    (step : ∀ c i w, P c → (c.walk clock i w).ending ≠ .crashed → P (c.record (c.walk clock i w)))
    {depth : Nat} {families : List Generation} {c c' : Call σ} (hc : P c)
    (h : finishAll clock depth families c = .ok c') : P c' :=
  foldlM_induction
    (fun _ _ _ hc hg ↦ foldlM_induction (fun _ _ _ hc hm ↦ descend_induction step hc hm) _ hc hg)
    _ hc h

end Keeps

theorem clear_descend {depth : Nat} {c c' : Call σ} {i : Nat} {w : Wrapper} (hc : c.Clear)
    (h : descend clock depth c i w = .ok c') : c'.Clear :=
  descend_induction (fun _ _ _ hc he ↦ clear_record hc he) hc h

theorem clear_finishAll {depth : Nat} {families : List Generation} {c c' : Call σ} (hc : c.Clear)
    (h : finishAll clock depth families c = .ok c') : c'.Clear :=
  finishAll_induction (fun _ _ _ hc he ↦ clear_record hc he) hc h

/-- The recursion says how a call ended. -/
def Agrees (x : Except Progress (Call σ)) (c : Call σ) : Prop :=
  match x with
  | .ok d => c = d.atop []
  | .error e => e = .crashed ∧ c.progress = .crashed

omit [Behaviour σ] in
theorem Agrees.finished {x : Except Progress (Call σ)} {c : Call σ} (h : Agrees x c) :
    x ≠ .error .unfinished := by
  rintro rfl
  cases h.1

/-! ## From the recursion to the stack

`run patience rest` is a call on its way with the families `rest` below. It reaches what the
recursion says if, after a fixed number of steps, it stands with `rest` on top at the result, or has
crashed. -/

/-- The call on its way comes to a result of the recursion before it looks at a family below. -/
def Reaches (clock : Clock) (run : (patience : Nat) → (rest : List Generation) → Call σ) :
    Except Progress (Call σ) → Prop
  | .ok c => c.Clear ∧ ∃ k, ∀ patience rest,
      run (k + patience) rest = drain clock patience (c.atop rest)
  | .error .crashed => ∃ k, ∀ patience rest, (run (k + patience) rest).progress = .crashed
  | .error .unfinished => True
  | .error .returned => False

namespace Reaches

variable {run run' : Nat → List Generation → Call σ} {x : Except Progress (Call σ)}

/-- One step more. -/
theorem later (h : Reaches clock run x)
    (hr : ∀ patience rest, run' (patience + 1) rest = run patience rest) :
    Reaches clock run' x := by
  match x, h with
  | .ok c, ⟨hc, k, hk⟩ =>
    refine ⟨hc, k + 1, fun patience rest ↦ ?_⟩
    rw [Nat.add_right_comm, hr, hk]
  | .error .crashed, ⟨k, hk⟩ =>
    refine ⟨k + 1, fun patience rest ↦ ?_⟩
    rw [Nat.add_right_comm, hr, hk]
  | .error .unfinished, _ => trivial

/-- The families below come next. -/
theorem bind (h : Reaches clock run x) (families : List Generation)
    {f : Call σ → Except Progress (Call σ)}
    (hf : ∀ c, c.Clear →
      Reaches clock (fun patience rest ↦ drain clock patience (c.atop (families ++ rest))) (f c)) :
    Reaches clock (fun patience rest ↦ run patience (families ++ rest)) (x >>= f) := by
  match x, h with
  | .ok c, ⟨hc, k, hk⟩ =>
    change Reaches clock _ (f c)
    have hfc := hf c hc
    match f c, hfc with
    | .ok d, ⟨hd, l, hl⟩ =>
      refine ⟨hd, k + l, fun patience rest ↦ ?_⟩
      rw [Nat.add_assoc]
      exact (hk _ _).trans (hl patience rest)
    | .error .crashed, ⟨l, hl⟩ =>
      refine ⟨k + l, fun patience rest ↦ ?_⟩
      rw [Nat.add_assoc]
      exact (congrArg progress (hk _ _)).trans (hl patience rest)
    | .error .unfinished, _ => trivial
  | .error .crashed, ⟨k, hk⟩ => exact ⟨k, fun patience rest ↦ hk patience (families ++ rest)⟩
  | .error .unfinished, _ => trivial

/-- With nothing below, the call ends as the recursion says. -/
theorem agrees (h : Reaches clock run x) (hx : x ≠ .error .unfinished) :
    ∃ k, ∀ patience, Agrees x (run (k + patience) []) := by
  match x, h with
  | .ok c, ⟨_, k, hk⟩ => exact ⟨k, fun patience ↦ (hk patience []).trans (drain_atop_nil _ c)⟩
  | .error .crashed, ⟨k, hk⟩ => exact ⟨k, fun patience ↦ ⟨rfl, hk patience []⟩⟩
  | .error .unfinished, _ => exact absurd rfl hx

end Reaches

variable (σ) in
/-- At a depth, all that comes of a message is sent as the recursion says. -/
def Descends (clock : Clock) (depth : Nat) : Prop :=
  ∀ (c : Call σ) (i : Nat) (w : Wrapper), c.Clear →
    Reaches clock
      (fun patience rest ↦ ((c.atop rest).send clock i w).andThen (drain clock patience))
      (descend clock depth c i w)

theorem finish_reaches {depth : Nat} (hd : Descends σ clock depth) (i : Nat)
    (pieces : List Message) (c : Call σ) (hc : c.Clear) :
    Reaches clock (fun patience rest ↦ drain clock patience (c.atop (⟨i, pieces⟩ :: rest)))
      (finish clock depth c ⟨i, pieces⟩) := by
  induction pieces generalizing c with
  | nil => exact ⟨hc, 1, fun patience rest ↦ by rw [Nat.add_comm]; exact drain_atop_used _ i c rest⟩
  | cons m more ih =>
    rw [finish_cons]
    have h := (hd c i (.ofMessage m) hc).bind [⟨i, more⟩] ih
    exact h.later fun patience rest ↦ drain_atop_piece patience i c m more rest

theorem finishAll_reaches {depth : Nat} (hd : Descends σ clock depth)
    (families : List Generation) (c : Call σ) (hc : c.Clear) :
    Reaches clock (fun patience rest ↦ drain clock patience (c.atop (families ++ rest)))
      (finishAll clock depth families c) := by
  induction families generalizing c with
  | nil => exact ⟨hc, 0, fun patience rest ↦ by rw [Nat.zero_add]; rfl⟩
  | cons g families ih =>
    rw [finishAll_cons]
    exact (finish_reaches hd g.continuation g.pieces c hc).bind families ih

theorem descends (clock : Clock) (depth : Nat) : Descends σ clock depth := by
  induction depth with
  | zero => exact fun c i w _ ↦ trivial
  | succ depth ih =>
    intro c i w hc
    by_cases he : (c.walk clock i w).ending = .crashed
    · rw [descend_of_crashed clock _ c he]
      refine ⟨0, fun patience rest ↦ progress_andThen_of_crashed _ ?_⟩
      rw [send_atop]
      exact if_pos he
    · rw [descend_succ clock _ c he]
      have h := finishAll_reaches ih (pendingOf (c.walk clock i w).ending) _ (clear_record hc he)
      convert h using 3 with patience rest
      rw [send_atop, atop_andThen (clear_record hc he)]

/-! ## From the stack to the recursion -/

/-- With a depth that is enough for what comes after a walk, one more is enough for the walk. -/
theorem finishAll_piece_step {depth i : Nat} {m : Message} {more : List Message}
    {rest : List Generation} {c : Call σ}
    (he : (c.walk clock i (.ofMessage m)).ending ≠ .crashed)
    (h : finishAll clock depth
      (pendingOf (c.walk clock i (.ofMessage m)).ending ++ ⟨i, more⟩ :: rest)
      (c.record (c.walk clock i (.ofMessage m))) ≠ .error .unfinished) :
    finishAll clock (depth + 1) (⟨i, m :: more⟩ :: rest) c =
      finishAll clock depth (pendingOf (c.walk clock i (.ofMessage m)).ending ++ ⟨i, more⟩ :: rest)
        (c.record (c.walk clock i (.ofMessage m))) := by
  rw [finishAll_append] at h ⊢
  rw [finishAll_piece, descend_succ clock depth c he]
  cases hx : finishAll clock depth (pendingOf (c.walk clock i (.ofMessage m)).ending)
      (c.record (c.walk clock i (.ofMessage m))) with
  | error e => rfl
  | ok d =>
    rw [hx] at h
    exact finishAll_le (Nat.le_succ depth) h

/-- A drain that comes to an end does so as the recursion says at some depth. -/
theorem exists_finishAll (patience : Nat) (families : List Generation) (c : Call σ)
    (hc : c.Clear) (h : (drain clock patience (c.atop families)).progress ≠ .unfinished) :
    ∃ depth, Agrees (finishAll clock depth families c)
      (drain clock patience (c.atop families)) := by
  induction patience generalizing families c with
  | zero =>
    cases families with
    | nil => exact ⟨0, rfl⟩
    | cons g rest => exact absurd (drain_zero c g rest) h
  | succ patience ih =>
    match families with
    | [] => exact ⟨0, rfl⟩
    | ⟨i, []⟩ :: rest =>
      rw [drain_atop_used] at h ⊢
      exact ih rest c hc h
    | ⟨i, m :: more⟩ :: rest =>
      rw [drain_atop_piece, send_atop] at h ⊢
      by_cases he : (c.walk clock i (.ofMessage m)).ending = .crashed
      · refine ⟨1, ?_⟩
        rw [finishAll_piece, descend_of_crashed clock 0 c he]
        exact ⟨rfl, progress_andThen_of_crashed _ (if_pos he)⟩
      · have hr := clear_record hc he
        rw [atop_andThen hr] at h ⊢
        obtain ⟨depth, hd⟩ := ih _ _ hr h
        refine ⟨depth + 1, ?_⟩
        rw [finishAll_piece_step he hd.finished]
        exact hd

theorem exists_descend (patience : Nat) (c : Call σ) (hc : c.Clear) (i : Nat) (w : Wrapper)
    (h : (((c.atop []).send clock i w).andThen (drain clock patience)).progress ≠ .unfinished) :
    ∃ depth, Agrees (descend clock depth c i w)
      (((c.atop []).send clock i w).andThen (drain clock patience)) := by
  rw [send_atop] at h ⊢
  by_cases he : (c.walk clock i w).ending = .crashed
  · refine ⟨1, ?_⟩
    rw [descend_of_crashed clock 0 c he]
    exact ⟨rfl, progress_andThen_of_crashed _ (if_pos he)⟩
  · have hr := clear_record hc he
    rw [atop_andThen hr, List.append_nil] at h ⊢
    obtain ⟨depth, hd⟩ := exists_finishAll patience _ _ hr h
    refine ⟨depth + 1, ?_⟩
    rw [descend_succ clock depth c he]
    exact hd

end Call

/-! ## Calls -/

namespace Chain

open Call

variable [Behaviour σ] {moment : Moment} {c : Chain σ} {m : Message}

/-- What the recursion comes to, the stack comes to with enough patience. -/
theorem exists_process_of_evaluate {depth : Nat}
    (h : c.evaluate depth moment m ≠ .error .unfinished) :
    ∃ patience, Agrees (c.evaluate depth moment m) (c.process patience moment m) := by
  have hp := finishAll_reaches (descends moment.clock depth) c.pending _ (clear_opening moment c)
  unfold evaluate at h ⊢
  cases hx : finishAll moment.clock depth c.pending (opening moment c) with
  | error e =>
    rw [hx] at h hp
    obtain ⟨k, hk⟩ := hp.agrees h
    obtain ⟨rfl, hc⟩ := hk 0
    rw [List.append_nil] at hc
    exact ⟨k + 0, rfl, progress_andThen_of_crashed _ hc⟩
  | ok d =>
    rw [hx] at h hp
    obtain ⟨hd, k, hk⟩ := hp
    obtain ⟨l, hl⟩ := (descends moment.clock depth d 0 (.ofMessage m) hd).agrees h
    refine ⟨k + l, ?_⟩
    have hdrain : drain moment.clock (k + l) ((opening moment c).atop c.pending) = d.atop [] := by
      simpa only [List.append_nil, drain_atop_nil] using hk l []
    rw [process_eq, hdrain, atop_andThen hd, Nat.add_comm k l]
    exact hl k

/-- A call that comes to an end does so as the recursion says at some depth. -/
theorem exists_evaluate_of_process {patience : Nat}
    (h : (c.process patience moment m).progress ≠ .unfinished) :
    ∃ depth, Agrees (c.evaluate depth moment m) (c.process patience moment m) := by
  rw [process_eq] at h ⊢
  have hdrain : (drain moment.clock patience ((opening moment c).atop c.pending)).progress ≠
      .unfinished := fun hu ↦ h (by simp only [andThen, hu])
  obtain ⟨depth, hd⟩ := exists_finishAll patience c.pending _ (clear_opening moment c) hdrain
  cases hx : finishAll moment.clock depth c.pending (opening moment c) with
  | error e =>
    rw [hx] at hd
    obtain ⟨rfl, hc⟩ := hd
    refine ⟨depth, ?_⟩
    rw [evaluate, hx]
    exact ⟨rfl, progress_andThen_of_crashed _ hc⟩
  | ok d =>
    have hcd := clear_finishAll (clear_opening moment c) hx
    rw [hx] at hd
    rw [show drain moment.clock patience ((opening moment c).atop c.pending) = d.atop [] from hd,
      atop_andThen hcd] at h ⊢
    obtain ⟨depth', hd'⟩ := exists_descend patience d hcd 0 (.ofMessage m) h
    refine ⟨max depth depth', ?_⟩
    rw [evaluate, finishAll_le (Nat.le_max_left _ _) (by rw [hx]; exact hd.finished), hx]
    change Agrees (descend moment.clock _ d 0 (.ofMessage m)) _
    rw [descend_le (Nat.le_max_right _ _) hd'.finished]
    exact hd'

/-- The recursion leaves no family pending. -/
theorem clear_evaluate {depth : Nat} {r : Call σ} (h : c.evaluate depth moment m = .ok r) :
    r.Clear := by
  rw [evaluate] at h
  cases hx : finishAll moment.clock depth c.pending (opening moment c) with
  | error e =>
    rw [hx] at h
    cases h
  | ok d =>
    rw [hx] at h
    exact clear_descend (clear_finishAll (clear_opening moment c) hx) h

/-- A call returns exactly when the recursion does, with the same output, the same states of the
stages, the same visits in the same order and the same names used. It leaves no family pending. -/
theorem process_returns_iff (moment : Moment) (c : Chain σ) (m : Message) (r : Call σ) :
    (∃ patience, c.process patience moment m = r ∧ r.progress = .returned) ↔
      (∃ depth, c.evaluate depth moment m = .ok r) ∧ r.chain.isGenerating = false := by
  constructor
  · rintro ⟨patience, hp, hr⟩
    have hu : (c.process patience moment m).progress ≠ .unfinished := by
      rw [hp, hr]
      decide
    obtain ⟨depth, hd⟩ := exists_evaluate_of_process hu
    rw [hp] at hd
    cases hx : c.evaluate depth moment m with
    | error e =>
      rw [hx] at hd
      exact absurd (hr.symm.trans hd.2) (by decide)
    | ok d =>
      have hcd := clear_evaluate hx
      rw [hx] at hd
      obtain rfl : r = d := Eq.trans hd (atop_nil hcd)
      refine ⟨⟨depth, hx⟩, ?_⟩
      simp [isGenerating, hcd.pending]
  · rintro ⟨⟨depth, h⟩, -⟩
    have hr := clear_evaluate h
    obtain ⟨patience, hp⟩ := exists_process_of_evaluate (finished_of_ok h)
    rw [h] at hp
    exact ⟨patience, Eq.trans hp (atop_nil hr), hr.progress⟩

end Chain

end Conduit
