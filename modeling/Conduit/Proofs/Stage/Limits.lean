import Mathlib.Data.List.TakeWhile
import Conduit.Proofs.Stage.Windows

/-!
# A throttle as a limiter

A throttle in drop mode is offered messages, in the order of time. The first one opens a window and
takes along all that come before it is over; the next one opens another window (`Throttle.batches`).
What the throttle answers is told by these windows alone: in each it accepts the first messages up
to its rate and rejects the rest (`Throttle.offerAll_eq`). Since windows open at least a period
apart, no more than two of them reach into an interval of one period, so that no more than twice the
rate is accepted in it.
-/

namespace Conduit.Stage.Throttle

/-! ## Windows -/

/-- A message and when it is offered. -/
structure Arrival where
  moment : Moment
  message : Wrapper

def Arrival.time (a : Arrival) : Nat := a.moment.now

/-- The messages of one window: the one that opens it, and those that come before it is over. -/
structure Batch where
  first : Arrival
  further : List Arrival

def Batch.all (v : Batch) : List Arrival := v.first :: v.further

/-- Arrivals by windows. -/
def batches (period : Nat) : List Arrival → List Batch
  | [] => []
  | a :: rest =>
    ⟨a, rest.takeWhile (·.time < a.time + period)⟩ ::
      batches period (rest.dropWhile (·.time < a.time + period))
termination_by arrivals => arrivals.length
decreasing_by exact Nat.lt_succ_of_le (List.length_dropWhile_le _ _)

/-- Offers messages one after the other, and notes the answers. -/
def offerAll (s : Throttle) : List Arrival → List (Arrival × Response Throttle)
  | [] => []
  | a :: rest =>
    let r := s.process a.moment a.message
    (a, r) :: offerAll r.state rest

/-- The messages that are let through. -/
def accepted (s : Throttle) (arrivals : List Arrival) : List Arrival :=
  ((s.offerAll arrivals).filter (·.2.passes)).map Prod.fst

/-- The throttle in a window that was opened at `start` and to which `k` messages have come. -/
def filled (s : Throttle) (start k : Nat) : Throttle :=
  { s with opened := some start, count := min s.rate k }

/-- The answer to the message to whose window `k` messages have come before. -/
def answer (s : Throttle) (start k : Nat) (w : Wrapper) : Response Throttle :=
  { state := s.filled start (k + 1), outcome := .done (w.decide (k < s.rate)) }

/-- The answers in one window: as many messages as the rate allows are accepted, the rest is
rejected. -/
def Batch.answers (s : Throttle) (v : Batch) : List (Arrival × Response Throttle) :=
  v.all.zipIdx.map fun (a, k) ↦ (a, s.answer v.first.time k a.message)

/-- The time lies in the period from `t` on. -/
def Arrival.within (t period : Nat) (a : Arrival) : Bool := t ≤ a.time && a.time < t + period

theorem Arrival.within_iff {t period : Nat} {a : Arrival} :
    a.within t period = true ↔ t ≤ a.time ∧ a.time < t + period := by
  simp [within]

section

variable {period : Nat} {arrivals : List Arrival}

/-- Every message comes in one window, in order. -/
theorem flatMap_all_batches (period : Nat) (arrivals : List Arrival) :
    (batches period arrivals).flatMap Batch.all = arrivals := by
  fun_induction batches period arrivals with
  | case1 => rfl
  | case2 a rest ih =>
    rw [List.flatMap_cons, ih, Batch.all, List.cons_append, List.takeWhile_append_dropWhile]

theorem time_lt_of_mem_batches {v : Batch} (hv : v ∈ batches period arrivals) {a : Arrival}
    (ha : a ∈ v.further) : a.time < v.first.time + period := by
  fun_induction batches period arrivals with
  | case1 => cases hv
  | case2 b rest ih =>
    rcases List.mem_cons.1 hv with rfl | hv
    · simpa using List.mem_takeWhile_imp ha
    · exact ih hv

/-- The messages of a window come from its opening until it is over. -/
theorem spans_batches (hperiod : 0 < period) (hsorted : arrivals.Pairwise (·.time ≤ ·.time)) :
    ∀ v ∈ batches period arrivals, ∀ a ∈ v.all,
      v.first.time ≤ a.time ∧ a.time < v.first.time + period := by
  intro v hv
  have hsub : v.all.Sublist arrivals := by
    rw [← flatMap_all_batches period arrivals]
    exact List.sublist_flatten_of_mem (List.mem_map_of_mem hv)
  obtain ⟨hlater, -⟩ := List.pairwise_cons.1 (hsorted.sublist hsub)
  refine List.forall_mem_cons.2 ⟨⟨Nat.le_refl _, Nat.lt_add_of_pos_right hperiod⟩, fun a ha ↦ ?_⟩
  exact ⟨hlater a ha, time_lt_of_mem_batches hv ha⟩

/-- In the order of time, what is left of the messages before some time comes at that time or
later. -/
theorem le_time_of_mem_dropWhile (hsorted : arrivals.Pairwise (·.time ≤ ·.time)) {stop : Instant}
    {a : Arrival} (ha : a ∈ arrivals.dropWhile (·.time < stop)) : stop ≤ a.time := by
  induction arrivals with
  | nil => cases ha
  | cons b rest ih =>
    obtain ⟨hb, hrest⟩ := List.pairwise_cons.1 hsorted
    by_cases hearly : b.time < stop
    · rw [List.dropWhile_cons_of_pos (by simpa using hearly)] at ha
      exact ih hrest ha
    · rw [List.dropWhile_cons_of_neg (by simpa using hearly)] at ha
      have hlate := Nat.not_lt.1 hearly
      rcases List.mem_cons.1 ha with rfl | ha
      · exact hlate
      · exact Nat.le_trans hlate (hb a ha)

/-- Windows open at least a period apart. -/
theorem pairwise_batches (hsorted : arrivals.Pairwise (·.time ≤ ·.time)) :
    (batches period arrivals).Pairwise fun v v' ↦ v.first.time + period ≤ v'.first.time := by
  fun_induction batches period arrivals with
  | case1 => exact .nil
  | case2 a rest ih =>
    have hrest := (List.pairwise_cons.1 hsorted).2
    refine List.pairwise_cons.2 ⟨fun v hv ↦ ?_, ih (hrest.sublist (List.dropWhile_sublist _))⟩
    have hfirst : v.first ∈ rest.dropWhile (·.time < a.time + period) := by
      rw [← flatMap_all_batches period (rest.dropWhile _)]
      exact List.mem_flatMap_of_mem hv List.mem_cons_self
    exact le_time_of_mem_dropWhile hrest hfirst

end

/-! ## What a window answers -/

section

variable {s : Throttle}

theorem answers_filled (s : Throttle) (start k : Nat) :
    Batch.answers (s.filled start k) = Batch.answers s := rfl

theorem isOpen_filled (hperiod : 0 < s.period) {start now : Nat} (k : Nat)
    (hnow : now < start + s.period) : (s.filled start k).isOpen now = true :=
  isOpen_iff.2 ⟨start, rfl, show now - start < s.period by omega⟩

theorem not_isOpen_filled {start now : Nat} (k : Nat) (hnow : start + s.period ≤ now) :
    (s.filled start k).isOpen now = false :=
  decide_eq_false (show ¬ now - start < s.period by omega)

/-- In a window that is open, a message is accepted if there is room for it. -/
theorem process_filled (hmode : s.mode = .drop) {start k : Nat} {a : Arrival}
    (hopen : (s.filled start k).isOpen a.time = true) :
    (s.filled start k).process a.moment a.message = s.answer start k a.message := by
  have hroll : (s.filled start k).roll a.moment.now = s.filled start k := roll_of_isOpen hopen
  rw [process, hroll, answer]
  dsimp only
  by_cases hroom : k < s.rate
  · have hcount : (s.filled start k).count = k := Nat.min_eq_right (Nat.le_of_lt hroom)
    have hless : (s.filled start k).count < (s.filled start k).rate := by rwa [hcount]
    rw [if_pos hless, decide_eq_true hroom, hcount, filled, filled, Nat.min_eq_right hroom]
    rfl
  · have hfull : s.rate ≤ k := Nat.not_lt.1 hroom
    have hstays : s.filled start k = s.filled start (k + 1) := by
      rw [filled, filled, Nat.min_eq_left hfull, Nat.min_eq_left (Nat.le_succ_of_le hfull)]
    have hcount : (s.filled start k).count = s.rate := Nat.min_eq_left hfull
    have hnot : ¬ (s.filled start k).count < (s.filled start k).rate :=
      Nat.not_lt.2 (Nat.le_of_eq hcount.symm)
    have hdrop : (s.filled start k).mode = .drop := hmode
    rw [if_neg hnot, hdrop, decide_eq_false hroom, hstays]

/-- A message that comes when no window is open is the first one of the next. -/
theorem process_of_not_isOpen (hrate : 0 < s.rate) {a : Arrival} (hover : s.isOpen a.time = false) :
    s.process a.moment a.message = s.answer a.time 0 a.message := by
  have hroll : s.roll a.moment.now = { s with opened := some a.time, count := 0 } :=
    roll_of_not_isOpen hover
  rw [process, hroll]
  dsimp only [filled, answer]
  rw [if_pos hrate, Nat.min_eq_right hrate, decide_eq_true hrate]
  rfl

/-- The answers in a window to which `k` messages have come before. -/
theorem offerAll_filled (hmode : s.mode = .drop) {start k : Nat} {further : List Arrival}
    (hopen : ∀ a ∈ further, ∀ k, (s.filled start k).isOpen a.time = true) (later : List Arrival) :
    offerAll (s.filled start k) (further ++ later) =
      (further.zipIdx k).map (fun (a, k) ↦ (a, s.answer start k a.message)) ++
        offerAll (s.filled start (k + further.length)) later := by
  induction further generalizing k with
  | nil => rfl
  | cons a further ih =>
    obtain ⟨ha, hfurther⟩ := List.forall_mem_cons.1 hopen
    rw [List.cons_append, offerAll, process_filled hmode (ha k)]
    change _ :: offerAll (s.filled start (k + 1)) (further ++ later) = _
    rw [ih hfurther, List.zipIdx_cons, List.map_cons, List.cons_append, List.length_cons,
      Nat.add_right_comm, Nat.add_assoc]

/-- If no window is open when the first message comes, all is answered by windows. What one window
leaves behind changes no answer in the next (`answers_filled`). -/
theorem offerAll_eq {period : Nat} {arrivals : List Arrival} (hconfig : s.period = period)
    (hmode : s.mode = .drop) (hrate : 0 < s.rate) (hperiod : 0 < period)
    (hsorted : arrivals.Pairwise (·.time ≤ ·.time))
    (hover : ∀ a ∈ arrivals.head?, s.isOpen a.time = false) :
    s.offerAll arrivals = (batches period arrivals).flatMap (Batch.answers s) := by
  fun_induction batches period arrivals generalizing s with
  | case1 => rfl
  | case2 a rest ih =>
    have hrest := (List.pairwise_cons.1 hsorted).2
    set further := rest.takeWhile (·.time < a.time + period) with hfurther
    set later := rest.dropWhile (·.time < a.time + period) with hlater
    have hopen : ∀ b ∈ further, ∀ k, (s.filled a.time k).isOpen b.time = true := fun b hb k ↦
      isOpen_filled (hconfig ▸ hperiod) k (by simpa [hconfig] using List.mem_takeWhile_imp hb)
    have hnext := ih (s := s.filled a.time (1 + further.length)) hconfig hmode hrate
      (hrest.sublist (List.dropWhile_sublist _)) fun b hb ↦
        not_isOpen_filled _ (hconfig ▸ le_time_of_mem_dropWhile hrest (List.mem_of_mem_head? hb))
    calc s.offerAll (a :: rest)
      _ = (a, s.answer a.time 0 a.message) :: offerAll (s.filled a.time 1) rest := by
        rw [offerAll, process_of_not_isOpen hrate (hover a rfl)]
        rfl
      _ = (a, s.answer a.time 0 a.message) :: offerAll (s.filled a.time 1) (further ++ later) := by
        rw [hfurther, hlater, List.takeWhile_append_dropWhile]
      _ = (a, s.answer a.time 0 a.message) ::
            ((further.zipIdx 1).map (fun (b, k) ↦ (b, s.answer a.time k b.message)) ++
              (batches period later).flatMap (Batch.answers s)) := by
        rw [offerAll_filled hmode hopen, hnext, answers_filled]
      _ = Batch.answers s ⟨a, further⟩ ++ (batches period later).flatMap (Batch.answers s) := rfl

theorem passes_answer (s : Throttle) (start k : Nat) (w : Wrapper) :
    (s.answer start k w).passes = decide (k < s.rate) := rfl

/-- Of the messages that come to a window after `k` others, the first ones are let through as long
as there is room. -/
theorem map_filter_passes_answer (s : Throttle) (start k : Nat) (further : List Arrival) :
    (((further.zipIdx k).map fun (a, k) ↦ (a, s.answer start k a.message)).filter
      (·.2.passes)).map Prod.fst = further.take (s.rate - k) := by
  induction further generalizing k with
  | nil => rw [List.take_nil]; rfl
  | cons a further ih =>
    rw [List.zipIdx_cons, List.map_cons]
    by_cases hroom : k < s.rate
    · have hleft : s.rate - k = s.rate - (k + 1) + 1 := by omega
      rw [List.filter_cons_of_pos (by simp [passes_answer, hroom]), List.map_cons, ih, hleft,
        List.take_succ_cons]
    · have hleft : s.rate - k = 0 ∧ s.rate - (k + 1) = 0 := by omega
      rw [List.filter_cons_of_neg (by simp [passes_answer, hroom]), ih, hleft.1, hleft.2,
        List.take_zero, List.take_zero]

theorem accepted_eq {arrivals : List Arrival} {vs : List Batch}
    (hanswers : s.offerAll arrivals = vs.flatMap (Batch.answers s)) :
    s.accepted arrivals = vs.flatMap fun v ↦ v.all.take s.rate := by
  rw [accepted, hanswers, List.filter_flatMap, List.map_flatMap]
  exact congrArg (List.flatMap · vs) (funext fun v ↦
    map_filter_passes_answer s v.first.time 0 v.all)

end

/-! ## Intervals -/

section

variable {rate period t : Nat} {vs : List Batch}

/-- Messages of windows that open from `t` on: the first window may pass as many as the rate, the
others come too late. -/
theorem countP_take_le_rate (hapart : vs.Pairwise fun v v' ↦ v.first.time + period ≤ v'.first.time)
    (hspans : ∀ v ∈ vs, ∀ a ∈ v.all, v.first.time ≤ a.time ∧ a.time < v.first.time + period)
    (hfirst : ∀ v ∈ vs, t ≤ v.first.time) :
    (vs.flatMap fun v ↦ v.all.take rate).countP (·.within t period) ≤ rate := by
  cases vs with
  | nil => exact Nat.zero_le rate
  | cons v vs =>
    obtain ⟨hv, -⟩ := List.pairwise_cons.1 hapart
    have hlate : (vs.flatMap fun v ↦ v.all.take rate).countP (·.within t period) = 0 := by
      refine List.countP_eq_zero.2 fun a ha hwithin ↦ ?_
      obtain ⟨v', hv', ha⟩ := List.mem_flatMap.1 ha
      have hnext := hv v' hv'
      have hstart := hfirst v List.mem_cons_self
      obtain ⟨hcome, -⟩ := hspans v' (List.mem_cons_of_mem _ hv') a (List.mem_of_mem_take ha)
      obtain ⟨-, hin⟩ := Arrival.within_iff.1 hwithin
      omega
    rw [List.flatMap_cons, List.countP_append, hlate, Nat.add_zero]
    exact Nat.le_trans List.countP_le_length (List.length_take_le _ _)

/-- Of windows at least a period apart, no more than two reach into one period. -/
theorem countP_take_le (hapart : vs.Pairwise fun v v' ↦ v.first.time + period ≤ v'.first.time)
    (hspans : ∀ v ∈ vs, ∀ a ∈ v.all, v.first.time ≤ a.time ∧ a.time < v.first.time + period) :
    (vs.flatMap fun v ↦ v.all.take rate).countP (·.within t period) ≤ 2 * rate := by
  induction vs with
  | nil => exact Nat.zero_le _
  | cons v vs ih =>
    obtain ⟨hv, hrest⟩ := List.pairwise_cons.1 hapart
    obtain ⟨hspan, hspans⟩ := List.forall_mem_cons.1 hspans
    rw [List.flatMap_cons, List.countP_append]
    -- a window that is over by `t` counts for nothing; otherwise all later ones open from `t` on
    by_cases hearly : v.first.time + period ≤ t
    · have hnone : (v.all.take rate).countP (·.within t period) = 0 := by
        refine List.countP_eq_zero.2 fun a ha hwithin ↦ ?_
        obtain ⟨-, hcome⟩ := hspan a (List.mem_of_mem_take ha)
        obtain ⟨hin, -⟩ := Arrival.within_iff.1 hwithin
        omega
      rw [hnone, Nat.zero_add]
      exact ih hrest hspans
    · have hfirst : (v.all.take rate).countP (·.within t period) ≤ rate :=
        Nat.le_trans List.countP_le_length (List.length_take_le _ _)
      have hothers : (vs.flatMap fun v ↦ v.all.take rate).countP (·.within t period) ≤ rate :=
        countP_take_le_rate hrest hspans fun v' hv' ↦
          Nat.le_trans (Nat.le_of_not_le hearly) (hv v' hv')
      omega

end

/-! ## The limiter -/

/-- What a throttle is as a limiter. -/
structure Limits (s : Throttle) (arrivals : List Arrival) : Prop where
  /-- The windows cover the messages, in order. -/
  covers : (batches s.period arrivals).flatMap Batch.all = arrivals
  /-- The messages of a window come from its opening until it is over. -/
  spans : ∀ v ∈ batches s.period arrivals, ∀ a ∈ v.all,
    v.first.time ≤ a.time ∧ a.time < v.first.time + s.period
  /-- No window opens before the ones before it are over. -/
  apart : (batches s.period arrivals).Pairwise fun v v' ↦
    v.first.time + s.period ≤ v'.first.time
  /-- Each message is answered by its place in its window. -/
  answers : s.offerAll arrivals = (batches s.period arrivals).flatMap (Batch.answers s)
  /-- The first messages of each window are let through. -/
  accepts : s.accepted arrivals = (batches s.period arrivals).flatMap fun v ↦ v.all.take s.rate
  /-- No period lets through more than two windows can. -/
  bounded : ∀ t, (s.accepted arrivals).countP (·.within t s.period) ≤ 2 * s.rate

/-- Whatever messages come in the order of time, a throttle in drop mode is an exact limiter. -/
theorem limits_drop {rate period : Nat} (hrate : 0 < rate) (hperiod : 0 < period)
    {arrivals : List Arrival} (hsorted : arrivals.Pairwise (·.time ≤ ·.time)) :
    Limits { rate, period, mode := .drop } arrivals := by
  have hanswers := offerAll_eq (s := { rate, period, mode := .drop }) rfl rfl hrate hperiod hsorted
    fun _ _ ↦ rfl
  exact
    { covers := flatMap_all_batches period arrivals
      spans := spans_batches hperiod hsorted
      apart := pairwise_batches hsorted
      answers := hanswers
      accepts := accepted_eq hanswers
      bounded := fun t ↦ by
        rw [accepted_eq hanswers]
        exact countP_take_le (pairwise_batches hsorted) (spans_batches hperiod hsorted) }

/-- Three messages come at once, one in the moment in which their window is over, and three long
after, the last of them just before their window is over. -/
def drizzle : List Arrival :=
  [5, 5, 5, 1005, 7000, 7400, 7999].map fun now ↦
    ⟨⟨now, 0⟩, .ofMessage (.ofRaw "t" [97])⟩

theorem limits_drop_drizzle :
    (0 < 2 ∧ 0 < 1000 ∧ drizzle.Pairwise (·.time ≤ ·.time)) ∧
      Limits { rate := 2, period := 1000, mode := .drop } drizzle :=
  ⟨⟨by decide, by decide, by decide⟩, limits_drop (by decide) (by decide) (by decide)⟩

end Conduit.Stage.Throttle
