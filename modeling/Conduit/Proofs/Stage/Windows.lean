import Mathlib.Data.List.Defs
import Conduit.Stage.Throttle

/-!
# Windows of a throttle

A throttle is shown messages, and its timers go off, each when it is due or later
(`Throttle.Comes`). What it lets through is counted by windows. A message that comes is let through
if its window has room for it, but a held message is let go whether there is room or not. Its timer
is due when the window is over in which it was set. If nothing came in between, the held message
opens a window and is the first in it. A message that overtakes the timer opens a window as well,
and may have filled it when the held message is let go (`Throttle.overtaken`). Then the window
passes one message more than the rate, and that is all that can happen (`Throttle.passed_le`).
-/

namespace Conduit.Stage

/-- Whether the stage has let the message through. -/
def Response.passes {σ : Type} (r : Response σ) : Bool :=
  match r.outcome with
  | .done w => w.accepted
  | _ => false

/-- Whether the stage has let a message go. -/
def Release.passes {σ : Type} (r : Release σ) : Bool :=
  match r.result with
  | .ok (some _) => true
  | _ => false

namespace Throttle

variable {s s' : Throttle} {now : Instant} {passes : Bool} {timers : List Timer}

/-! ## What a throttle can do -/

theorem roll_of_isOpen (h : s.isOpen now = true) : s.roll now = s := if_pos h

theorem roll_of_not_isOpen (h : s.isOpen now = false) :
    s.roll now = { s with opened := some now, count := 0 } := if_neg (by simp [h])

/-- What a throttle does with a message: its state then, whether the message passes, and the timers
that are set. -/
inductive Meets (s : Throttle) (now : Instant) : Throttle → Bool → List Timer → Prop
  | first : s.isOpen now = false → Meets s now { s with opened := some now, count := 1 } true []
  | further : s.isOpen now = true → s.count < s.rate →
      Meets s now { s with count := s.count + 1 } true []
  | full (held : Option Message) : s.isOpen now = true → s.rate ≤ s.count →
      Meets s now { s with held } false []
  | waits (m : Message) : s.isOpen now = true → s.rate ≤ s.count → s.pending = false →
      Meets s now { s with held := some m, token := s.token + 1, pending := true } false
        [⟨s.remaining now, s.token + 1⟩]

theorem meets_process (hrate : 0 < s.rate) (moment : Moment) (w : Wrapper) :
    let r := s.process moment w
    Meets s moment.now r.state r.passes r.timers := by
  dsimp only
  cases hopen : s.isOpen moment.now with
  | false =>
    rw [process, roll_of_not_isOpen hopen]
    dsimp only
    rw [if_pos hrate]
    exact .first hopen
  | true =>
    rw [process, roll_of_isOpen hopen]
    dsimp only
    by_cases hroom : s.count < s.rate
    · rw [if_pos hroom]
      exact .further hopen hroom
    · have hfull := Nat.not_lt.1 hroom
      rw [if_neg hroom]
      obtain ⟨rate, period, mode, opened, count, held, token, pending⟩ := s
      cases mode with
      | drop => exact .full held hopen hfull
      | delay =>
        cases pending with
        | true => exact .full (some _) hopen hfull
        | false => exact .waits _ hopen hfull rfl

/-- What a throttle does when its timer goes off: its state then, and whether it lets a message
go. -/
inductive Frees (s : Throttle) (now : Instant) : Throttle → Bool → Prop
  | nothing : Frees s now { s with pending := false } false
  | first : s.isOpen now = false →
      Frees s now { s with pending := false, held := none, opened := some now, count := 1 } true
  | further : s.isOpen now = true →
      Frees s now
        { s with pending := false, held := none, count := min (s.count + 1) (0x100000000 - 1) } true

theorem frees_expire (s : Throttle) (now : Instant) :
    Frees s now (s.expire now s.token).state (s.expire now s.token).passes := by
  rw [expire, if_neg (fun h ↦ h rfl)]
  dsimp only
  obtain ⟨rate, period, mode, opened, count, held, token, pending⟩ := s
  cases held with
  | none => exact .nothing
  | some m =>
    dsimp only
    cases hopen : isOpen ⟨rate, period, mode, opened, count, none, token, false⟩ now with
    | false =>
      rw [roll_of_not_isOpen hopen]
      exact .first hopen
    | true =>
      rw [roll_of_isOpen hopen]
      exact .further hopen

end Throttle

/-! ## A throttle in the course of time -/

/-- A window of a throttle. -/
structure Window where
  /-- Whether a message has opened the window when a timer was due that had not gone off. -/
  overtaking : Bool := false
  /-- How many messages were let through when they came. -/
  accepted : Nat := 0
  /-- How many messages were held first and let go in this window. -/
  released : Nat := 0
deriving DecidableEq

namespace Window

def passed (v : Window) : Nat := v.accepted + v.released

def accept (v : Window) : Window := { v with accepted := v.accepted + 1 }

def release (v : Window) : Window := { v with released := v.released + 1 }

end Window

/-- A throttle, the timers that it has set and that have not gone off, and its windows. -/
structure Course where
  stage : Throttle
  now : Instant
  /-- When the timers are due, and their tokens. -/
  timers : List (Instant × UInt64) := []
  /-- The windows so far, the latest first. -/
  windows : List Window := []

namespace Course

/-- The windows when the throttle is called: a new one is opened unless one is open. -/
def rolled (p : Course) (now : Instant) (overtaking : Bool) : List Window :=
  if p.stage.isOpen now then p.windows else { overtaking } :: p.windows

/-- A message comes. -/
def message (p : Course) (moment : Moment) (w : Wrapper) : Course :=
  let r := p.stage.process moment w
  let windows := p.rolled moment.now (p.timers.any (·.1 ≤ moment.now))
  { stage := r.state, now := moment.now
    timers := p.timers ++ r.timers.map fun t => (moment.now + t.delay, t.token)
    windows := if r.passes then windows.modifyHead Window.accept else windows }

/-- A timer goes off. -/
def ring (p : Course) (now : Instant) (timer : Instant × UInt64) : Course :=
  let r := p.stage.expire now timer.2
  { stage := r.state, now, timers := p.timers.erase timer
    windows := if r.passes then (p.rolled now false).modifyHead Window.release else p.windows }

variable {p : Course} {now : Instant}

theorem rolled_of_isOpen (h : p.stage.isOpen now = true) (overtaking : Bool) :
    p.rolled now overtaking = p.windows := if_pos h

theorem rolled_of_not_isOpen (h : p.stage.isOpen now = false) (overtaking : Bool) :
    p.rolled now overtaking = { overtaking } :: p.windows := if_neg (by simp [h])

end Course

namespace Throttle

/-- What a throttle may come to: messages come at any time, and each timer goes off once, when it is
due or later. Time does not go back. -/
inductive Comes (s : Throttle) : Course → Prop
  | start (now : Instant) : Comes s { stage := s, now }
  | message {p : Course} {moment : Moment} (w : Wrapper) :
      Comes s p → p.now ≤ moment.now → Comes s (p.message moment w)
  | ring {p : Course} {now : Instant} {timer : Instant × UInt64} :
      Comes s p → p.now ≤ now → timer ∈ p.timers → timer.1 ≤ now → Comes s (p.ring now timer)

/-! ## What a window passes -/

section

variable {rate : Nat} {v : Window}

/-- A window passes no more than the rate, or one message more if it overtakes. -/
structure Fair (rate : Nat) (v : Window) : Prop where
  accepted : v.accepted ≤ rate
  released : v.released ≤ 1
  passed : v.passed ≤ rate ∨ v.overtaking = true ∧ v.passed = rate + 1

/-- The first message fits. -/
theorem fair_first (hrate : 0 < rate) (h : v.passed = 1) : Fair rate v := by
  have hsum : v.accepted + v.released = 1 := h
  exact ⟨by omega, by omega, .inl (by omega)⟩

@[simp] theorem passed_accept (v : Window) : v.accept.passed = v.passed + 1 :=
  Nat.add_right_comm v.accepted 1 v.released

@[simp] theorem passed_release (v : Window) : v.release.passed = v.passed + 1 := rfl

theorem Fair.accept (h : Fair rate v) (hroom : v.passed < rate) : Fair rate v.accept := by
  refine ⟨?_, h.released, .inl (by rwa [passed_accept])⟩
  exact Nat.lt_of_le_of_lt (Nat.le_add_right v.accepted v.released) hroom

theorem Fair.release (h : Fair rate v) (hover : v.overtaking = true) (hnone : v.released = 0) :
    Fair rate v.release := by
  have hpassed : v.passed = v.accepted := congrArg (v.accepted + ·) hnone
  refine ⟨h.accepted, Nat.le_of_eq (congrArg (· + 1) hnone), ?_⟩
  rw [passed_release, hpassed]
  rcases Nat.lt_or_eq_of_le h.accepted with hless | hfull
  · exact .inl hless
  · exact .inr ⟨hover, congrArg (· + 1) hfull⟩

end

/-! ## What every course keeps -/

/-- A timer on its way is due when the window is over, or it was due before the window was opened,
and then nothing has been let go in that window. -/
inductive Late (p : Course) (due : Instant) : Prop
  | later {start : Instant} :
      p.stage.opened = some start → due = start + p.stage.period → Late p due
  | overtaken {v : Window} {earlier : List Window} : p.windows = v :: earlier →
      v.overtaking = true → v.released = 0 → due ≤ p.now → Late p due

/-- The throttle waits for the timer that is on its way, and there is no other. -/
inductive Awaits (p : Course) : Prop
  | nothing : p.stage.pending = false → p.timers = [] → Awaits p
  | timer {due : Instant} :
      p.stage.pending = true → p.timers = [(due, p.stage.token)] → Late p due → Awaits p

/-- Where a throttle with that rate stands in its course: it counts what its window passes as far as
it can count. -/
structure Steady (rate : Nat) (p : Course) : Prop where
  config : p.stage.rate = rate
  opened : ∀ start, p.stage.opened = some start → start ≤ p.now
  counts : p.stage.opened ≠ none →
    ∃ v earlier, p.windows = v :: earlier ∧ p.stage.count = min v.passed (0x100000000 - 1)
  fair : ∀ v ∈ p.windows, Fair rate v
  timers : Awaits p

section

variable {rate : Nat} {p : Course} {now : Instant}

theorem isOpen_iff {s : Throttle} : s.isOpen now = true ↔
    ∃ start, s.opened = some start ∧ now - start < s.period := by
  unfold isOpen
  cases s.opened with
  | none => simp
  | some start => simp

theorem steady_start {s : Throttle} (hopened : s.opened = none) (hpending : s.pending = false)
    (now : Instant) : Steady s.rate { stage := s, now } where
  config := rfl
  opened start h := by cases hopened.symm.trans h
  counts h := absurd hopened h
  fair v hv := by cases hv
  timers := .nothing hpending rfl

/-- In a window that is open the throttle counts what passes. -/
theorem Steady.counted (h : Steady rate p) (hopen : p.stage.isOpen now = true) :
    ∃ v earlier, p.windows = v :: earlier ∧ p.stage.count = min v.passed (0x100000000 - 1) ∧
      Fair rate v ∧ ∀ v ∈ earlier, Fair rate v := by
  obtain ⟨start, hstart, -⟩ := isOpen_iff.1 hopen
  obtain ⟨v, earlier, hwindows, hcount⟩ := h.counts (by rw [hstart]; exact nofun)
  obtain ⟨hv, hearlier⟩ := List.forall_mem_cons.1 (hwindows ▸ h.fair)
  exact ⟨v, earlier, hwindows, hcount, hv, hearlier⟩

/-- What is left of a window ends with it. -/
theorem Steady.remaining_eq (h : Steady rate p) (hnow : p.now ≤ now)
    (hopen : p.stage.isOpen now = true) :
    ∃ start, p.stage.opened = some start ∧
      now + p.stage.remaining now = start + p.stage.period := by
  obtain ⟨start, hstart, hless⟩ := isOpen_iff.1 hopen
  have hle : start ≤ now := Nat.le_trans (h.opened start hstart) hnow
  refine ⟨start, hstart, ?_⟩
  rw [remaining, hstart]
  calc now + (p.stage.period - (now - start))
    _ = start + (now - start) + (p.stage.period - (now - start)) := by
      rw [Nat.add_sub_cancel' hle]
    _ = start + p.stage.period := by
      rw [Nat.add_assoc, Nat.add_sub_cancel' (Nat.le_of_lt hless)]

/-- Once the window is over, a timer on its way is due. -/
theorem Late.due_le {due : Instant} (hlate : Late p due) (h : Steady rate p) (hnow : p.now ≤ now)
    (hover : p.stage.isOpen now = false) : due ≤ now := by
  cases hlate with
  | @later start hstart hdue =>
    have hle : start ≤ now := Nat.le_trans (h.opened start hstart) hnow
    have hlong : p.stage.period ≤ now - start := by
      refine Nat.not_lt.1 fun hless ↦ ?_
      exact absurd (isOpen_iff.2 ⟨start, hstart, hless⟩) (by simp [hover])
    calc due
      _ = start + p.stage.period := hdue
      _ ≤ start + (now - start) := Nat.add_le_add_left hlong start
      _ = now := Nat.add_sub_cancel' hle
  | overtaken _ _ _ hdue => exact Nat.le_trans hdue hnow

/-- A timer that goes off in an open window was due before it. -/
theorem Late.overtaken_of_isOpen {due : Instant} (hlate : Late p due) (hdue : due ≤ now)
    (hopen : p.stage.isOpen now = true) {v : Window} {earlier : List Window}
    (hwindows : p.windows = v :: earlier) : v.overtaking = true ∧ v.released = 0 := by
  cases hlate with
  | @later start hstart hend =>
    obtain ⟨start', hstart', hless⟩ := isOpen_iff.1 hopen
    obtain rfl := Option.some.inj (hstart.symm.trans hstart')
    have hlast : start + p.stage.period ≤ now := hend ▸ hdue
    exact absurd hless (Nat.not_lt.2 (Nat.le_sub_of_add_le' hlast))
  | overtaken heq hover hnone _ =>
    obtain ⟨rfl, rfl⟩ := List.cons.inj (hwindows.symm.trans heq)
    exact ⟨hover, hnone⟩

/-- As long as the window stays and nothing is let go in it, a timer on its way is as late. -/
theorem Late.stays {p' : Course} {due : Instant} (hlate : Late p due) (hnow : p.now ≤ p'.now)
    (hopened : p'.stage.opened = p.stage.opened) (hperiod : p'.stage.period = p.stage.period)
    (hwindows : ∀ v earlier, p.windows = v :: earlier → ∃ v', p'.windows = v' :: earlier ∧
      v'.overtaking = v.overtaking ∧ v'.released = v.released) : Late p' due := by
  cases hlate with
  | later hstart hdue => exact .later (hopened.trans hstart) (hperiod ▸ hdue)
  | overtaken heq hover hnone hdue =>
    obtain ⟨v', heq', hover', hnone'⟩ := hwindows _ _ heq
    exact .overtaken heq' (hover'.trans hover) (hnone'.trans hnone) (Nat.le_trans hdue hnow)

/-- Where no timer is set and none goes off, only the lateness of the one on its way matters. -/
theorem Awaits.of_late {p' : Course} (h : Awaits p) (htimers : p'.timers = p.timers)
    (hpending : p'.stage.pending = p.stage.pending) (htoken : p'.stage.token = p.stage.token)
    (hlate : ∀ due, (due, p.stage.token) ∈ p.timers → Late p due → Late p' due) : Awaits p' := by
  cases h with
  | nothing hidle hnone => exact .nothing (hpending.trans hidle) (htimers.trans hnone)
  | @timer due hwaits hone hdue =>
    have hmem : (due, p.stage.token) ∈ p.timers := hone ▸ List.mem_singleton_self _
    exact .timer (hpending.trans hwaits) (htoken ▸ htimers.trans hone) (hlate due hmem hdue)

/-! ## A message comes -/

/-- A message opens a window. -/
theorem Steady.first (h : Steady rate p) (hrate : 0 < rate) (hnow : p.now ≤ now)
    (hover : p.stage.isOpen now = false) :
    Steady rate
      { stage := { p.stage with opened := some now, count := 1 }, now, timers := p.timers
        windows := { overtaking := p.timers.any (·.1 ≤ now), accepted := 1 } :: p.windows } where
  config := h.config
  opened start hstart := Nat.le_of_eq (Option.some.inj hstart).symm
  counts _ := ⟨_, _, rfl, rfl⟩
  fair := List.forall_mem_cons.2 ⟨fair_first hrate rfl, h.fair⟩
  timers := h.timers.of_late rfl rfl rfl fun due hmem hlate ↦ by
    have hdue := hlate.due_le h hnow hover
    exact .overtaken rfl (List.any_eq_true.2 ⟨_, hmem, decide_eq_true hdue⟩) rfl hdue

/-- A message comes to a window that has room for it. -/
theorem Steady.further (h : Steady rate p) (hword : rate < 0x100000000) (hnow : p.now ≤ now)
    (hopen : p.stage.isOpen now = true) (hroom : p.stage.count < p.stage.rate) :
    Steady rate
      { stage := { p.stage with count := p.stage.count + 1 }, now, timers := p.timers
        windows := p.windows.modifyHead Window.accept } := by
  obtain ⟨v, earlier, hwindows, hcount, hv, hearlier⟩ := h.counted hopen
  have hless : v.passed < rate := by
    rw [h.config] at hroom
    omega
  rw [hwindows]
  refine ⟨h.config, fun start hstart ↦ Nat.le_trans (h.opened start hstart) hnow,
    fun _ ↦ ⟨_, _, rfl, ?_⟩, List.forall_mem_cons.2 ⟨hv.accept hless, hearlier⟩, ?_⟩
  · rw [passed_accept]
    dsimp only
    omega
  · refine h.timers.of_late rfl rfl rfl fun due _ hlate ↦
      hlate.stays hnow rfl rfl fun v' earlier' heq ↦ ?_
    obtain ⟨rfl, rfl⟩ := List.cons.inj (hwindows.symm.trans heq)
    exact ⟨v.accept, rfl, rfl, rfl⟩

/-- A message comes to a window that has no room, and no timer is set for it. -/
theorem Steady.full (h : Steady rate p) (held : Option Message) (hnow : p.now ≤ now) :
    Steady rate
      { stage := { p.stage with held }, now, timers := p.timers, windows := p.windows } where
  config := h.config
  opened start hstart := Nat.le_trans (h.opened start hstart) hnow
  counts := h.counts
  fair := h.fair
  timers := h.timers.of_late rfl rfl rfl fun _ _ hlate ↦
    hlate.stays hnow rfl rfl fun v _ heq ↦ ⟨v, heq, rfl, rfl⟩

/-- A message comes to a window that has no room, and a timer is set for it. -/
theorem Steady.waits (h : Steady rate p) (m : Message) (hnow : p.now ≤ now)
    (hopen : p.stage.isOpen now = true) (hidle : p.stage.pending = false) :
    Steady rate
      { stage := { p.stage with held := some m, token := p.stage.token + 1, pending := true }, now
        timers := p.timers ++ [(now + p.stage.remaining now, p.stage.token + 1)]
        windows := p.windows } where
  config := h.config
  opened start hstart := Nat.le_trans (h.opened start hstart) hnow
  counts := h.counts
  fair := h.fair
  timers := by
    cases h.timers with
    | nothing _ hnone =>
      obtain ⟨start, hstart, hdue⟩ := h.remaining_eq hnow hopen
      exact .timer rfl (by rw [hnone]; rfl) (.later hstart hdue)
    | timer hpending _ _ => exact absurd (hidle.symm.trans hpending) nofun

theorem Steady.message (h : Steady rate p) (hrate : 0 < rate) (hword : rate < 0x100000000)
    {moment : Moment} (w : Wrapper) (hnow : p.now ≤ moment.now) :
    Steady rate (p.message moment w) := by
  have hmeets := meets_process (h.config ▸ hrate) moment w
  rw [Course.message]
  dsimp only at hmeets ⊢
  generalize (p.stage.process moment w).state = s', (p.stage.process moment w).passes = passes,
    (p.stage.process moment w).timers = new at hmeets
  cases hmeets with
  | first hover =>
    rw [Course.rolled_of_not_isOpen hover, List.map_nil, List.append_nil]
    exact h.first hrate hnow hover
  | further hopen hroom =>
    rw [Course.rolled_of_isOpen hopen, List.map_nil, List.append_nil]
    exact h.further hword hnow hopen hroom
  | full held hopen =>
    rw [Course.rolled_of_isOpen hopen, List.map_nil, List.append_nil]
    exact h.full held hnow
  | waits m hopen _ hidle =>
    rw [Course.rolled_of_isOpen hopen]
    exact h.waits m hnow hopen hidle

/-! ## A timer goes off -/

theorem Steady.ring (h : Steady rate p) (hrate : 0 < rate) (hnow : p.now ≤ now)
    {timer : Instant × UInt64} (hmem : timer ∈ p.timers) (hdue : timer.1 ≤ now) :
    Steady rate (p.ring now timer) := by
  have hopened : ∀ start, p.stage.opened = some start → start ≤ now :=
    fun start hstart ↦ Nat.le_trans (h.opened start hstart) hnow
  obtain ⟨due, hone, hlate⟩ : ∃ due, p.timers = [(due, p.stage.token)] ∧ Late p due := by
    cases h.timers with
    | nothing _ hnone => exact absurd hmem (hnone ▸ List.not_mem_nil)
    | timer _ hone hlate => exact ⟨_, hone, hlate⟩
  obtain rfl : timer = (due, p.stage.token) := List.mem_singleton.1 (hone ▸ hmem)
  have hfrees := frees_expire p.stage now
  rw [Course.ring, hone, List.erase_cons_head]
  dsimp only
  generalize (p.stage.expire now p.stage.token).state = s',
    (p.stage.expire now p.stage.token).passes = passes at hfrees
  cases hfrees with
  | nothing => exact ⟨h.config, hopened, h.counts, h.fair, .nothing rfl rfl⟩
  | first hover =>
    rw [Course.rolled_of_not_isOpen hover]
    exact ⟨h.config, fun start hstart ↦ Nat.le_of_eq (Option.some.inj hstart).symm,
      fun _ ↦ ⟨_, _, rfl, rfl⟩, List.forall_mem_cons.2 ⟨fair_first hrate rfl, h.fair⟩,
      .nothing rfl rfl⟩
  | further hopen =>
    obtain ⟨v, earlier, hwindows, hcount, hv, hearlier⟩ := h.counted hopen
    obtain ⟨hover, hnone⟩ := hlate.overtaken_of_isOpen hdue hopen hwindows
    rw [Course.rolled_of_isOpen hopen, hwindows]
    refine ⟨h.config, hopened, fun _ ↦ ⟨_, _, rfl, ?_⟩,
      List.forall_mem_cons.2 ⟨hv.release hover hnone, hearlier⟩, .nothing rfl rfl⟩
    rw [passed_release]
    dsimp only
    omega

/-! ## The rate of a window -/

theorem Comes.steady {s : Throttle} (h : Comes s p) (hopened : s.opened = none)
    (hpending : s.pending = false) (hrate : 0 < s.rate) (hword : s.rate < 0x100000000) :
    Steady s.rate p := by
  induction h with
  | start now => exact steady_start hopened hpending now
  | message w _ hnow ih => exact ih.message hrate hword w hnow
  | ring _ hnow hmem hdue ih => exact ih.ring hrate hnow hmem hdue

/-- Whatever messages a throttle is shown, and however late its timers go off, no window passes more
messages than the rate, unless it was opened by a message when a timer was overdue. Such a window
may pass one message more, the one that was held before it and is let go in it. -/
theorem passed_le {rate period : Nat} {mode : ThrottleMode} (hrate : 0 < rate)
    (hword : rate < 0x100000000) (h : Comes { rate, period, mode } p) :
    ∀ v ∈ p.windows, v.accepted ≤ rate ∧ v.released ≤ 1 ∧ v.passed ≤ rate + 1 ∧
      (v.overtaking = false → v.passed ≤ rate) := by
  intro v hv
  obtain ⟨haccepted, hreleased, hpassed⟩ := (h.steady rfl rfl hrate hword).fair v hv
  refine ⟨haccepted, hreleased, ?_, fun hnot ↦ ?_⟩
  · rcases hpassed with hle | ⟨-, heq⟩
    · exact Nat.le_succ_of_le hle
    · exact Nat.le_of_eq heq
  · rcases hpassed with hle | ⟨hover, -⟩
    · exact hle
    · exact absurd (hnot.symm.trans hover) nofun

end

/-- A throttle passes a message, holds the second, and the third comes before the timer of the
second. -/
def overtaken : Course :=
  let pace : Throttle := { rate := 1, period := 300000, mode := .delay }
  let w (text : Bytes) : Wrapper := .ofMessage (.ofRaw "t" text)
  let p : Course := { stage := pace, now := 0 }
  (((p.message ⟨0, 0⟩ (w [97])).message ⟨1000, 0⟩ (w [98])).message ⟨400000, 0⟩ (w [99])).ring
    400001 (300000, 1)

theorem comes_overtaken : Comes { rate := 1, period := 300000, mode := .delay } overtaken :=
  .ring (.message _ (.message _ (.message _ (.start 0) (by decide)) (by decide)) (by decide))
    (by decide) (by decide) (by decide)

/-- The third message and the second one pass in the same window, at a rate of one. -/
theorem passed_overtaken :
    Comes { rate := 1, period := 300000, mode := .delay } overtaken ∧
      ¬ ∀ v ∈ overtaken.windows, v.passed ≤ 1 := by
  refine ⟨comes_overtaken, fun h ↦ ?_⟩
  exact absurd (h ⟨true, 1, 1⟩ (by decide)) (by decide)

theorem passed_le_overtaken :
    (0 < 1 ∧ 1 < 0x100000000 ∧ Comes { rate := 1, period := 300000, mode := .delay } overtaken) ∧
      ∀ v ∈ overtaken.windows, v.accepted ≤ 1 ∧ v.released ≤ 1 ∧ v.passed ≤ 1 + 1 ∧
        (v.overtaking = false → v.passed ≤ 1) :=
  ⟨⟨by decide, by decide, comes_overtaken⟩, passed_le (by decide) (by decide) comes_overtaken⟩

end Throttle

end Conduit.Stage
