import Conduit.Proofs.Chain.Make

/-!
# A chain that is started again

A chain without scripts that has been used, stopped and started again answers as the chain that has
just been built (`Chain.starts_afresh`). The only trace of its past are the timers that were set
before the stop and go off after it. No stage hears of them while it has numbers left, so all that
such a timer can do is what the end of every call does: pieces that a crash has left are sent on
(`Chain.late_timers_count`).
-/

namespace Conduit

open Stage

/-! ## Answers -/

/-- The timers of corresponding stages differ by the offset of their place. -/
def shiftKey (offset : Nat → UInt64) (key : Nat × UInt64) : Nat × UInt64 :=
  (key.1, key.2 + offset key.1)

theorem Visit.Twin.keys {ρ : String → String → Prop} {offset : Nat → UInt64} {v v' : Visit}
    (h : v.Twin ρ offset v') : v.keys = v'.keys.map (shiftKey offset) := by
  unfold Visit.keys
  rw [h.timers, h.stage, List.map_map, List.map_map]
  rfl

/-- The same answer, but for names that were made up since. -/
structure Call.Matches (a b : Nat) (c c' : Call Builtin) : Prop where
  progress : c.progress = c'.progress
  output : c.output.Twin (Renames a b) c'.output
  published : List.Forall₂ (Publication.Twin (Renames a b)) c.published c'.published

namespace Call

/-- What an answer shows. -/
def shown (c : Call Builtin) : Progress × Output × List Publication :=
  (c.progress, c.output, c.published)

/-- Answers that match show the same, if names were made up from the same number on. -/
theorem Matches.shown_eq {a : Nat} {c c' : Call Builtin} (h : c.Matches a a c') :
    c.shown = c'.shown := by
  have houtput := h.output.eq fun _ _ ↦ Renames.eq
  have hpublished := eq_of_forall₂ (fun _ _ hp ↦ hp.eq fun _ _ ↦ Renames.eq) h.published
  rw [shown, shown, h.progress, houtput, hpublished]

theorem keys_of_twins {ρ : String → String → Prop} {offset : Nat → UInt64}
    {visits visits' : List Visit} (h : List.Forall₂ (Visit.Twin ρ offset) visits visits') :
    visits.flatMap Visit.keys = (visits'.flatMap Visit.keys).map (shiftKey offset) := by
  induction h with
  | nil => rfl
  | cons hv _ ih => rw [List.flatMap_cons, List.flatMap_cons, List.map_append, hv.keys, ih]

theorem matches_of_twin {a b : Nat} {offset : Nat → UInt64} {c c' : Call Builtin}
    (h : c.Twin a b offset c') : c.Matches a b c' :=
  ⟨h.progress, h.output, List.rel_flatMap h.visits fun _ _ hv ↦ hv.published⟩

end Call

/-! ## The sequel -/

/-- What is done with a chain after it was started. Timers are known by their number in a list. -/
inductive Later
  | message (patience : Nat) (clock : Clock) (m : Message)
  /-- A timer goes off that was set since the start. -/
  | timer (patience : Nat) (clock : Clock) (k : Nat)
  /-- A timer goes off that was set before the stop. -/
  | late (patience : Nat) (clock : Clock) (j : Nat)

/-- A chain since it was started. -/
structure Sequel where
  chain : Chain Builtin
  /-- How many names have been handed out. -/
  fresh : Nat
  /-- The timers that were set before the stop. -/
  old : List (Nat × UInt64) := []
  /-- The timers that were set since the start. -/
  since : List (Nat × UInt64) := []

namespace Sequel

/-- A call that has done nothing yet. -/
def opening (t : Sequel) : Call Builtin := { chain := t.chain, fresh := t.fresh }

/-- The chain is told of a timer. If there is no such timer, only pending pieces are sent on, as in
every call. -/
def tell (t : Sequel) (patience : Nat) (clock : Clock) : Option (Nat × UInt64) → Call Builtin
  | some (i, token) => t.chain.expire patience ⟨clock, t.fresh⟩ i token
  | none => t.opening.drain clock patience

def call (t : Sequel) : Later → Call Builtin
  | .message patience clock m => t.chain.process patience ⟨clock, t.fresh⟩ m
  | .timer patience clock k => t.tell patience clock t.since[k]?
  | .late patience clock j => t.tell patience clock t.old[j]?

def next (t : Sequel) (x : Later) : Sequel where
  chain := (t.call x).chain
  fresh := (t.call x).fresh
  old := t.old
  since := t.since ++ (t.call x).visits.flatMap Visit.keys

def after (t : Sequel) (xs : List Later) : Sequel := xs.foldl next t

/-- All answers, in order. A call that crashes does not end the sequel. -/
def answers : Sequel → List Later → List (Call Builtin)
  | _, [] => []
  | t, x :: xs => t.call x :: answers (t.next x) xs

/-- If a timer goes off late, its stage has not used up all numbers meanwhile. -/
def Discerns (t : Sequel) : Later → Prop
  | .late _ _ j => ∀ i token, t.old[j]? = some (i, token) →
      Chain.timersOf i ((t.old ++ t.since).drop (j + 1)) < 2 ^ 64
  | _ => True

/-- The stages can tell all timers that go off late from later ones. -/
def DiscernsAll : Sequel → List Later → Prop
  | _, [] => True
  | t, x :: xs => t.Discerns x ∧ DiscernsAll (t.next x) xs

theorem discerns_after {t : Sequel} {xs ys : List Later} {x : Later}
    (h : t.DiscernsAll (xs ++ x :: ys)) : (t.after xs).Discerns x := by
  induction xs generalizing t with
  | nil => exact h.1
  | cons y xs ih => exact ih h.2

/-- The sequels are in step, the first one with a past and the other one without. -/
structure Alongside (a b : Nat) (offset : Nat → UInt64) (t t' : Sequel) : Prop where
  chain : t.chain.Twins (Renames a b) offset t'.chain
  fresh : KeepsPace a b t.fresh t'.fresh
  since : t.since = t'.since.map (shiftKey offset)
  old : t'.old = []
  heeds : t.chain.Heeds t.old t.since

variable {a b : Nat} {offset : Nat → UInt64} {t t' : Sequel} {x : Later}

theorem Alongside.opening (h : t.Alongside a b offset t') :
    t.opening.Twin a b offset t'.opening :=
  ⟨h.chain, h.fresh, Output.twin_empty, .nil, rfl⟩

/-- A timer that goes off late does what the end of a call does. -/
theorem call_late (h : t.chain.Heeds t.old t.since) {patience : Nat} {clock : Clock} {j : Nat}
    (hx : t.Discerns (.late patience clock j)) :
    t.call (.late patience clock j) = t.opening.drain clock patience := by
  unfold call
  dsimp only
  cases hj : t.old[j]? with
  | none => rfl
  | some key => exact h.expire_old hj (hx _ _ hj) patience ⟨clock, t.fresh⟩

/-- With nothing pending a timer that goes off late does nothing. -/
theorem next_late (h : t.chain.Heeds t.old t.since) {patience : Nat} {clock : Clock} {j : Nat}
    (hx : t.Discerns (.late patience clock j)) (hp : t.chain.pending = []) :
    t.call (.late patience clock j) = t.opening ∧ t.next (.late patience clock j) = t := by
  have hcall : t.call (.late patience clock j) = t.opening := by
    have hatop : t.opening.atop [] = t.opening := Call.atop_nil ⟨rfl, hp⟩
    rw [call_late h hx, ← hatop, Call.drain_atop_nil]
  refine ⟨hcall, ?_⟩
  unfold next
  rw [hcall]
  simp [Sequel.opening]

theorem Alongside.call (h : t.Alongside a b offset t') (hx : t.Discerns x) :
    (t.call x).Twin a b offset (t'.call x) := by
  cases x with
  | message patience clock m => exact h.chain.process h.fresh patience clock m
  | timer patience clock k =>
    unfold Sequel.call
    dsimp only
    rw [h.since, List.getElem?_map]
    cases t'.since[k]? with
    | none => exact h.opening.drain clock patience
    | some key => exact h.chain.expire h.fresh patience clock key.1 key.2
  | late patience clock j =>
    -- the chain without a past has no such timer, and does the same
    rw [call_late h.heeds hx]
    unfold Sequel.call
    dsimp only
    rw [h.old]
    exact h.opening.drain clock patience

theorem heeds_tell (h : t.chain.Heeds t.old t.since) (patience : Nat) (clock : Clock)
    (key : Option (Nat × UInt64)) : (t.tell patience clock key).chain.Heeds t.old
      (t.since ++ (t.tell patience clock key).visits.flatMap Visit.keys) := by
  have hopen : t.chain.Heeds t.old (t.since ++ [].flatMap Visit.keys) := by simpa using h
  have htrails := Chain.trails_heeds t.old t.since
  cases key with
  | none => exact htrails.drain clock patience (c := t.opening) hopen
  | some key =>
    refine htrails.expire patience ⟨clock, t.fresh⟩ (fun _ ↦ hopen) fun slot hs ↦ ?_
    simpa using h.told hs clock.now key.2

theorem heeds_next (h : t.chain.Heeds t.old t.since) (x : Later) :
    (t.next x).chain.Heeds (t.next x).old (t.next x).since := by
  cases x with
  | message patience clock m =>
    have hopen : t.chain.Heeds t.old (t.since ++ [].flatMap Visit.keys) := by simpa using h
    exact (Chain.trails_heeds t.old t.since).process patience ⟨clock, t.fresh⟩ m hopen
  | timer patience clock k => exact heeds_tell h patience clock _
  | late patience clock j => exact heeds_tell h patience clock _

theorem heeds_after (h : t.chain.Heeds t.old t.since) (xs : List Later) :
    (t.after xs).chain.Heeds (t.after xs).old (t.after xs).since := by
  induction xs generalizing t with
  | nil => exact h
  | cons x xs ih => exact ih (heeds_next h x)

theorem Alongside.next (h : t.Alongside a b offset t') (hx : t.Discerns x) :
    (t.next x).Alongside a b offset (t'.next x) := by
  have hcall := h.call hx
  refine ⟨hcall.chain, hcall.fresh, ?_, h.old, heeds_next h.heeds x⟩
  unfold Sequel.next
  rw [List.map_append, ← h.since, Call.keys_of_twins hcall.visits]

/-- Sequels in step give the same answers. -/
theorem Alongside.answers (h : t.Alongside a b offset t') {xs : List Later}
    (hxs : t.DiscernsAll xs) :
    List.Forall₂ (Call.Matches a b) (t.answers xs) (t'.answers xs) := by
  induction xs generalizing t t' with
  | nil => exact .nil
  | cons x xs ih => exact .cons (Call.matches_of_twin (h.call hxs.1)) (ih (h.next hxs.1) hxs.2)

end Sequel

namespace Chain

variable {c : Chain Builtin}

/-- The sequel of a chain that was used, stopped and started again. -/
def sequel (c : Chain Builtin) (us : List Usage) (now : Instant) (fresh : Nat) : Sequel where
  chain := (c.useAll us).stop.start now
  fresh := fresh
  old := c.timersSet us

/-- The sequel of a chain that was never used. -/
def debut (c : Chain Builtin) (now : Instant) (fresh : Nat) : Sequel where
  chain := c.start now
  fresh := fresh

theorem heeds_sequel (c : Chain Builtin) (us : List Usage) (now : Instant) (fresh : Nat) :
    (c.sequel us now fresh).chain.Heeds (c.sequel us now fresh).old [] := by
  have hnew : c.Numbered [] := by
    intro before i token later hkeys
    simp at hkeys
  have hnumbered := hnew.useAll us
  have hidle : (c.sequel us now fresh).chain.Idle := (c.useAll us).idle_stop.start now
  refine ⟨?_, hidle.waitsAmong⟩
  rw [List.append_nil]
  exact hnumbered.of_latest ((latest?_start _ now).trans (latest?_stop _))

theorem alongside_debut (hc : c.Unscripted) (hblank : c.Blank) (us : List Usage)
    (now now' : Instant) (a b : Nat) :
    (c.sequel us now a).Alongside a b (fun i ↦ ((c.useAll us).latest? i).getD 0)
      (c.debut now' b) := by
  have hmake := (SameMake.refl c).useAll hc us
  refine ⟨?_, ⟨0, rfl, rfl⟩, rfl, rfl, heeds_sequel c us now a⟩
  have hsame : (c.sequel us now a).chain = (c.useAll us).stop :=
    (hmake.stop.unscripted hc).start now
  have hsame' : (c.debut now' b).chain = c := hc.start now'
  rw [hsame, hsame']
  exact hmake.twins_stop hc hblank

/-- A chain of stages other than scripts is built, used in any way, stopped and started. Whatever it
is shown from then on, and whichever of the timers go off that it sets from then on, its answers are
those of the chain as it was built, but for the names that are made up, and the very same if names
are made up from the same number on. Timers that were set before the stop may go off at any time,
while their stages have not used up all numbers: then nothing is done but to send on pieces that are
pending, as in the chain as it was built, which has no such timers, and nothing at all if none are
pending. -/
theorem starts_afresh {entries : List Config.StageEntry} {slots : List (Slot Builtin)}
    {name : String} {maxHops : Nat} (hslots : buildAll entries = .ok slots)
    (hbuilt : ofSlots name slots maxHops = .ok c) (hc : c.Unscripted) (us : List Usage)
    (now now' : Instant) (a : Nat) {xs : List Later} (hxs : (c.sequel us now a).DiscernsAll xs) :
    (∀ b, List.Forall₂ (Call.Matches a b) ((c.sequel us now a).answers xs)
        ((c.debut now' b).answers xs)) ∧
      ((c.sequel us now a).answers xs).map Call.shown =
        ((c.debut now' a).answers xs).map Call.shown ∧
      ∀ before patience later j behind, xs = before ++ .late patience later j :: behind →
        let t := (c.sequel us now a).after before
        t.call (.late patience later j) = t.opening.drain later patience ∧
          (t.chain.pending = [] →
            t.call (.late patience later j) = t.opening ∧ t.next (.late patience later j) = t) := by
  have hblank := blank_of_ofSlots hslots hbuilt
  have hmatches (b : Nat) := (alongside_debut hc hblank us now now' a b).answers hxs
  refine ⟨hmatches, ?_, ?_⟩
  · refine eq_of_forall₂ (fun _ _ h ↦ h) ?_
    refine List.forall₂_map_left_iff.2 (List.forall₂_map_right_iff.2 ?_)
    exact (hmatches a).imp fun _ _ h ↦ h.shown_eq
  · rintro before patience later j behind rfl t
    have hheeds := Sequel.heeds_after (heeds_sequel c us now a) before
    have hdiscerns := Sequel.discerns_after hxs
    exact ⟨Sequel.call_late hheeds hdiscerns, Sequel.next_late hheeds hdiscerns⟩

/-! ## A throttle by itself -/

/-- A throttle that lets one message through a second, and holds the next. -/
def spacedEntry : Config.StageEntry where
  type := "throttle"
  params := [("rate", .number (.ofByte 1)), ("mode", .string "delay")]

/-- The chain that is built from it. -/
def spaced : Chain Builtin where
  id := "spaced"
  slots := [⟨{}, .throttle { rate := 1, period := 1000000, mode := .delay }⟩]
  plan := { routes := [{}] }

/-- The throttle holds a message when the chain is stopped, and its timer goes off while it holds
another one. It lets nothing go then, and lets the other one go in time. -/
theorem starts_afresh_spaced :
    let us : List Usage := [.start 0, .input (.message 9 ⟨0, 0⟩ (.ofRaw "t" [1])),
      .input (.message 9 ⟨0, 0⟩ (.ofRaw "t" [2]))]
    let xs : List Later := [.message 9 5 (.ofRaw "t" [3]), .message 9 5 (.ofRaw "t" [4]),
      .late 9 1000000 0, .timer 9 1000005 0]
    (spaced.sequel us 5 0).old = [(0, 1)] ∧
      ((spaced.debut 5 0).answers xs).map (fun call ↦ call.output.delivered.map (·.working)) =
        [[.ofRaw "t" [3]], [], [], [.ofRaw "t" [4]]] ∧
      ((spaced.sequel us 5 0).answers xs).map Call.shown =
        ((spaced.debut 5 0).answers xs).map Call.shown := by
  intro us xs
  have hxs : (spaced.sequel us 5 0).DiscernsAll xs := by
    refine ⟨trivial, trivial, fun i token hj ↦ ?_, trivial, trivial⟩
    exact Nat.lt_of_le_of_lt List.countP_le_length (by decide +kernel)
  have hslots : buildAll [spacedEntry] = .ok spaced.slots := by rfl
  have hbuilt : ofSlots "spaced" spaced.slots = .ok spaced := by rfl
  have hc : ∀ slot ∈ spaced.slots, slot.stage.kind ≠ .script := by decide
  exact ⟨by decide +kernel, by decide +kernel, (starts_afresh hslots hbuilt hc us 5 5 0 hxs).2.1⟩

/-! ## Late timers that count -/

/-- Timers that were set before a stop let nothing go afterwards, and change no later output. -/
def ForgetsTimers (c : Chain Builtin) : Prop :=
  ∀ us now fresh xs patience later j, j < (c.timersSet us).length →
    let t := (c.sequel us now fresh).after xs
    (t.call (.late patience later j)).output = {} ∧
      ∀ ys, ((t.next (.late patience later j)).answers ys).map (·.output) =
        (t.answers ys).map (·.output)

/-- Cuts a message into pieces as long as the file of a picture of one point. -/
def cutEntry : Config.StageEntry where
  type := "splitter"
  params := [("chunk_size", .number (.ofByte 72))]

/-- Asks for a picture that no buffer can hold. -/
def enlargeEntry : Config.StageEntry where
  type := "image"
  params := [("operation", .string "thumbnail"), ("width", .number (.ofNat64 4294967295)),
    ("height", .number (.ofNat64 4294967295))]

/-- A throttle in front of stages that break down on a picture. -/
def fragile : Chain Builtin where
  id := "fragile"
  slots := spaced.slots ++ [⟨{}, .splitter { size := 72 }⟩,
    ⟨{}, .image { operation := .thumbnail, width := 4294967295, height := 4294967295 }⟩]
  plan := { routes := [{}, {}, {}] }

/-- A picture of one point. -/
def dot : Raster where
  color := .rgb
  width := 1
  height := 1
  pixels := #[[7, 8, 9]]

/-- The first piece of a message crashes the call. A timer from before the stop then sends on the
second piece, which would have been sent on by the next call. -/
theorem fragile_late :
    let us : List Usage := [.start 0, .input (.message 9 ⟨0, 0⟩ (.ofRaw "t" [])),
      .input (.message 9 ⟨0, 0⟩ (.ofRaw "t" [98]))]
    let t := (fragile.sequel us 0 0).after [.message 9 0 (.ofRaw "t" (dot.toBytes .png ++ [120]))]
    fragile.timersSet us = [(0, 1)] ∧
      (t.call (.late 9 0 0)).output =
        { errors := [.stage "image" (PipelineError.message
            (.representation "image decode failed: not a readable picture"))] } ∧
      ((t.next (.late 9 0 0)).answers [.message 9 0 (.ofRaw "t" [99])]).map (·.output) ≠
        (t.answers [.message 9 0 (.ofRaw "t" [99])]).map (·.output) := by
  decide +kernel

section Spaced

/-- The throttle in the midst of a window that has let through more than `n` messages. -/
def paceAt (n : Nat) (token : UInt64) (held : Option Message) : Throttle where
  rate := 1
  period := 1000000
  mode := .delay
  opened := some 0
  count := n + 1
  held
  token
  pending := held.isSome

def spacedAt (n : Nat) (token : UInt64) (held : Option Message) : Chain Builtin :=
  { spaced with slots := [⟨{}, .throttle (paceAt n token held)⟩] }

theorem expire_paceAt (n : Nat) (token : UInt64) (m : Message) :
    ∃ n', (paceAt n token (some m)).expire 0 token =
      { state := paceAt n' token none, result := .ok (some m) } := by
  refine ⟨min (n + 1) 4294967294, ?_⟩
  have hcount : min (n + 1 + 1) (0x100000000 - 1) = min (n + 1) 4294967294 + 1 := by omega
  simp [Throttle.expire, Throttle.roll, Throttle.isOpen, paceAt, hcount]

theorem expire_spacedAt (n : Nat) (token : UInt64) (m : Message) (fresh : Nat) :
    let call := (spacedAt n token (some m)).expire 9 ⟨0, fresh⟩ 0 token
    (∃ n', call.chain = spacedAt n' token none) ∧ call.visits = [] ∧
      call.output.delivered.map (·.working) = [m] := by
  obtain ⟨n', hexpire⟩ := expire_paceAt n token m
  have hnow : (0 : Clock).now = 0 := rfl
  have hstage :
      Behaviour.expire (0 : Clock).now (Builtin.throttle (paceAt n token (some m))) token =
      { state := .throttle (paceAt n' token none), result := .ok (some m) } := by
    simp only [Behaviour.expire, Builtin.expire, hnow, hexpire]
  have hslot : (spacedAt n token (some m)).slots[0]? =
      some ⟨{}, .throttle (paceAt n token (some m))⟩ := rfl
  dsimp only
  rw [expire_of_release hslot (m := m) (by rw [Moment.now_mk, hstage]), Moment.now_mk, hstage]
  exact ⟨⟨n', rfl⟩, rfl, rfl⟩

/-- A message is held and let go when its timer goes off, a number of times. -/
def rounds (m : Message) : Nat → List Later
  | 0 => []
  | r + 1 => rounds m r ++ [.message 9 0 m, .timer 9 0 r]

/-- The throttle has set one timer before the stop and a number of them since, and holds nothing. -/
structure Spaced (r : Nat) (t : Sequel) : Prop where
  chain : ∃ n, t.chain = spacedAt n (1 + UInt64.ofNat r) none
  old : t.old = [(0, 1)]
  since : t.since.length = r

variable {r : Nat} {t : Sequel}

/-- The throttle holds the next message, and sets a timer with the next number. -/
theorem Spaced.hold (h : Spaced r t) (m : Message) :
    let told := t.next (.message 9 0 m)
    (∃ n, told.chain = spacedAt n (1 + UInt64.ofNat (r + 1)) (some m)) ∧ told.old = [(0, 1)] ∧
      told.since = t.since ++ [(0, 1 + UInt64.ofNat (r + 1))] := by
  obtain ⟨chain, fresh, old, since⟩ := t
  obtain ⟨⟨n, hchain⟩, hold, -⟩ := h
  dsimp only at hchain hold
  subst hchain hold
  have htoken : 1 + UInt64.ofNat (r + 1) = 1 + UInt64.ofNat r + 1 := by
    simp [UInt64.add_assoc]
  rw [htoken]
  exact ⟨⟨n, rfl⟩, rfl, rfl⟩

theorem Spaced.round (h : Spaced r t) (m : Message) :
    Spaced (r + 1) (t.after [.message 9 0 m, .timer 9 0 r]) := by
  obtain ⟨⟨n, hchain⟩, hold, hsince⟩ := h.hold m
  change Spaced (r + 1) ((t.next (.message 9 0 m)).next (.timer 9 0 r))
  generalize t.next (.message 9 0 m) = told at hchain hold hsince ⊢
  obtain ⟨chain, fresh, old, since⟩ := told
  dsimp only at hchain hold hsince
  subst hchain hold hsince
  obtain ⟨hafter, hvisits, -⟩ := expire_spacedAt n (1 + UInt64.ofNat (r + 1)) m fresh
  have hget : (t.since ++ [(0, 1 + UInt64.ofNat (r + 1))])[r]? =
      some (0, 1 + UInt64.ofNat (r + 1)) := by
    rw [← h.since]
    exact List.getElem?_concat_length
  unfold Sequel.next Sequel.call
  dsimp only
  rw [hget]
  refine ⟨hafter, rfl, ?_⟩
  simp only [Sequel.tell, hvisits, List.flatMap_nil, List.append_nil, List.length_append, h.since,
    List.length_singleton]

theorem Spaced.rounds (h : Spaced 0 t) (m : Message) (r : Nat) :
    Spaced r (t.after (rounds m r)) := by
  induction r with
  | zero => exact h
  | succ r ih =>
    rw [Chain.rounds, Sequel.after, List.foldl_append]
    exact ih.round m

/-- After as many timers as there are numbers, the number of the old timer comes back, and the old
timer lets a message go. -/
theorem spaced_late :
    let us : List Usage := [.start 0, .input (.message 9 ⟨0, 0⟩ (.ofRaw "t" [1])),
      .input (.message 9 ⟨0, 0⟩ (.ofRaw "t" [2]))]
    let m : Message := .ofRaw "t" [3]
    let t := (spaced.sequel us 0 0).after
      (.message 9 0 m :: (Chain.rounds m (2 ^ 64 - 1) ++ [.message 9 0 m]))
    spaced.timersSet us = [(0, 1)] ∧
      (t.call (.late 9 0 0)).output.delivered.map (·.working) = [m] := by
  intro us m t
  have hfirst : Spaced 0 ((spaced.sequel us 0 0).next (.message 9 0 m)) := ⟨⟨0, rfl⟩, rfl, rfl⟩
  have hrounds := hfirst.rounds m (2 ^ 64 - 1)
  obtain ⟨⟨n, hchain⟩, hold, -⟩ := hrounds.hold m
  have ht : t = (((spaced.sequel us 0 0).next (.message 9 0 m)).after
      (Chain.rounds m (2 ^ 64 - 1))).next (.message 9 0 m) := by
    unfold t Sequel.after
    rw [List.foldl_cons, List.foldl_append]
    rfl
  rw [← ht] at hchain hold
  clear_value t
  obtain ⟨chain, fresh, old, since⟩ := t
  dsimp only at hchain hold
  subst hchain hold
  have hback : 1 + UInt64.ofNat (2 ^ 64 - 1 + 1) = 1 := by decide
  obtain ⟨-, -, hout⟩ := expire_spacedAt n 1 m fresh
  refine ⟨rfl, ?_⟩
  rw [hback]
  exact hout

end Spaced

/-- Both chains can be built, of stages other than scripts. A timer from before a stop counts in the
first after a crash, and in the second when its number has come back. -/
theorem late_timers_count :
    (buildAll [spacedEntry, cutEntry, enlargeEntry] = .ok fragile.slots ∧
        ofSlots "fragile" fragile.slots = .ok fragile ∧ fragile.Unscripted ∧
        ¬ fragile.ForgetsTimers) ∧
      buildAll [spacedEntry] = .ok spaced.slots ∧ ofSlots "spaced" spaced.slots = .ok spaced ∧
        spaced.Unscripted ∧ ¬ spaced.ForgetsTimers := by
  have hfragile : ∀ slot ∈ fragile.slots, slot.stage.kind ≠ .script := by decide
  have hspaced : ∀ slot ∈ spaced.slots, slot.stage.kind ≠ .script := by decide
  refine ⟨⟨by rfl, by rfl, hfragile, fun hforgets ↦ ?_⟩, by rfl, by rfl, hspaced, fun hforgets ↦ ?_⟩
  · obtain ⟨hset, -, hlater⟩ := fragile_late
    obtain ⟨-, hsame⟩ := hforgets _ 0 0 _ 9 0 0 (by rw [hset]; exact Nat.one_pos)
    exact hlater (hsame _)
  · obtain ⟨hset, hout⟩ := spaced_late
    obtain ⟨hnone, -⟩ := hforgets _ 0 0 _ 9 0 0 (by rw [hset]; exact Nat.one_pos)
    rw [hnone] at hout
    cases hout

end Chain

end Conduit
