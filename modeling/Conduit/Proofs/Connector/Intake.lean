import Conduit.Connector.Intake
import Conduit.Proofs.Queue.Subscribers

/-!
# A stop is never lost

Who receives from a connector may look just before a stop and go to sleep just after it was meant to
be woken up, unless the look and the sleep are one step. They are: once an open session is stopped
and the sleeper has been woken up, nobody sleeps in that session any more, and a call that is under
way ends in at most two steps (`Intake.stop_never_lost`). It answers that it was stopped, or gives
what is there. The next session that is opened knows nothing of the stop.

What a session is told is kept by every move but those that open, close or stop it
(`Intake.keeps_next`).
-/

namespace Conduit

namespace Connector

/-- An inbound connector that has not been opened yet. -/
inductive IsNew : Connector → Prop
  | queue (name : String) (capacity : Nat) : IsNew (.queue .inbound name capacity none)
  | null : IsNew (.null false)
  | source (path topic : String) (json : Bool) : IsNew (.source path topic json none false)
  | interval (template : Message) (period : Nat) : IsNew (.interval template period false)
  | feed (pipe : Pipe Message) : IsNew (.feed pipe none)

/-- Whether the session has been stopped. -/
def isStopped (c : Connector) (s : Surroundings) : Bool :=
  match c with
  | .queue _ name _ (some id) => s.directory.isClosed? name id == some true
  | .null stopped | .source _ _ _ _ stopped | .interval _ _ stopped => stopped
  | .feed _ (some stopped) => stopped
  | _ => false

/-- What a receive may give without waiting: the first copy in the buffer, the next line of the
file, what comes first out of the channel, or that the host's end of it is gone. -/
inductive Available (s : Surroundings) : Connector → Answer → Prop
  | copy {direction : Direction} {name : String} {capacity id : Nat} {w : Wrapper}
    {rest : List Wrapper} : s.directory.items name id = w :: rest →
    Available s (.queue direction name capacity (some id)) (.ok w.working)
  | line {path topic : String} {json stopped : Bool} {session : Option LineReader}
    {answer : Answer} : (nextLine path topic json session s.files).1 = some answer →
    Available s (.source path topic json session stopped) answer
  | first {pipe : Pipe Message} {m : Message} {rest : List Message} {session : Option Bool} :
    pipe.items = m :: rest → Available s (.feed pipe session) (.ok m)
  | severed {pipe : Pipe Message} {session : Option Bool} : pipe.items = [] → pipe.host = false →
    Available s (.feed pipe session) (.error (.transport "input channel closed"))

/-- The connector is an inbound one and knows whether it has an open session. -/
def Fits (c : Connector) (d : Directory) (isOpen : Bool) : Prop :=
  match c with
  | .queue .inbound name _ session =>
    isOpen = session.isSome ∧ ∀ id, session = some id → (d.isClosed? name id).isSome
  | .null _ | .source .. | .interval .. => True
  | .feed _ session => isOpen = session.isSome
  | _ => False

theorem IsNew.fits {c : Connector} (h : c.IsNew) (d : Directory) : c.Fits d false := by
  cases h with
  | queue name capacity => exact ⟨rfl, nofun⟩
  | feed pipe => exact rfl
  | _ => trivial

section

variable {c : Connector} {before around : Surroundings} {isOpen : Bool}

theorem Fits.of_directory (h : c.Fits before.directory isOpen)
    (hd : ∀ name id, c.session? = some (name, id) →
      (before.directory.isClosed? name id).isSome →
      around.directory.isClosed? name id = before.directory.isClosed? name id) :
    c.Fits around.directory isOpen := by
  cases c with
  | queue direction name capacity session =>
    cases direction with
    | outbound => exact h
    | inbound =>
      refine ⟨h.1, fun id hid ↦ ?_⟩
      subst hid
      rw [hd name id rfl (h.2 id rfl)]
      exact h.2 id rfl
  | _ => exact h

theorem isStopped_of_directory (h : c.Fits before.directory isOpen)
    (hd : ∀ name id, c.session? = some (name, id) →
      (before.directory.isClosed? name id).isSome →
      around.directory.isClosed? name id = before.directory.isClosed? name id) :
    c.isStopped around = c.isStopped before := by
  cases c with
  | queue direction name capacity session =>
    cases direction with
    | outbound => exact h.elim
    | inbound =>
      cases session with
      | none => rfl
      | some id => rw [isStopped, isStopped, hd name id rfl (h.2 id rfl)]
  | feed pipe session => cases session <;> rfl
  | _ => rfl

end

end Connector

/-- How many steps a thread may take in a stopped session before the one that ends its call. -/
def Posture.left : Posture → Nat
  | .reading => 1
  | _ => 0

namespace Intake

open Connector

variable {s s' : Intake}

def Fits (s : Intake) : Prop := s.connector.Fits s.around.directory s.isOpen

def isStopped (s : Intake) : Bool := s.connector.isStopped s.around

/-- What a session is told: that it is open, and whether it is stopped. -/
structure Keeps (s s' : Intake) : Prop where
  isOpen : s'.isOpen = s.isOpen
  fits : s'.Fits
  isStopped : s'.isStopped = s.isStopped

theorem Keeps.refl (h : s.Fits) : s.Keeps s := ⟨rfl, h, rfl⟩

/-- Buffers may change as long as that of the session stays there, open or closed as it was. -/
theorem keeps_of_directory (around : Surroundings) (h : s.Fits) (posture : Posture)
    (hd : ∀ name id, s.connector.session? = some (name, id) →
      (s.around.directory.isClosed? name id).isSome →
      around.directory.isClosed? name id = s.around.directory.isClosed? name id) :
    s.Keeps { s with around, posture } :=
  ⟨rfl, h.of_directory hd, isStopped_of_directory h hd⟩

/-! ## All that the thread can do -/

inductive Goes (s : Intake) : Option Answer → Intake → Prop
  | stopped : s.isStopped = true →
    Goes s (some (.error .stopped)) { s with posture := .away }
  | gives {connector : Connector} (around : Surroundings) {answer : Answer} :
    Available s.around s.connector answer → answer ≠ .error .stopped →
    s.Keeps { s with connector, around, posture := .away } →
    Goes s (some answer) { s with connector, around, posture := .away }
  | ticks (m : Message) : s.isStopped = false → Goes s (some (.ok m)) { s with posture := .away }
  | refuses (text : String) : s.isStopped = false →
    Goes s (some (.error (.transport text))) { s with posture := .away }
  | waits : s.isStopped = false → Goes s none { s with posture := .asleep false }
  | reads : s.isStopped = false → Goes s none { s with posture := .reading }
  | finishes {connector : Connector} : s.posture = .reading →
    s.Keeps { s with connector, posture := .finished } →
    Goes s none { s with connector, posture := .finished }

/-- Whether the thread is awake during a call. -/
def isAwake (s : Intake) : Prop := s.posture ≠ .away ∧ s.posture ≠ .asleep false

theorem isAwake_of_go {expired : Bool} {choice : Nat} {out : Intake × Option Answer}
    (h : s.go expired choice = some out) : s.isAwake := by
  constructor <;> rintro hp <;> rw [go, hp] at h <;> cases h

theorem nextLine_ne_stopped (path topic : String) (json : Bool) (session : Option LineReader)
    (files : Files) : (nextLine path topic json session files).1 ≠ some (.error .stopped) := by
  unfold nextLine
  split
  · nofun
  · split
    · nofun
    · split
      · nofun
      · nofun
      · rename_i line _ _
        unfold lineMessage
        split
        · cases Json.parseText (Utf8.encode line) <;> nofun
        · nofun

variable {expired : Bool} {choice : Nat} {answer : Option Answer}

theorem goes_of_heed {path topic : String} {json stopped : Bool} {session : Option LineReader}
    (hc : s.connector = .source path topic json session stopped) (otherwise : Posture)
    (ho : otherwise = .asleep false ∨ otherwise = .reading) :
    s.Goes (s.heed stopped otherwise).2 (s.heed stopped otherwise).1 := by
  have hstopped : s.isStopped = stopped := by rw [isStopped, hc]; rfl
  cases stopped with
  | true => exact .stopped hstopped
  | false =>
    obtain rfl | rfl := ho
    · exact .waits hstopped
    · exact .reads hstopped

theorem goes_of_read {path topic : String} {json stopped : Bool} {session : Option LineReader}
    (hc : s.connector = .source path topic json session stopped) (hp : s.posture = .reading)
    (h : s.go expired choice = some (s', answer)) : s.Goes answer s' := by
  have hkeeps (session' : Option LineReader) (posture : Posture) :
      s.Keeps { s with connector := .source path topic json session' stopped, posture } :=
    ⟨rfl, trivial, by rw [isStopped, isStopped, hc]; rfl⟩
  rw [go, hp, hc] at h
  rcases hline : nextLine path topic json session s.around.files with ⟨a, session'⟩
  simp only [hline, Option.some.injEq, Prod.mk.injEq] at h
  obtain ⟨rfl, rfl⟩ := h
  cases a with
  | none => exact .finishes hp (hkeeps session' .finished)
  | some a =>
    have hgiven : (nextLine path topic json session s.around.files).1 = some a := by rw [hline]
    refine .gives s.around (by rw [hc]; exact .line hgiven) ?_ (hkeeps session' .away)
    rintro rfl
    exact nextLine_ne_stopped _ _ _ _ _ hgiven

/-- A thread that finds answers gives one of them. -/
theorem exists_answer_of_look {answers : List (Answer × Connector × Surroundings)}
    (hr : s.connector.receive s.around = .ready answers)
    (hl : s.look expired choice = some (s', answer)) :
    ∃ a connector around, (a, connector, around) ∈ answers ∧
      s' = { s with connector, around, posture := .away } ∧ answer = some a := by
  rw [look, hr] at hl
  obtain ⟨⟨a, connector, around⟩, ha, he⟩ := Option.map_eq_some_iff.1 hl
  obtain ⟨rfl, rfl⟩ := Prod.mk.inj he
  exact ⟨a, connector, around, List.mem_of_getElem? ha, rfl, rfl⟩

theorem look_of_blocked (hr : s.connector.receive s.around = .blocked s.connector)
    (hl : s.look expired choice = some (s', answer)) :
    s' = { s with posture := .asleep false } ∧ answer = none := by
  rw [look, hr] at hl
  obtain ⟨rfl, rfl⟩ := Prod.mk.inj (Option.some.inj hl)
  exact ⟨rfl, rfl⟩

theorem goes_of_blocked (hr : s.connector.receive s.around = .blocked s.connector)
    (hs : s.isStopped = false) (hl : s.look expired choice = some (s', answer)) :
    s.Goes answer s' := by
  obtain ⟨rfl, rfl⟩ := look_of_blocked hr hl
  exact .waits hs

theorem goes_of_stopped (hr : s.connector.receive s.around = refuse s.connector s.around .stopped)
    (hs : s.isStopped = true) (hl : s.look expired choice = some (s', answer)) :
    s.Goes answer s' := by
  obtain ⟨a, connector, around, hmem, rfl, rfl⟩ := exists_answer_of_look hr hl
  cases List.mem_singleton.1 hmem
  exact .stopped hs

theorem goes_of_refused {text : String}
    (hr : s.connector.receive s.around = refuse s.connector s.around (.transport text))
    (hs : s.isStopped = false) (hl : s.look expired choice = some (s', answer)) :
    s.Goes answer s' := by
  obtain ⟨a, connector, around, hmem, rfl, rfl⟩ := exists_answer_of_look hr hl
  cases List.mem_singleton.1 hmem
  exact .refuses text hs

theorem goes_of_look_queue {name : String} {capacity : Nat} {session : Option Nat} (h : s.Fits)
    (hc : s.connector = .queue .inbound name capacity session)
    (hl : s.look expired choice = some (s', answer)) : s.Goes answer s' := by
  cases session with
  | none =>
    exact goes_of_refused (by rw [hc]; rfl) (by rw [isStopped, hc]; rfl) hl
  | some id =>
    obtain ⟨q, hq⟩ : ∃ q, s.around.directory.buffer? name id = some q := by
      rw [Fits, hc] at h
      exact Directory.exists_buffer (h.2 id rfl)
    have hclosed : s.isStopped = q.closed := by
      rw [isStopped, hc, Connector.isStopped, Directory.isClosed?, hq]
      cases hq : q.closed <;> simp [hq]
    cases hb : q.blocks with
    | true =>
      refine goes_of_blocked ?_ (hclosed.trans ?_) hl
      · rw [hc, receive, hq]
        exact if_pos hb
      · simpa using (Bool.and_eq_true_iff.1 hb).2
    | false =>
      rcases hpop : s.around.directory.pop name id with ⟨_ | w, directory⟩
      · have hnone := Directory.items_of_pop_eq_none hpop
        rw [Directory.items, hq] at hnone
        change q.items = [] at hnone
        refine goes_of_stopped ?_ (hclosed.trans ?_) hl
        · rw [hc, receive, hq, hpop]
          exact if_neg (by simpa using hb)
        · simpa [Queue.blocks, hnone] using hb
      · have hr : s.connector.receive s.around =
            .ready [(.ok w.working, s.connector, { s.around with directory })] := by
          rw [hc, receive, hq, hpop]
          exact if_neg (by simpa using hb)
        obtain ⟨a, connector, around, hmem, rfl, rfl⟩ := exists_answer_of_look hr hl
        cases List.mem_singleton.1 hmem
        refine .gives _ ?_ (fun he ↦ by cases he) (keeps_of_directory _ h _ fun _ _ _ _ ↦
          congrFun₂ (Directory.isClosed?_pop hpop) _ _)
        rw [hc]
        exact .copy (Directory.items_pop hpop).1

theorem goes_of_look_feed {pipe : Pipe Message} {session : Option Bool} (h : s.Fits)
    (hc : s.connector = .feed pipe session)
    (hl : s.look expired choice = some (s', answer)) : s.Goes answer s' := by
  cases session with
  | none =>
    exact goes_of_refused (by rw [hc]; rfl) (by rw [isStopped, hc]; rfl) hl
  | some stopped =>
    have hstopped : s.isStopped = stopped := by rw [isStopped, hc]; rfl
    have hstop {a : Answer} {connector : Connector} {around : Surroundings}
        (hmem : (a, connector, around) ∈ if stopped then [(.error .stopped, s.connector, s.around)]
          else []) : s.Goes (some a) { s with connector, around, posture := .away } := by
      cases stopped with
      | true =>
        cases List.mem_singleton.1 hmem
        exact .stopped hstopped
      | false => cases hmem
    cases hitems : pipe.items with
    | cons m items =>
      have hr : s.connector.receive s.around = .ready
          ((.ok m, .feed { pipe with items } (some stopped), s.around) ::
            if stopped then [(.error .stopped, s.connector, s.around)] else []) := by
        rw [hc, receive, hitems]
      obtain ⟨a, connector, around, hmem, rfl, rfl⟩ := exists_answer_of_look hr hl
      rcases List.mem_cons.1 hmem with heq | hmem
      · cases heq
        have hfits : (Connector.feed { pipe with items } (some stopped)).Fits s.around.directory
            s.isOpen := by
          rw [Fits, hc] at h
          exact h
        refine .gives _ ?_ nofun ⟨rfl, hfits, by rw [hstopped]; rfl⟩
        rw [hc]
        exact .first hitems
      · exact hstop hmem
    | nil =>
      cases hhost : pipe.host with
      | false =>
        have hr : s.connector.receive s.around = .ready
            ((.error (.transport "input channel closed"), s.connector, s.around) ::
              if stopped then [(.error .stopped, s.connector, s.around)] else []) := by
          rw [hc, receive, hitems, hhost]
          rfl
        obtain ⟨a, connector, around, hmem, rfl, rfl⟩ := exists_answer_of_look hr hl
        rcases List.mem_cons.1 hmem with heq | hmem
        · cases heq
          refine .gives _ ?_ nofun (keeps_of_directory _ h _ fun _ _ _ _ ↦ rfl)
          rw [hc]
          exact .severed hitems hhost
        · exact hstop hmem
      | true =>
        cases stopped with
        | true => exact goes_of_stopped (by rw [hc, receive, hitems, hhost]; rfl) hstopped hl
        | false => exact goes_of_blocked (by rw [hc, receive, hitems, hhost]; rfl) hstopped hl

theorem goes_of_look_null {stopped : Bool} (hc : s.connector = .null stopped)
    (hl : s.look expired choice = some (s', answer)) : s.Goes answer s' := by
  have hstopped : s.isStopped = stopped := by rw [isStopped, hc]; rfl
  cases stopped with
  | true => exact goes_of_stopped (by rw [hc]; rfl) hstopped hl
  | false => exact goes_of_blocked (by rw [hc]; rfl) hstopped hl

theorem goes_of_look_interval {template : Message} {period : Nat} {stopped : Bool}
    (hc : s.connector = .interval template period stopped)
    (hl : s.look expired choice = some (s', answer)) : s.Goes answer s' := by
  have hstopped : s.isStopped = stopped := by rw [isStopped, hc]; rfl
  cases stopped with
  | true => exact goes_of_stopped (by rw [hc]; rfl) hstopped hl
  | false =>
    have hr : s.connector.receive s.around = .after period template := by
      rw [hc]
      rfl
    rw [look, hr] at hl
    cases expired with
    | true =>
      cases hl
      exact .ticks template hstopped
    | false =>
      cases hl
      exact .waits hstopped

theorem goes_of_go_source {path topic : String} {json stopped : Bool} {session : Option LineReader}
    (hc : s.connector = .source path topic json session stopped)
    (hg : s.go expired choice = some (s', answer)) : s.Goes answer s' := by
  cases hp : s.posture with
  | reading => exact goes_of_read hc hp hg
  | called =>
    have hgoes := goes_of_heed hc .reading (.inr rfl)
    rw [go, hp, hc] at hg
    rwa [Option.some.inj hg] at hgoes
  | away => exact absurd hp (isAwake_of_go hg).1
  | finished =>
    have hgoes := goes_of_heed hc (.asleep false) (.inl rfl)
    rw [go, hp, hc] at hg
    rwa [Option.some.inj hg] at hgoes
  | asleep woken =>
    cases woken with
    | false => exact absurd hp (isAwake_of_go hg).2
    | true =>
      have hgoes := goes_of_heed hc (.asleep false) (.inl rfl)
      rw [go, hp, hc] at hg
      rwa [Option.some.inj hg] at hgoes

theorem goes_of_go (h : s.Fits) (hg : s.go expired choice = some (s', answer)) :
    s.Goes answer s' := by
  have hlook (hc : ∀ path topic json session stopped,
      s.connector ≠ .source path topic json session stopped) :
      s.look expired choice = some (s', answer) := by
    rw [go] at hg
    split at hg
    · cases hg
    · cases hg
    · exact absurd ‹_› (hc _ _ _ _ _)
    · exact absurd ‹_› (hc _ _ _ _ _)
    · exact absurd ‹_› (hc _ _ _ _ _)
    · exact hg
  cases hc : s.connector with
  | source path topic json session stopped => exact goes_of_go_source hc hg
  | queue direction name capacity session =>
    cases direction with
    | inbound => exact goes_of_look_queue h hc (hlook (by rw [hc]; nofun))
    | outbound =>
      rw [Fits, hc] at h
      exact h.elim
  | null stopped => exact goes_of_look_null hc (hlook (by rw [hc]; nofun))
  | interval template period stopped => exact goes_of_look_interval hc (hlook (by rw [hc]; nofun))
  | feed pipe session => exact goes_of_look_feed h hc (hlook (by rw [hc]; nofun))
  | log _ | sink _ _ | tap _ _ =>
    rw [Fits, hc] at h
    exact h.elim

theorem Goes.keeps (h : s.Fits) (hg : s.Goes answer s') : s.Keeps s' := by
  cases hg with
  | gives around _ _ hk => exact hk
  | finishes _ hk => exact hk
  | _ => exact keeps_of_directory _ h _ fun _ _ _ _ ↦ rfl

/-- A receive that does not wait has an answer. -/
theorem receive_ne_nil (c : Connector) (around : Surroundings) : c.receive around ≠ .ready [] := by
  unfold receive
  split
  · split
    · nofun
    · dsimp only
      split
      · nofun
      · split <;> nofun
  · split <;> nofun
  · nofun
  · split
    · nofun
    · dsimp only
      split <;> nofun
  · nofun
  · split <;> nofun
  · split
    · nofun
    · rename_i stopped
      dsimp only
      split
      · nofun
      · cases stopped with
        | true => split <;> nofun
        | false => split <;> simp
  · nofun

theorem isSome_look (s : Intake) (expired : Bool) : (s.look expired 0).isSome := by
  unfold look
  split
  · rename_i answers hr
    cases answers with
    | nil => exact absurd hr (receive_ne_nil _ _)
    | cons a rest => rfl
  · split <;> rfl
  · rfl

/-- A thread that is awake can go on. -/
theorem isSome_go (ha : s.isAwake) (expired : Bool) : (s.go expired 0).isSome := by
  rw [go]
  split
  · exact absurd ‹_› ha.1
  · exact absurd ‹_› ha.2
  · rfl
  · rfl
  · rfl
  · exact isSome_look s expired

/-! ## What moves keep -/

theorem keeps_setDirectory {directory : Directory} (h : s.Fits)
    (hd : ∀ name id, s.connector.session? = some (name, id) →
      (s.around.directory.isClosed? name id).isSome →
      directory.isClosed? name id = s.around.directory.isClosed? name id) :
    s.Keeps (s.setDirectory directory) := keeps_of_directory _ h s.posture hd

theorem keeps_rouse (h : s.Fits) : s.Keeps s.rouse := by
  unfold rouse
  split
  · exact keeps_of_directory _ h _ fun _ _ _ _ ↦ rfl
  · exact .refl h

/-- The host's end of a channel has no part in what the session is told. -/
theorem keeps_pipe {connector : Connector} (h : s.Fits)
    (hc : connector = s.connector ∨ ∃ pipe pipe' session, s.connector = .feed pipe session ∧
      connector = .feed pipe' session) : s.Keeps { s with connector } := by
  obtain rfl | ⟨pipe, pipe', session, hs, rfl⟩ := hc
  · exact .refl h
  · refine ⟨rfl, ?_, ?_⟩
    · rw [Fits, hs] at h
      exact h
    · rw [isStopped, isStopped, hs]
      cases session <;> rfl

theorem keeps_next (h : s.Fits) {m : Move} (ht : m.isTurn = false) (hs : m.isStop = false) :
    s.Keeps (s.next m) := by
  have hother {name : String} {id : Nat} (hown : ¬ s.owns name id = true) {name' : String}
      {id' : Nat} (hsession : s.connector.session? = some (name', id')) :
      ¬ (name' = name ∧ id' = id) := by
    rintro ⟨rfl, rfl⟩
    exact hown (by rw [owns, hsession]; exact beq_self_eq_true _)
  cases m with
  | connect | disconnect => cases ht
  | stop => cases hs
  | call =>
    rw [next]
    split
    · exact keeps_of_directory _ h _ fun _ _ _ _ ↦ rfl
    · exact .refl h
  | go expired choice =>
    rw [next]
    cases hg : s.go expired choice with
    | none => exact .refl h
    | some out => exact (goes_of_go h hg).keeps h
  | wake | notify => exact keeps_rouse h
  | redirect name w =>
    exact keeps_setDirectory h fun _ _ _ _ ↦ congrFun₂ (Directory.isClosed?_publish _ _ _) _ _
  | subscribe name capacity =>
    exact keeps_setDirectory h fun _ _ _ hsome ↦ Directory.isClosed?_subscribe _ _ hsome
  | unsubscribe name id =>
    rw [next]
    split
    · exact .refl h
    · rename_i hown
      exact keeps_setDirectory h fun _ _ hsession _ ↦
        Directory.isClosed?_unsubscribe (hother hown hsession)
  | close name id =>
    rw [next]
    split
    · split
      · exact .refl h
      · rename_i hown
        exact keeps_setDirectory h fun _ _ hsession _ ↦
          Directory.isClosed?_setBuffer _ (hother hown hsession)
    · exact .refl h
  | take name id =>
    rw [next]
    split
    · rename_i hpop
      split
      · exact .refl h
      · exact keeps_setDirectory h fun _ _ _ _ ↦ congrFun₂ (Directory.isClosed?_pop hpop) _ _
    · exact .refl h
  | write files =>
    exact keeps_of_directory { s.around with files } h s.posture fun _ _ _ _ ↦ rfl
  | offer m =>
    refine keeps_pipe h ?_
    unfold offer
    split
    · rename_i pipe session hc
      split
      · exact .inl rfl
      · exact .inr ⟨_, _, _, hc, rfl⟩
    · exact .inl rfl
  | abandon =>
    refine keeps_pipe h ?_
    unfold abandon
    split
    · rename_i hc
      exact .inr ⟨_, _, _, hc, rfl⟩
    · rename_i hc
      rw [Fits, hc] at h
      exact h.elim
    · exact .inl rfl

/-! ## Sessions -/

/-- A stop reaches the session that is open. -/
theorem stop_spec (h : s.Fits) :
    (s.next .stop).Fits ∧ (s.isOpen = true → (s.next .stop).isStopped = true) := by
  obtain ⟨c, around, isOpen, posture⟩ := s
  cases c with
  | queue direction name capacity session =>
    cases direction with
    | outbound => exact h.elim
    | inbound =>
      cases session with
      | none => exact ⟨h, fun ho ↦ by cases h.1.symm.trans ho⟩
      | some id =>
        obtain ⟨q, hq⟩ := Directory.exists_buffer (h.2 id rfl)
        have hclosed := Directory.isClosed?_close hq
        have hstop : (Connector.queue .inbound name capacity (some id)).stop around =
            (.queue .inbound name capacity (some id),
              { around with directory := around.directory.setBuffer name id q.close }) := by
          rw [stop, hq]
        refine ⟨?_, fun _ ↦ ?_⟩
        · simp only [Fits, next, hstop]
          refine ⟨h.1, fun id' hid ↦ ?_⟩
          cases hid
          rw [hclosed]
          rfl
        · simp only [Intake.isStopped, next, hstop, Connector.isStopped, hclosed]
          rfl
  | null _ | source _ _ _ _ _ | interval _ _ _ => exact ⟨trivial, fun _ ↦ rfl⟩
  | feed pipe session =>
    cases session with
    | none => exact ⟨h, fun ho ↦ by cases h.symm.trans ho⟩
    | some _ => exact ⟨h, fun _ ↦ rfl⟩
  | _ => exact h.elim

/-- A session that is opened has not been stopped, whatever came before. -/
theorem connect_spec (h : s.Fits) :
    (s.next .connect).Fits ∧ (s.isOpen = false → (s.next .connect).isOpen = true →
      (s.next .connect).isStopped = false) := by
  rw [next]
  split
  case isFalse => exact ⟨h, fun hno ho ↦ absurd (hno.symm.trans ho) nofun⟩
  obtain ⟨c, around, isOpen, posture⟩ := s
  cases c with
  | queue direction name capacity session =>
    cases direction with
    | outbound => exact h.elim
    | inbound =>
      cases session with
      | some id =>
        obtain rfl : isOpen = true := h.1
        exact ⟨h, nofun⟩
      | none =>
        obtain rfl : isOpen = false := h.1
        cases hfull : (around.directory.queue name).exhausted with
        | true =>
          have hconnect : (Connector.queue .inbound name capacity none).connect around =
              (.error (exhaustion name), .queue .inbound name capacity none, around) :=
            if_pos hfull
          rw [hconnect]
          exact ⟨h, fun _ ho ↦ by cases ho⟩
        | false =>
          have hconnect : (Connector.queue .inbound name capacity none).connect around =
              (.ok (), .queue .inbound name capacity (some (around.directory.queue name).length),
                { around with directory := (around.directory.subscribe name capacity).2 }) :=
            if_neg (by simpa using hfull)
          have hnew := Directory.isClosed?_subscribe_self around.directory name capacity
          simp only [hconnect, Fits, Intake.isStopped, Connector.isStopped, hnew]
          refine ⟨⟨rfl, fun id hid ↦ ?_⟩, fun _ _ ↦ rfl⟩
          cases hid
          rw [hnew]
          rfl
  | source path topic json session stopped =>
    refine ⟨?_, fun hno ho ↦ ?_⟩
    · unfold connect
      dsimp only
      cases around.files.find path <;> trivial
    · obtain rfl : isOpen = false := hno
      unfold connect at ho ⊢
      dsimp only at ho ⊢
      cases hfind : around.files.find path with
      | error e =>
        rw [hfind] at ho
        cases ho
      | ok _ => rfl
  | null _ | interval _ _ _ => exact ⟨trivial, fun _ _ ↦ rfl⟩
  | feed pipe session => exact ⟨Bool.or_true isOpen, fun _ _ ↦ rfl⟩
  | _ => exact h.elim

theorem fits_disconnect (h : s.Fits) : (s.next .disconnect).Fits := by
  rw [next]
  split
  case isFalse => exact h
  obtain ⟨c, around, isOpen, posture⟩ := s
  cases c with
  | queue direction name capacity session =>
    cases direction with
    | outbound => exact h.elim
    | inbound => cases session <;> exact ⟨rfl, nofun⟩
  | null _ | source _ _ _ _ _ | interval _ _ _ => trivial
  | feed pipe session => exact rfl
  | _ => exact h.elim

theorem fits_next (h : s.Fits) (m : Move) : (s.next m).Fits := by
  cases m with
  | connect => exact (connect_spec h).1
  | disconnect => exact fits_disconnect h
  | stop => exact (stop_spec h).1
  | _ => exact (keeps_next h rfl rfl).fits

theorem after_append (s : Intake) (moves moves' : List Move) :
    s.after (moves ++ moves') = (s.after moves).after moves' := List.foldl_append

theorem after_induction {P : Intake → Prop} {moves : List Move} (h : P s)
    (hstep : ∀ s, P s → ∀ m ∈ moves, P (s.next m)) : P (s.after moves) := by
  induction moves generalizing s with
  | nil => exact h
  | cons m moves ih =>
    exact ih (hstep s h m List.mem_cons_self) fun s hs m hm ↦
      hstep s hs m (List.mem_cons_of_mem _ hm)

theorem fits_after (h : s.Fits) (moves : List Move) : (s.after moves).Fits :=
  after_induction h fun _ hs m _ ↦ fits_next hs m

/-! ## After a stop -/

/-- The session that is open was stopped. -/
structure Told (s : Intake) : Prop where
  fits : s.Fits
  isOpen : s.isOpen = true
  isStopped : s.isStopped = true

theorem told_stop (h : s.Fits) (ho : s.isOpen = true) : (s.next .stop).Told :=
  ⟨(stop_spec h).1, ho, (stop_spec h).2 ho⟩

theorem Told.next (h : s.Told) {m : Move} (ht : m.isTurn = false) : (s.next m).Told := by
  cases hm : m.isStop with
  | true =>
    cases m with
    | stop => exact told_stop h.fits h.isOpen
    | _ => cases hm
  | false =>
    have hk := keeps_next h.fits ht hm
    exact ⟨hk.fits, hk.isOpen.trans h.isOpen, hk.isStopped.trans h.isStopped⟩

theorem rouse_ne_asleep (s : Intake) : s.rouse.posture ≠ .asleep false := by
  unfold rouse
  split
  · nofun
  · rename_i hp
    exact hp false

/-- Nobody goes to sleep in a session that was stopped. -/
theorem Told.ne_asleep_next (h : s.Told) (hs : s.posture ≠ .asleep false) (m : Move) :
    (s.next m).posture ≠ .asleep false := by
  cases m with
  | go expired choice =>
    rw [Intake.next]
    cases hg : s.go expired choice with
    | none => exact hs
    | some out =>
      obtain ⟨s', answer⟩ := out
      cases goes_of_go h.fits hg with
      | waits hw => exact absurd (hw.symm.trans h.isStopped) nofun
      | _ => nofun
  | wake | notify => exact rouse_ne_asleep s
  | connect | disconnect | call | unsubscribe _ _ =>
    rw [Intake.next]
    split
    · first | exact hs | nofun
    · exact hs
  | close _ _ | take _ _ =>
    rw [Intake.next]
    split
    · split <;> exact hs
    · exact hs
  | _ => exact hs

theorem Told.left_lt (h : s.Told) (hg : s.Goes none s') : s'.posture.left < s.posture.left := by
  cases hg with
  | waits hw | reads hw => exact absurd (hw.symm.trans h.isStopped) nofun
  | finishes hp _ =>
    rw [hp]
    exact Nat.one_pos

theorem Told.ends (h : s.Told) {a : Answer} (hg : s.Goes (some a) s') :
    s'.posture = .away ∧ (a = .error .stopped ∨ Available s.around s.connector a) := by
  cases hg with
  | stopped => exact ⟨rfl, .inl rfl⟩
  | gives around ha => exact ⟨rfl, .inr ha⟩
  | ticks _ hs | refuses _ hs => exact absurd (hs.symm.trans h.isStopped) nofun

theorem Goes.isStopped (hg : s.Goes (some (.error .stopped)) s') : s.isStopped = true := by
  cases hg with
  | stopped hs => exact hs
  | gives _ _ hne => exact absurd rfl hne

/-- After the stop, and once the sleeper was woken up, nobody sleeps while the session lasts. -/
theorem told_after (h : s.Fits) (ho : s.isOpen = true) {mid rest : List Move}
    (hlast : ∀ m ∈ mid ++ rest, m.isTurn = false) :
    (s.after (.stop :: mid ++ .notify :: rest)).Told ∧
      (s.after (.stop :: mid ++ .notify :: rest)).posture ≠ .asleep false := by
  have hmid : ((s.next .stop).after mid).Told :=
    after_induction (told_stop h ho) fun _ ht m hm ↦
      ht.next (hlast m (List.mem_append_left _ hm))
  have hroused : (((s.next .stop).after mid).next .notify).Told := hmid.next rfl
  rw [after_append]
  refine after_induction (s := ((s.next .stop).after mid).next .notify)
    (P := fun t ↦ t.Told ∧ t.posture ≠ .asleep false)
    ⟨hroused, rouse_ne_asleep _⟩ fun t ht m hm ↦ ?_
  exact ⟨ht.1.next (hlast m (List.mem_append_right _ hm)), ht.1.ne_asleep_next ht.2 m⟩

/-- Let any connector be opened, used and closed, with whatever happens around it. From the moment
at which its open session was stopped, and as long as that session lasts, nobody sleeps in a
receive; a thread that is in one can go on, ends the call in this step or the next, and is told
that the session was stopped or given what is there. A session that is opened later is stopped only
by a stop of its own. -/
theorem stop_never_lost {c : Connector} (hc : c.IsNew) (around : Surroundings) :
    let s : Intake := { connector := c, around }
    (∀ before mid rest, (s.after before).isOpen = true →
      (∀ m ∈ mid ++ rest, m.isTurn = false) →
      let t := s.after (before ++ (.stop :: mid ++ .notify :: rest))
      t.posture ≠ .asleep false ∧
      (t.posture ≠ .away → ∀ expired, (t.go expired 0).isSome = true) ∧
      ∀ expired choice t' answer, t.go expired choice = some (t', answer) →
        (answer = none → t'.posture.left < t.posture.left) ∧
        ∀ a, answer = some a → t'.posture = .away ∧
          (a = .error .stopped ∨ Available t.around t.connector a)) ∧
    ∀ before rest, (s.after before).isOpen = false →
      (s.after (before ++ [.connect])).isOpen = true →
      (∀ m ∈ rest, m.isTurn = false ∧ m.isStop = false) →
      ∀ expired choice t',
        (s.after (before ++ .connect :: rest)).go expired choice ≠
          some (t', some (.error .stopped)) := by
  have hfits : ∀ moves, (({ connector := c, around } : Intake).after moves).Fits :=
    fits_after (hc.fits _)
  constructor
  · intro before mid rest ho hlast
    have ht := told_after (hfits before) ho hlast
    rw [← after_append] at ht
    refine ⟨ht.2, fun ha ↦ isSome_go ⟨ha, ht.2⟩, fun expired choice t' answer hg ↦ ⟨?_, ?_⟩⟩
    · rintro rfl
      exact ht.1.left_lt (goes_of_go ht.1.fits hg)
    · rintro a rfl
      exact ht.1.ends (goes_of_go ht.1.fits hg)
  · intro before rest hno ho hlast expired choice t' hg
    have hopened : (((({ connector := c, around } : Intake).after before).next .connect).after
        rest).isStopped = false := by
      rw [after_append] at ho
      refine (after_induction (P := fun t ↦ t.Fits ∧ t.isStopped = false)
        ⟨fits_next (hfits before) _, (connect_spec (hfits before)).2 hno ho⟩
        fun t ht m hm ↦ ?_).2
      have hk := keeps_next ht.1 (hlast m hm).1 (hlast m hm).2
      exact ⟨hk.fits, hk.isStopped.trans ht.2⟩
    have hstopped := (goes_of_go (hfits _) hg).isStopped
    rw [after_append] at hstopped
    exact absurd (hopened.symm.trans hstopped) nofun

/-- A thread that looks into an empty buffer just before the stop, and sleeps. -/
theorem stop_never_lost_asleep :
    let s : Intake := { connector := .queue .inbound "t" 0 none }
    (s.after [.connect, .call, .go false 0]).posture = .asleep false ∧
    (s.after [.connect, .call, .go false 0, .stop, .notify]).posture = .asleep true ∧
    ((s.after [.connect, .call, .go false 0, .stop, .notify]).go false 0).isSome = true ∧
    ((s.after [.connect, .call, .go false 0, .stop, .notify, .go false 0, .disconnect,
      .connect, .call]).go false 0).map (·.2) = some none := by
  have h := stop_never_lost (.queue "t" 0) {}
  have hstop := (h.1 [.connect, .call, .go false 0] [] [] (by decide) nofun).2.1
  exact ⟨by decide, by decide, hstop (by decide) false, by decide⟩

end Intake

end Conduit
