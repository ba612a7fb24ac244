import Conduit.Proofs.Pipeline.Accounting
import Conduit.Proofs.Pipeline.Exits

/-!
# What is shown of failures

The board is told of the failures of a run one after the other (`Incident.note`). It is meant to
show the first one, and does so unless that one comes while the controller, tearing the run down,
has looked at the board and not written on it yet: what it then writes hides that the run has
failed, and the next failure is shown instead (`History.shown_incident`).
-/

namespace Conduit

open Stage

variable {σ : Type}

/-! ## Incidents -/

/-- A failure that the board is told of. -/
structure Incident where
  worker : Worker
  text : String
  /-- Where the controller is at the time. -/
  control : Control
deriving DecidableEq

/-- Whether the controller overlooks a failure: it has looked at the board, which did not show one,
and is about to write on it. -/
def Control.overlooks : Control → Bool
  | .tearing _ (.marking false) => true
  | _ => false

/-- Whether the controller has written on the board in tearing a run down. -/
def Control.isLate : Control → Bool
  | .tearing _ phase => 2 < phase.rank
  | _ => false

theorem Control.isLate_of_overlooks {control : Control} (h : control.overlooks = true) :
    control.isLate = false := by
  cases control with
  | tearing reason phase =>
    cases phase with
    | marking failed => rfl
    | _ => cases h
  | _ => cases h

namespace Exit

/-- What a worker that is leaving is about to show. -/
def text? : Exit → Option String
  | .failing text _ => some text
  | _ => none

end Exit

namespace Incident

def isOverlooked (i : Incident) : Bool := i.control.overlooks

/-- What the board is told in a move. A worker on its way out shows its own failure. The controller
shows that of a broken worker once more when it takes back what the worker was lent. -/
def ofMove (m : Machine σ) (r : Run) : Move → Option Incident
  | .tear =>
    match m.control with
    | .tearing _ (.joining w) =>
      if Machine.gone? r w = some true then some ⟨w, w.name ++ " thread panicked", m.control⟩
      else none
    | _ => none
  | move =>
    move.worker?.bind fun w =>
      ((r.exit? w).bind Exit.text?).map fun text => ⟨w, text, m.control⟩

/-- The incidents of the latest run, after one more move. Whoever opens the connectors for a new run
begins with none. -/
def note (m : Machine σ) (move : Move) (incidents : List Incident) : List Incident :=
  match move with
  | .launch .. => []
  | _ => incidents ++ (m.run.bind fun r => ofMove m r move).toList

/-- The incident that is shown: the first one that was not overlooked, or else the first one. -/
def shown (incidents : List Incident) : Option Incident :=
  incidents.find? (!·.isOverlooked) <|> incidents.head?

variable {incidents : List Incident} {i : Incident}

theorem exists_shown (h : incidents ≠ []) : ∃ i, shown incidents = some i := by
  obtain ⟨j, rest, rfl⟩ := List.exists_cons_of_ne_nil h
  cases hf : (j :: rest).find? (!·.isOverlooked) with
  | none => exact ⟨j, by simp [shown, hf]⟩
  | some k => exact ⟨k, by simp [shown, hf]⟩

theorem shown_of_overlooked (h : ∀ j ∈ incidents, j.isOverlooked = true) :
    shown incidents = incidents.head? := by
  have hfind : incidents.find? (!·.isOverlooked) = none :=
    List.find?_eq_none.2 fun j hj ↦ by simp [h j hj]
  rw [shown, hfind]
  rfl

theorem shown_concat_of_seen (h : ∃ j ∈ incidents, j.isOverlooked = false) :
    shown (incidents ++ [i]) = shown incidents := by
  obtain ⟨j, hj, hs⟩ := h
  have hfind : (incidents.find? (!·.isOverlooked)).isSome = true :=
    List.find?_isSome.2 ⟨j, hj, by simp [hs]⟩
  obtain ⟨k, hk⟩ := Option.isSome_iff_exists.1 hfind
  simp [shown, List.find?_append, hk]

theorem shown_concat_of_overlooked (h : ∀ j ∈ incidents, j.isOverlooked = true)
    (hi : i.isOverlooked = false) : shown (incidents ++ [i]) = some i := by
  have hfind : incidents.find? (!·.isOverlooked) = none :=
    List.find?_eq_none.2 fun j hj ↦ by simp [h j hj]
  simp [shown, List.find?_append, hfind, hi]

theorem note_of_worker {m : Machine σ} {r : Run} {move : Move} {w : Worker}
    (hw : move.worker? = some w) (hr : m.run = some r) (incidents : List Incident) :
    note m move incidents =
      incidents ++ (((r.exit? w).bind Exit.text?).map fun text ↦ ⟨w, text, m.control⟩).toList := by
  cases move <;> cases hw <;> simp [note, hr, ofMove, Move.worker?]

theorem note_of_alarm {m : Machine σ} {move : Move} (hw : move.worker? = none)
    (hc : ∀ control : Control, ¬ control.Admits move) (incidents : List Incident) :
    note m move incidents = incidents := by
  cases move with
  | launch => exact (hc .starting trivial).elim
  | tear => exact (hc (.tearing .failure .looking) trivial).elim
  | ring => cases h : m.run <;> simp [note, ofMove, Move.worker?, h]
  | signal => cases h : m.run <;> simp [note, ofMove, Move.worker?, h]
  | accept => exact (hc .idle trivial).elim
  | notice => exact (hc .idle trivial).elim
  | _ => cases hw

theorem note_of_idle {m : Machine σ} {move : Move} (h : Control.idle.Admits move)
    (incidents : List Incident) : note m move incidents = incidents := by
  rcases h.of_idle with rfl | rfl <;> cases hr : m.run <;> simp [note, ofMove, Move.worker?, hr]

theorem note_of_starting {m : Machine σ} {move : Move} (h : Control.starting.Admits move)
    (incidents : List Incident) : note m move incidents = [] := by
  obtain ⟨_, _, rfl⟩ := h.of_starting
  rfl

end Incident

/-! ## What the board shows -/

namespace Machine

/-- The board shows what it has been told of, as far as the controller lets it. -/
structure Shows (m : Machine σ) (incidents : List Incident) : Prop where
  text : incidents ≠ [] → m.board.lastError = (Incident.shown incidents).map (·.text)
  failed : ∀ r, m.run = some r → m.board.state = .failed →
    incidents ≠ [] ∧ ((∀ i ∈ incidents, i.isOverlooked = true) → m.control.overlooks = true)
  healthy : ∀ r, m.run = some r → m.board.state ≠ .failed →
    (∀ i ∈ incidents, i.isOverlooked = true) ∧ (incidents ≠ [] → m.control.isLate = true)
  overlooking : m.control.overlooks = true → ∀ i ∈ incidents, i.isOverlooked = true

variable {m m' : Machine σ} {incidents : List Incident} {r : Run}

/-- A board that shows a failure does not show the next one, and what it shows stays right. -/
theorem Shows.shown_concat (h : m.Shows incidents) (hr : m.run = some r)
    (hs : m.board.state = .failed) {i : Incident} (hi : i.control = m.control) :
    Incident.shown (incidents ++ [i]) = Incident.shown incidents := by
  obtain ⟨hne, hall⟩ := h.failed r hr hs
  by_cases hseen : ∃ j ∈ incidents, j.isOverlooked = false
  · exact Incident.shown_concat_of_seen hseen
  · have hover : ∀ j ∈ incidents, j.isOverlooked = true := by simpa using hseen
    have hi' : i.isOverlooked = true := (congrArg Control.overlooks hi).trans (hall hover)
    have hover' : ∀ j ∈ incidents ++ [i], j.isOverlooked = true := by
      simpa [or_imp, forall_and, hi'] using hover
    rw [Incident.shown_of_overlooked hover', Incident.shown_of_overlooked hover]
    obtain ⟨j, rest, rfl⟩ := List.exists_cons_of_ne_nil hne
    rfl

/-- A board that shows no failure of a run shows the next one. -/
theorem Shows.shown_concat_of_healthy (h : m.Shows incidents) (hr : m.run = some r)
    (hs : m.board.state ≠ .failed) {i : Incident} (hi : i.control = m.control) :
    Incident.shown (incidents ++ [i]) = some i := by
  obtain ⟨hover, hlate⟩ := h.healthy r hr hs
  cases ho : i.isOverlooked with
  | false => exact Incident.shown_concat_of_overlooked hover ho
  | true =>
    -- The controller has not written yet, so this is the first failure of the run.
    have hnil : incidents = [] := Classical.byContradiction fun hne ↦ by
      have hearly := Control.isLate_of_overlooks ((congrArg Control.overlooks hi).symm.trans ho)
      exact absurd ((hlate hne).symm.trans hearly) (by decide)
    subst hnil
    exact (Incident.shown_of_overlooked (by simpa using ho)).trans rfl

/-- The board is told of one more failure. -/
theorem Shows.tell (h : m.Shows incidents) (hr : m.run = some r) {i : Incident}
    (hi : i.control = m.control) (hb : m'.board = m.board.fail i.text)
    (hc : m'.control = m.control ∨ m.control.overlooks = false ∧ m'.control.overlooks = false) :
    m'.Shows (incidents ++ [i]) := by
  have hi' : i.isOverlooked = m.control.overlooks := congrArg Control.overlooks hi
  have hc' : m'.control.overlooks = m.control.overlooks := by
    rcases hc with hc | ⟨hc, hc'⟩
    · rw [hc]
    · rw [hc, hc']
  have hfailed : m'.board.state = .failed := by rw [hb, Board.state_fail]
  constructor
  case text =>
    intro _
    by_cases hs : m.board.state = .failed
    · have hne := (h.failed r hr hs).1
      obtain ⟨j, hj⟩ := Incident.exists_shown hne
      have hlast := h.text hne
      rw [h.shown_concat hr hs hi, hb, Board.fail_of_failed _ _ hs (by simp [hlast, hj]), hlast]
    · rw [h.shown_concat_of_healthy hr hs hi, hb, Board.lastError_fail_of_not_failed _ _ hs]
      rfl
  case failed =>
    intro _ _ _
    refine ⟨by simp, fun hall ↦ ?_⟩
    rw [hc', ← hi']
    exact hall i (by simp)
  case healthy =>
    intro _ _ hs
    exact absurd hfailed hs
  case overlooking =>
    intro ho
    rw [hc'] at ho
    simpa [or_imp, forall_and, hi', ho] using h.overlooking ho

/-- What tells the board nothing leaves what it shows alone. -/
theorem Shows.keep (h : m.Shows incidents) (hb : m'.board.health = m.board.health)
    (hr : m'.run.isSome = true → m.run.isSome = true)
    (ho : m'.control.overlooks = m.control.overlooks)
    (hl : m.control.isLate = true → m'.control.isLate = true) : m'.Shows incidents := by
  obtain ⟨hs, he⟩ : m'.board.state = m.board.state ∧ m'.board.lastError = m.board.lastError :=
    ⟨congrArg Prod.fst hb, congrArg Prod.snd hb⟩
  have hlive {r' : Run} (hr' : m'.run = some r') : ∃ r, m.run = some r :=
    Option.isSome_iff_exists.1 (hr (by rw [hr']; rfl))
  constructor
  case text =>
    intro hne
    exact he.trans (h.text hne)
  case failed =>
    intro r' hr' hf
    obtain ⟨r, hr⟩ := hlive hr'
    rw [ho]
    exact h.failed r hr (hs ▸ hf)
  case healthy =>
    intro r' hr' hf
    obtain ⟨r, hr⟩ := hlive hr'
    obtain ⟨hover, hlate⟩ := h.healthy r hr (hs ▸ hf)
    exact ⟨hover, fun hne ↦ hl (hlate hne)⟩
  case overlooking =>
    intro ho'
    exact h.overlooking (ho ▸ ho')

/-- When the run is over the board goes on to show what it has shown. -/
theorem Shows.over (h : m.Shows incidents) (he : m'.board.lastError = m.board.lastError)
    (hr : m'.run = none) (ho : m'.control.overlooks = false) : m'.Shows incidents where
  text hne := he.trans (h.text hne)
  failed r hr' := by cases hr.symm.trans hr'
  healthy r hr' := by cases hr.symm.trans hr'
  overlooking ho' := by cases ho.symm.trans ho'

/-- Before it is told of anything, a board of a run that goes on shows no failure. -/
theorem shows_nil (h : ∀ r, m.run = some r → m.board.state ≠ .failed) : m.Shows [] where
  text hne := absurd rfl hne
  failed r hr hs := absurd hs (h r hr)
  healthy r hr hs := ⟨by simp, fun hne ↦ absurd rfl hne⟩
  overlooking := by simp

theorem note_tear {reason : Reason} {phase : Phase} (hc : m.control = .tearing reason phase)
    (hj : ∀ w, phase ≠ .joining w) (incidents : List Incident) :
    Incident.note m .tear incidents = incidents := by
  cases hr : m.run with
  | none => simp [Incident.note, hr]
  | some r =>
    cases phase with
    | joining w => exact absurd rfl (hj w)
    | _ => simp [Incident.note, Incident.ofMove, hr, hc]

theorem note_join {reason : Reason} {w : Worker} {broken : Bool}
    (hc : m.control = .tearing reason (.joining w)) (hr : m.run = some r)
    (hg : gone? r w = some broken) (incidents : List Incident) :
    Incident.note m .tear incidents =
      if broken then incidents ++ [⟨w, w.name ++ " thread panicked", m.control⟩]
      else incidents := by
  cases broken <;> simp [Incident.note, Incident.ofMove, hr, hc, hg]

/-- To take back what a worker was lent shows its failure, if it is broken. -/
theorem Shows.join (h : m.Shows incidents) {reason : Reason} {phase : Phase} {w : Worker}
    {broken : Bool} (hc : m.control = .tearing reason (.joining w)) (hr : m.run = some r)
    (hg : gone? r w = some broken) (hp : ∀ failed, phase ≠ .marking failed)
    (hl : 2 < phase.rank) :
    ({ m.join w broken with control := .tearing reason phase } : Machine σ).Shows
      (Incident.note m .tear incidents) := by
  have ho : m.control.overlooks = false := by rw [hc]; rfl
  have ho' : (Control.tearing reason phase).overlooks = false := by
    cases phase with
    | marking failed => exact absurd rfl (hp failed)
    | _ => rfl
  rw [note_join hc hr hg]
  cases broken with
  | false => exact h.keep rfl id (ho'.trans ho.symm) fun _ ↦ by simpa [Control.isLate] using hl
  | true => exact h.tell hr rfl (by cases w <;> rfl) (.inr ⟨ho, ho'⟩)

theorem Shows.of_tears (h : m.Shows incidents) {reason : Reason} {phase phase' : Phase}
    (hc : m.control = .tearing reason phase) (hr : m.run = some r)
    (ht : m.Tears r phase m' phase') :
    ({ m' with control := .tearing reason phase' } : Machine σ).Shows
      (Incident.note m .tear incidents) := by
  have hkeep (hb : m'.board.health = m.board.health)
      (ho : (Control.tearing reason phase').overlooks = m.control.overlooks)
      (hl : m.control.isLate = true → (Control.tearing reason phase').isLate = true) :
      ({ m' with control := .tearing reason phase' } : Machine σ).Shows incidents :=
    h.keep hb (fun _ ↦ by rw [hr]; rfl) ho hl
  have hquiet (hj : ∀ w, phase ≠ .joining w)
      (hs : ({ m' with control := .tearing reason phase' } : Machine σ).Shows incidents) :
      ({ m' with control := .tearing reason phase' } : Machine σ).Shows
        (Incident.note m .tear incidents) := by
    rwa [note_tear hc hj]
  cases ht with
  | deactivate => exact hquiet nofun (hkeep rfl (by rw [hc]; rfl) (by rw [hc]; nofun))
  | look =>
    refine hquiet nofun ?_
    by_cases hs : m.board.state = .failed
    · exact hkeep rfl (by rw [hc]; simp [Control.overlooks, hs]) (by rw [hc]; nofun)
    · have hnil : incidents = [] := Classical.byContradiction fun hne ↦ by
        have hlate := (h.healthy r hr hs).2 hne
        rw [hc] at hlate
        cases hlate
      rw [hnil]
      exact shows_nil fun _ _ ↦ hs
  | mark failed =>
    refine hquiet nofun ?_
    cases failed with
    | true => exact hkeep rfl (by rw [hc]; rfl) fun _ ↦ rfl
    | false =>
      have hover : ∀ i ∈ incidents, i.isOverlooked = true := h.overlooking (by rw [hc]; rfl)
      rw [if_neg Bool.false_ne_true]
      constructor
      case text => exact h.text
      case failed =>
        intro _ _ hs
        cases hs
      case healthy =>
        intro _ _ _
        exact ⟨hover, fun _ ↦ rfl⟩
      case overlooking =>
        intro ho
        cases ho
  | stop => exact hquiet nofun (hkeep rfl (by rw [hc]; rfl) fun _ ↦ rfl)
  | close => exact hquiet nofun (hkeep rfl (by rw [hc]; rfl) fun _ ↦ rfl)
  | joinReceiver hg => exact h.join hc hr hg nofun (by decide)
  | wake => exact hquiet nofun (hkeep rfl (by rw [hc]; rfl) fun _ ↦ rfl)
  | joinProcessor hg => exact h.join hc hr hg nofun (by decide)
  | joinSender hg => exact h.join hc hr hg nofun (by decide)

theorem Shows.afterwards (h : m.Shows incidents) (hr : m.run = none) (reason : Reason) :
    (m.afterwards reason).Shows incidents := by
  cases reason with
  | failure => exact h.over rfl hr rfl
  | request q =>
    cases q with
    | start => exact h.over rfl hr rfl
    | terminate => exact h.over rfl hr rfl
    | stop =>
      unfold Machine.afterwards
      dsimp only
      split <;> exact h.over rfl hr rfl
    | restart =>
      unfold Machine.afterwards
      dsimp only
      split <;> exact h.over rfl hr rfl

theorem Shows.tearDown (h : m.Shows incidents) (hc : m.control = .idle) (reason : Reason) :
    (m.tearDown reason).Shows incidents := by
  unfold Machine.tearDown
  split
  · exact h.keep rfl id (by rw [hc]; rfl) (by rw [hc]; nofun)
  · rename_i hl
    exact h.afterwards (Option.not_isSome_iff_eq_none.1 hl) reason

variable [Behaviour σ]

theorem Shows.of_controls (h : m.Shows incidents) (hm : m.Orderly) {move : Move}
    {deed : Option (Deed σ)} (ha : m.control.Admits move) (hd : m.Controls deed m') :
    m'.Shows (Incident.note m move incidents) := by
  cases hd with
  | @accept request rest hc hq =>
    rw [Incident.note_of_idle (hc ▸ ha)]
    have h' : ({ m with requests := rest } : Machine σ).Shows incidents :=
      ⟨h.text, h.failed, h.healthy, h.overlooking⟩
    rcases take_cases { m with requests := rest } request with ⟨answer, he⟩ | ⟨q, he⟩
    · rw [he]
      exact h'.keep rfl id (by rw [hc]; rfl) (by rw [hc]; nofun)
    · rw [he]
      exact h'.tearDown hc (.request q)
  | notice hc hf hl hs =>
    rw [Incident.note_of_idle (hc ▸ ha)]
    have h' : ({ m with failure := false } : Machine σ).Shows incidents :=
      ⟨h.text, h.failed, h.healthy, h.overlooking⟩
    exact h'.tearDown hc .failure
  | ignore hc hf hl =>
    rw [Incident.note_of_idle (hc ▸ ha)]
    exact ⟨h.text, h.failed, h.healthy, h.overlooking⟩
  | giveUp text hc =>
    rw [Incident.note_of_starting (hc ▸ ha)]
    exact shows_nil fun r hr ↦ by cases (hm.resting (.inl hc)).symm.trans hr
  | begin now hc hw hchain =>
    rw [Incident.note_of_starting (hc ▸ ha)]
    exact shows_nil fun r hr hs ↦ by cases hs
  | tear hc hr ht =>
    obtain rfl := (hc ▸ ha : (Control.tearing _ _).Admits move).of_tearing
    exact h.of_tears hc hr ht
  | @clear reason r hc hr =>
    obtain rfl := (hc ▸ ha : (Control.tearing _ _).Admits move).of_tearing
    rw [note_tear hc nofun]
    have hover : (m.clear r).Shows incidents := by
      refine h.over ?_ rfl (by change m.control.overlooks = false; rw [hc]; rfl)
      unfold Machine.clear
      dsimp only
      split <;> rfl
    exact hover.afterwards rfl reason

/-- Whatever the machine does, the board shows what it has been told of. -/
theorem Shows.of_does (h : m.Shows incidents) (hm : m.Orderly) {move : Move}
    {deed : Option (Deed σ)} (hd : m.DoesBy move deed m') :
    m'.Shows (Incident.note m move incidents) := by
  rcases hd.cases with ⟨w, r, r', hw, hr, he, -, -, htells⟩ | ⟨r, r', hw, hc, -, hr, rfl, -⟩ |
    ⟨-, ha, hd⟩
  · rw [Incident.note_of_worker hw hr]
    have hrun : m'.run = some r' := by rw [he]
    have hcontrol : m'.control = m.control := by rw [he]
    have hlive : m'.run.isSome = true → m.run.isSome = true := fun _ ↦ by rw [hr]; rfl
    have hkeep (hb : m'.board.health = m.board.health) : m'.Shows incidents :=
      h.keep hb hlive (by rw [hcontrol]) (by rw [hcontrol]; exact id)
    generalize r.exit? w = exit, r'.exit? w = exit', hb : m'.board = board,
      m'.failure = failure at htells
    cases htells with
    | leaving he =>
      cases he with
      | fail text broken => exact h.tell hr rfl hb (.inl hcontrol)
      | report broken =>
        rw [show (some (Exit.reporting broken)).bind Exit.text? = none from rfl, Option.map_none,
          Option.toList_none, List.append_nil]
        exact hkeep (by rw [hb])
    | working hh =>
      rw [Option.bind_none, Option.map_none, Option.toList_none, List.append_nil]
      exact hkeep (by rw [hb, hh])
  · rw [Incident.note_of_alarm hw hc]
    exact h.keep rfl (fun _ ↦ by rw [hr]; rfl) rfl id
  · exact h.of_controls hm ha hd

end Machine

/-! ## Over all acts -/

/-- Whether a move opens the connectors for a new run. -/
def Move.isLaunch : Move → Bool
  | .launch .. => true
  | _ => false

def Act.isLaunch : Act → Bool
  | .move _ _ m => m.isLaunch
  | _ => false

theorem Incident.note_eq_append {m : Machine σ} {move : Move} (h : move.isLaunch = false)
    (incidents : List Incident) : ∃ added, note m move incidents = incidents ++ added := by
  cases move with
  | launch => cases h
  | _ => exact ⟨_, rfl⟩

namespace History

variable [Behaviour σ]

/-- The failures of the latest run that the board has been told of, the first one first. -/
def incidents (h : History σ) (acts : List Act) : List Incident := noted Incident.note h [] acts

/-- As long as no run is opened, failures are added at the end. -/
theorem incidents_append (h : History σ) (acts : List Act) {more : List Act}
    (hmore : ∀ a ∈ more, a.isLaunch = false) :
    ∃ added, h.incidents (acts ++ more) = h.incidents acts ++ added := by
  unfold incidents
  rw [noted_append]
  generalize h.after acts = h, noted Incident.note h [] acts = incidents
  induction more generalizing h incidents with
  | nil => exact ⟨[], (List.append_nil _).symm⟩
  | cons a more ih =>
    have hfirst : ∃ added, noteAct Incident.note h incidents a = incidents ++ added := by
      cases a with
      | move patience moment move =>
        unfold noteAct
        dsimp only
        split
        · exact ⟨[], (List.append_nil _).symm⟩
        · exact Incident.note_eq_append (hmore _ List.mem_cons_self) incidents
      | _ => exact ⟨[], (List.append_nil _).symm⟩
    obtain ⟨added, hadded⟩ := hfirst
    obtain ⟨rest, hrest⟩ := ih (fun b hb ↦ hmore b (List.mem_cons_of_mem _ hb)) (h.next a)
      (noteAct Incident.note h incidents a)
    refine ⟨added ++ rest, ?_⟩
    rw [noted, hrest, hadded, List.append_assoc]

variable (sizing : Config.Sizing) (inboundType outboundType : String) (c : Chain σ)

theorem shows (acts : List Act) :
    let h := (Machine.ready sizing inboundType outboundType c).history
    (h.after acts).machine.Orderly ∧ (h.after acts).machine.Shows (h.incidents acts) := by
  refine ready_noted (P := fun h g ↦ h.machine.Shows g) sizing inboundType outboundType c acts
    ?_ ?_ ?_
  · exact Machine.shows_nil fun _ hr ↦ by cases hr
  · rintro h incidents requests replies hs
    exact ⟨hs.text, hs.failed, hs.healthy, hs.overlooking⟩
  · rintro h incidents patience moment move m hm hs hd
    exact hs.of_does hm hd

/-- The first failure of a run is the one that is shown, until the connectors are opened for the
next run, unless the controller overlooks it: then the first one that it does not overlook takes
its place. -/
theorem shown_incident {acts more : List Act} {i : Incident} {rest : List Incident}
    (hi : (Machine.ready sizing inboundType outboundType c).history.incidents acts = i :: rest)
    (hmore : ∀ a ∈ more, a.isLaunch = false) :
    let h := (Machine.ready sizing inboundType outboundType c).history
    ∃ added, h.incidents (acts ++ more) = i :: (rest ++ added) ∧
      (h.after (acts ++ more)).machine.board.lastError = some (
        if i.isOverlooked then (((rest ++ added).find? (!·.isOverlooked)).getD i).text
        else i.text) := by
  intro h
  obtain ⟨added, hadded⟩ := h.incidents_append acts hmore
  have hall : h.incidents (acts ++ more) = i :: (rest ++ added) := by
    rw [hadded, hi, List.cons_append]
  obtain ⟨-, hs⟩ := shows sizing inboundType outboundType c (acts ++ more)
  refine ⟨added, hall, ?_⟩
  have htext := hs.text (by rw [hall]; exact List.cons_ne_nil _ _)
  rw [hall] at htext
  rw [htext]
  cases ho : i.isOverlooked with
  | false => simp [Incident.shown, ho]
  | true => cases hf : (rest ++ added).find? (!·.isOverlooked) <;> simp [Incident.shown, ho, hf]

end History

/-- A run that is stopped when its sender and its receiver have seen that it is to go on and are
about to fail. The receiver fails when the controller has looked at the board and not written on it
yet. -/
def Act.hastyStop : List Act :=
  let move (m : Move) : Act := .move 9 ⟨0, 0⟩ m
  [.post .start, move .accept, move (.launch (.ok ()) (.ok ())), move (.work .receive),
    move (.receive (.ok (.ofRaw "t" [1])))] ++
  List.replicate 3 (move (.work .receive)) ++ List.replicate 9 (move (.work .process)) ++
  [move (.work .send), move (.send (.error (.transport "gone"))), move (.work .send),
    move (.receive (.error (.transport "lost"))), move (.work .receive), .post .stop, move .accept,
    move .tear, move .tear, move (.work .receive)]

/-- The controller writes on the board, and the sender fails. -/
def Act.hastyStopGoesOn : List Act := [.move 9 ⟨0, 0⟩ .tear, .move 9 ⟨0, 0⟩ (.work .send)]

/-- The failure of the receiver, which came first and was shown, is replaced by that of the sender,
in the same run. -/
theorem History.first_failure_replaced :
    let h := (Machine.ready {} "a" "b" Chain.through).history
    let before := (h.after Act.hastyStop).machine
    let after := (h.after (Act.hastyStop ++ Act.hastyStopGoesOn)).machine
    before.isLive = true ∧ before.board.state = .failed ∧
      before.board.lastError = some "inbound a connector: transport error: lost" ∧
      (∀ a ∈ Act.hastyStopGoesOn, a.isLaunch = false) ∧ after.isLive = true ∧
      after.board.lastError = some "outbound b connector: transport error: gone" := by
  refine ⟨by decide +kernel, by decide +kernel, by decide +kernel, by decide, by decide +kernel,
    by decide +kernel⟩

/-- The failure that is replaced is one that the controller overlooks. -/
theorem History.shown_incident_hastyStop :
    ∃ i, (Machine.ready {} "a" "b" Chain.through).history.incidents Act.hastyStop = [i] ∧
      i.isOverlooked = true ∧ (∀ a ∈ Act.hastyStopGoesOn, a.isLaunch = false) ∧
      ∃ added, (Machine.ready {} "a" "b" Chain.through).history.incidents
          (Act.hastyStop ++ Act.hastyStopGoesOn) = i :: added ∧
        ((Machine.ready {} "a" "b" Chain.through).history.after
          (Act.hastyStop ++ Act.hastyStopGoesOn)).machine.board.lastError =
            some ((added.find? (!·.isOverlooked)).getD i).text := by
  have hi : (Machine.ready {} "a" "b" Chain.through).history.incidents Act.hastyStop =
      [⟨.receive, "inbound a connector: transport error: lost",
        .tearing (.request .stop) (.marking false)⟩] := by decide +kernel
  have hmore : ∀ a ∈ Act.hastyStopGoesOn, a.isLaunch = false := by decide
  obtain ⟨added, hall, hlast⟩ := shown_incident {} "a" "b" .through hi hmore
  exact ⟨_, hi, rfl, hmore, added, hall, hlast⟩

end Conduit
