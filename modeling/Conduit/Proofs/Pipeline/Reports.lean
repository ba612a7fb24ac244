import Conduit.Proofs.Pipeline.Incidents

/-!
# Reports of failures

A run that has failed does not go unnoticed. As long as the controller does nothing, the failure is
reported, or a worker is about to report it (`History.failure_pending`). There is room for one
report only, and what is left of one when the run is over is there when the next run begins. It does
no harm to that run: only a run in which a worker has failed is torn down for a failure.
-/

namespace Conduit

open Stage

variable {σ : Type}

namespace Machine

variable {m m' : Machine σ} {incidents : List Incident} {r : Run}

/-- A run that has failed is reported, or about to be, unless the controller is at it already, and
a run is torn down for a failure only if it has failed. -/
structure Heeds (m : Machine σ) (incidents : List Incident) : Prop where
  told : ∀ r w broken, m.run = some r → r.exit? w = some (.reporting broken) →
    ∃ i ∈ incidents, i.worker = w
  pending : ∀ r, m.run = some r → m.board.state = .failed → m.control = .idle →
    m.failure = true ∨ ∃ w broken, r.exit? w = some (.reporting broken)
  failed : ∀ phase, m.control = .tearing .failure phase →
    m.board.state = .failed ∧ phase ≠ .marking false

theorem heeds_of_no_run (hr : m.run = none) (hc : ∀ phase, m.control ≠ .tearing .failure phase)
    (incidents : List Incident) : m.Heeds incidents where
  told r w broken hr' := by cases hr.symm.trans hr'
  pending r hr' := by cases hr.symm.trans hr'
  failed phase hc' := absurd hc' (hc phase)

theorem heeds_afterwards (hr : m.run = none) (reason : Reason) (incidents : List Incident) :
    (m.afterwards reason).Heeds incidents := by
  have hm := rests_afterwards hr reason
  have hnone : (m.afterwards reason).run = none := hm.run.trans hr
  refine heeds_of_no_run hnone (fun phase hc ↦ ?_) incidents
  obtain ⟨-, r, hr'⟩ := hm.fits.tearing _ _ hc
  cases hnone.symm.trans hr'

/-- In tearing a run down nothing hides a failure that is seen. -/
theorem failed_of_tears {phase phase' : Phase} (hs : m.board.state = .failed)
    (hp : phase ≠ .marking false) (ht : m.Tears r phase m' phase') :
    m'.board.state = .failed ∧ phase' ≠ .marking false := by
  cases ht with
  | look => exact ⟨hs, by simp [hs]⟩
  | mark failed =>
    cases failed with
    | true => exact ⟨hs, nofun⟩
    | false => exact absurd rfl hp
  | @joinReceiver broken => cases broken <;> exact ⟨by simp [join, hs], nofun⟩
  | @joinProcessor broken => cases broken <;> exact ⟨by simp [join, hs], nofun⟩
  | @joinSender broken => cases broken <;> exact ⟨by simp [join, hs], nofun⟩
  | _ => exact ⟨hs, nofun⟩

variable [Behaviour σ]

theorem Heeds.of_controls (h : m.Heeds incidents) (hm : m.Orderly) {move : Move}
    {deed : Option (Deed σ)} (ha : m.control.Admits move) (hd : m.Controls deed m') :
    m'.Heeds (Incident.note m move incidents) := by
  cases hd with
  | @accept request rest hc hq =>
    rw [Incident.note_of_idle (hc ▸ ha)]
    rcases take_cases { m with requests := rest } request with ⟨answer, he⟩ | ⟨q, he⟩
    · rw [he]
      exact ⟨h.told, fun r hr hs _ ↦ h.pending r hr hs hc, fun _ he ↦ by cases he⟩
    · rw [he]
      unfold tearDown
      split
      · exact ⟨h.told, fun _ _ _ he ↦ (by cases he), fun _ he ↦ by cases he⟩
      · rename_i hl
        exact heeds_afterwards (Option.not_isSome_iff_eq_none.1 hl) _ _
  | notice hc hf hl hs =>
    rw [Incident.note_of_idle (hc ▸ ha),
      show ({ m with failure := false } : Machine σ).tearDown .failure =
        { m with failure := false, control := .tearing .failure .deactivating } from if_pos hl]
    refine ⟨h.told, fun _ _ _ he ↦ (by cases he), fun phase he ↦ ⟨hs, ?_⟩⟩
    cases he
    exact nofun
  | ignore hc hf hl =>
    rw [Incident.note_of_idle (hc ▸ ha)]
    refine ⟨h.told, fun r hr hs _ ↦ ?_, h.failed⟩
    exact absurd ⟨Option.isSome_iff_exists.2 ⟨r, hr⟩, hs⟩ hl
  | giveUp text hc =>
    refine heeds_of_no_run ?_ ?_ _
    · exact hm.resting (.inl hc)
    · exact fun _ he ↦ by cases he
  | begin now hc hw hchain =>
    constructor
    case told =>
      intro r w broken hr hx
      cases hr
      cases w <;> cases hx
    case pending =>
      intro r hr hs
      cases hs
    case failed =>
      intro phase he
      cases he
  | @tear reason phase phase' r m₁ hc hr ht =>
    obtain rfl := (hc ▸ ha : (Control.tearing _ _).Admits move).of_tearing
    obtain ⟨r', hr', hx⟩ := exits_of_tears hr ht
    constructor
    case told =>
      intro r₁ w broken hr₁ hr₂
      obtain rfl : r' = r₁ := Option.some.inj (hr'.symm.trans hr₁)
      obtain ⟨i, hi, hw⟩ := h.told r w broken hr (hx w ▸ hr₂)
      exact ⟨i, List.mem_append_left _ hi, hw⟩
    case pending =>
      intro _ _ _ he
      cases he
    case failed =>
      intro phase₁ he
      cases he
      obtain ⟨hs, hp⟩ := h.failed phase hc
      obtain ⟨hs', hp'⟩ := failed_of_tears hs hp ht
      exact ⟨hs', hp'⟩
  | clear hc hr => exact heeds_afterwards rfl _ _

/-- Whatever the machine does, failures are heeded. -/
theorem Heeds.of_does (h : m.Heeds incidents) (hm : m.Orderly) {move : Move}
    {deed : Option (Deed σ)} (hd : m.DoesBy move deed m') :
    m'.Heeds (Incident.note m move incidents) := by
  rcases hd.cases with ⟨w, r, r', hw, hr, he, -, hothers, htells⟩ | ⟨r, r', hw, hc, -, hr, rfl, hx⟩ |
    ⟨-, ha, hd⟩
  · rw [Incident.note_of_worker hw hr]
    have hrun : m'.run = some r' := by rw [he]
    have hcontrol : m'.control = m.control := by rw [he]
    have hsame {r₁ : Run} (hr₁ : m'.run = some r₁) : r₁ = r' :=
      Option.some.inj (hr₁.symm.trans hrun)
    constructor
    case told =>
      intro r₁ w' broken hr₁ hx
      obtain rfl := hsame hr₁
      by_cases hw' : w' = w
      · subst hw'
        obtain ⟨text, hf⟩ := htells.exists_failing hx
        exact ⟨⟨w', text, m.control⟩, by simp [hf, Exit.text?], rfl⟩
      · obtain ⟨i, hi, hiw⟩ := h.told r w' broken hr (hothers w' hw' ▸ hx)
        exact ⟨i, List.mem_append_left _ hi, hiw⟩
    case pending =>
      intro r₁ hr₁ hs hi
      obtain rfl := hsame hr₁
      rcases htells.reported_or hs with hf | ⟨broken, hx⟩ | ⟨hs, hf, hnone⟩
      · exact .inl hf
      · exact .inr ⟨w, broken, hx⟩
      · rcases h.pending r hr hs (hcontrol ▸ hi) with hp | ⟨w', broken, hx⟩
        · exact .inl (hf.trans hp)
        · -- The reporter is another worker, which this one left alone.
          have hw' : w' ≠ w := by
            rintro rfl
            cases hnone.symm.trans hx
          exact .inr ⟨w', broken, (hothers w' hw').trans hx⟩
    case failed =>
      intro phase hc
      obtain ⟨hs, hp⟩ := h.failed phase (hcontrol ▸ hc)
      exact ⟨htells.state_eq_failed hs, hp⟩
  · rw [Incident.note_of_alarm hw hc]
    constructor
    case told =>
      intro r₁ w' broken hr₁ hr₂
      cases hr₁
      exact h.told r w' broken hr (hx w' ▸ hr₂)
    case pending =>
      intro r₁ hr₁ hs hi
      cases hr₁
      refine (h.pending r hr hs hi).imp_right ?_
      rintro ⟨w', broken, hr₂⟩
      exact ⟨w', broken, (hx w').trans hr₂⟩
    case failed => exact h.failed
  · exact h.of_controls hm ha hd

/-- A controller that waits takes up a report, and tears the run down if it has failed. -/
theorem step_notice (patience : Nat) (moment : Moment) (hi : m.control = .idle)
    (hf : m.failure = true) :
    m.step patience moment .notice = some {
      machine :=
        if m.isLive = true ∧ m.board.state = .failed then
          { m with failure := false, control := .tearing .failure .deactivating }
        else { m with failure := false }
      fresh := moment.fresh } := by
  have hcan : m.control = .idle ∧ m.failure = true := ⟨hi, hf⟩
  by_cases hfailed : m.isLive = true ∧ m.board.state = .failed
  · have hdown : ({ m with failure := false } : Machine σ).tearDown .failure =
        { m with failure := false, control := .tearing .failure .deactivating } :=
      if_pos hfailed.1
    have hnotice : m.notice = some _ := (if_pos hcan).trans (if_pos hfailed)
    rw [step, hnotice, hdown, if_pos hfailed]
    rfl
  · have hnotice : m.notice = some _ := (if_pos hcan).trans (if_neg hfailed)
    rw [step, hnotice, if_neg hfailed]
    rfl

end Machine

/-! ## Over all acts -/

namespace History

variable [Behaviour σ] (sizing : Config.Sizing) (inboundType outboundType : String) (c : Chain σ)

theorem heeds (acts : List Act) :
    let h := (Machine.ready sizing inboundType outboundType c).history
    (h.after acts).machine.Orderly ∧ (h.after acts).machine.Heeds (h.incidents acts) := by
  refine ready_noted (P := fun h g ↦ h.machine.Heeds g) sizing inboundType outboundType c acts
    ?_ ?_ ?_
  · exact Machine.heeds_of_no_run rfl (fun _ hc ↦ by cases hc) []
  · rintro h incidents requests replies hh
    exact ⟨hh.told, hh.pending, hh.failed⟩
  · rintro h incidents patience moment move m hm hh hd
    exact hh.of_does hm hd

/-- No failed run goes unnoticed. While the state is failed, the run is live and the controller
waits, the failure is reported, or a worker has shown it and is about to report it. The controller
takes a report up whenever it waits, and then tears down a run that has failed. It tears nothing
down for a failure but a run in which a worker has failed, so what is left of the report of another
run does nothing to one that is running. -/
theorem failure_pending (acts : List Act) :
    let h := (Machine.ready sizing inboundType outboundType c).history
    let m := (h.after acts).machine
    (∀ r, m.run = some r → m.board.state = .failed → m.control = .idle →
        m.failure = true ∨ ∃ w broken, r.exit? w = some (.reporting broken) ∧
          ∃ i ∈ h.incidents acts, i.worker = w) ∧
      (∀ patience moment, m.control = .idle → m.failure = true →
        ∃ out, m.step patience moment .notice = some out ∧ out.machine.failure = false ∧
          (m.isLive = true → m.board.state = .failed →
            out.machine.control = .tearing .failure .deactivating) ∧
          (m.board.state = .running → out.machine = { m with failure := false })) ∧
      ∀ phase, m.control = .tearing .failure phase →
        m.isLive = true ∧ m.board.state = .failed ∧ h.incidents acts ≠ [] := by
  intro h m
  obtain ⟨hm, hs⟩ := shows sizing inboundType outboundType c acts
  obtain ⟨-, hh⟩ := heeds sizing inboundType outboundType c acts
  refine ⟨?_, ?_, ?_⟩
  · intro r hr hf hi
    rcases hh.pending r hr hf hi with hp | ⟨w, broken, hx⟩
    · exact .inl hp
    · exact .inr ⟨w, broken, hx, hh.told r w broken hr hx⟩
  · intro patience moment hi hp
    refine ⟨_, Machine.step_notice patience moment hi hp, ?_, ?_, ?_⟩
    · dsimp only
      split <;> rfl
    · intro hl hf
      rw [if_pos ⟨hl, hf⟩]
    · intro hrun
      rw [if_neg fun hf ↦ by rw [hrun] at hf; cases hf.2]
  · intro phase hc
    obtain ⟨r, hr, -⟩ := hm.torn _ _ hc
    have hf := (hh.failed phase hc).1
    refine ⟨?_, hf, (hs.failed r hr hf).1⟩
    rw [Machine.isLive, hr]
    rfl

end History

/-- A run whose receiver has shown a failure and not reported it. -/
def Act.lostInbound : List Act :=
  [.post .start, .move 9 ⟨0, 0⟩ .accept, .move 9 ⟨0, 0⟩ (.launch (.ok ()) (.ok ())),
    .move 9 ⟨0, 0⟩ (.work .receive), .move 9 ⟨0, 0⟩ (.receive (.error (.transport "lost")))] ++
  List.replicate 2 (.move 9 ⟨0, 0⟩ (.work .receive))

/-- The receiver, and no other worker, is about to report. -/
theorem History.failure_pending_lostInbound :
    let m := ((Machine.ready {} "a" "b" Chain.through).history.after Act.lostInbound).machine
    m.board.state = .failed ∧ m.control = .idle ∧ m.failure = false ∧
      ∃ r, m.run = some r ∧ ∃ w broken, r.exit? w = some (.reporting broken) := by
  intro m
  obtain ⟨r, hr⟩ : ∃ r, m.run = some r := Option.isSome_iff_exists.1 (by decide +kernel)
  have hs : m.board.state = .failed := by decide +kernel
  have hc : m.control = .idle := by decide +kernel
  have hf : m.failure = false := by decide +kernel
  refine ⟨hs, hc, hf, r, hr, ?_⟩
  rcases (failure_pending {} "a" "b" .through Act.lostInbound).1 r hr hs hc with
    hp | ⟨w, broken, hx, -⟩
  · exact absurd (hf.symm.trans hp) (by decide)
  · exact ⟨w, broken, hx⟩

end Conduit
