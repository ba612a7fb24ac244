import Conduit.Proofs.Pipeline.Accounting
import Conduit.Proofs.Pipeline.Occurrences
import Conduit.Proofs.Pipeline.States

/-!
# The life of a pipeline

Between requests a pipeline either has a run or has none. As long as no worker breaks down the
controller has the chain and both connectors again when a run is over (`Machine.Managed`), however
the run came to its end and whatever the connectors answered, so that it can begin another one. The
sessions with the connectors and the chain begin and end in turn (`History.lifecycle`).
-/

namespace Conduit

open Stage

variable {σ : Type}

/-! ## What the controller has -/

namespace Machine

variable {m m' : Machine σ} {r : Run} {log : List Event}

/-- As long as no worker breaks down, the controller has the chain and both connectors, and their
sessions go on while a run is live. -/
structure Managed (m : Machine σ) (log : List Event) : Prop where
  whole : m.control ≠ .ended → m.isWhole = true
  intact : ∀ r w exit, m.run = some r → r.exit? w = some exit → exit.isBroken = false
  inTurn : ∀ party, InTurn (log.filterMap (·.session? party)) m.isLive

theorem isWhole_afterwards (m : Machine σ) (reason : Reason)
    (h : (m.afterwards reason).control ≠ .ended) :
    (m.afterwards reason).isWhole = m.isWhole := by
  cases reason with
  | failure => rfl
  | request q =>
    cases q with
    | start => rfl
    | terminate => exact absurd rfl h
    | stop =>
      unfold afterwards
      dsimp only
      split <;> rfl
    | restart =>
      unfold afterwards
      dsimp only
      split <;> rfl

theorem Managed.afterwards (h : m.Managed log) (hr : m.run = none) (hc : m.control ≠ .ended)
    (reason : Reason) : (m.afterwards reason).Managed log where
  whole hc' := (isWhole_afterwards m reason hc').trans (h.whole hc)
  intact r w exit hr' := by
    have hnone := (rests_afterwards hr reason).run.trans hr
    cases hnone.symm.trans hr'
  inTurn party := by
    rw [isLive, (rests_afterwards hr reason).run]
    exact h.inTurn party

theorem Managed.tearDown (h : m.Managed log) (hc : m.control ≠ .ended) (reason : Reason) :
    (m.tearDown reason).Managed log := by
  unfold Machine.tearDown
  split
  · exact ⟨fun _ ↦ h.whole hc, h.intact, h.inTurn⟩
  · rename_i hl
    exact h.afterwards (Option.not_isSome_iff_eq_none.1 hl) hc reason

theorem events_clear {reason : Reason} (hc : m.control = .tearing reason .clearing)
    (hw : m.isWhole = true) :
    m.events .tear = [.closes .inbound, .closes .outbound, .closes .chain] := by
  obtain ⟨⟨c, hchain⟩, hin, hout⟩ := isWhole_iff.1 hw
  simp [events, hc, hchain, hin, hout]

section

variable {sessions : Party → List Bool}

/-- A connector that was connected in vain is disconnected again. -/
theorem inTurn_launch_of_refused (hw : m.isWhole = true)
    {inbound outbound : Except ConnectorError Unit} (h : ¬ (inbound = .ok () ∧ outbound = .ok ()))
    (hs : ∀ party, InTurn (sessions party) false) (party : Party) :
    InTurn (sessions party ++ (m.events (.launch inbound outbound)).filterMap (·.session? party))
      false := by
  have hsame : InTurn (sessions party ++ []) false := by
    rw [List.append_nil]
    exact hs party
  cases inbound with
  | error e => simpa [events, hw, Event.session?] using hs party
  | ok =>
    cases outbound with
    | ok => exact absurd ⟨rfl, rfl⟩ h
    | error e =>
      have hevents : m.events (.launch (.ok ()) (.error e)) =
          [.opens .inbound, .refuses .outbound e, .closes .inbound] := by
        simp [events, hw]
      rw [hevents]
      cases party with
      | inbound =>
        have hclosed := (hs .inbound).opened.closed
        rwa [List.append_assoc] at hclosed
      | outbound => exact hsame
      | chain => exact hsame

theorem inTurn_launch (hw : m.isWhole = true) (hs : ∀ party, InTurn (sessions party) false)
    (party : Party) :
    InTurn (sessions party ++ (m.events (.launch (.ok ()) (.ok ()))).filterMap (·.session? party))
      true := by
  have hevents : m.events (.launch (.ok ()) (.ok ())) =
      [.opens .inbound, .opens .outbound, .opens .chain] := by
    simp [events, hw]
  rw [hevents]
  cases party <;> exact (hs _).opened

theorem inTurn_clear {reason : Reason} (hc : m.control = .tearing reason .clearing)
    (hw : m.isWhole = true) (hs : ∀ party, InTurn (sessions party) true) (party : Party) :
    InTurn (sessions party ++ (m.events .tear).filterMap (·.session? party)) false := by
  rw [events_clear hc hw]
  cases party <;> exact (hs _).closed

end

/-- To tear a run down in which no worker has broken down loses nothing. -/
theorem Managed.isWhole_of_tears (h : m.Managed log) (hr : m.run = some r) (hw : m.isWhole = true)
    {phase phase' : Phase} (ht : m.Tears r phase m' phase') : m'.isWhole = true := by
  have hjoin {w : Worker} {broken : Bool} (hg : gone? r w = some broken) :
      (m.join w broken).isWhole = true := by
    have hfalse : broken = false := h.intact r w _ hr (gone?_eq_some_iff.1 hg)
    rw [hfalse]
    exact hw
  cases ht with
  | mark failed => cases failed <;> exact hw
  | joinReceiver hg => exact hjoin hg
  | joinProcessor hg => exact hjoin hg
  | joinSender hg => exact hjoin hg
  | _ => exact hw

variable [Behaviour σ]

theorem Managed.of_controls (h : m.Managed log) (hm : m.Orderly) {patience : Nat} {moment : Moment}
    {move : Move} (ha : m.control.Admits move) (hd : m.Controls (m.deed patience moment move) m') :
    m'.Managed (log ++ m.events move) := by
  generalize hdeed : m.deed patience moment move = deed at hd
  have hquiet (hc : m.control = .idle) : log ++ m.events move = log := by
    rcases (hc ▸ ha : Control.idle.Admits move).of_idle with rfl | rfl <;> exact List.append_nil _
  cases hd with
  | @accept request rest hc hq =>
    rw [hquiet hc]
    have hgoes : m.control ≠ .ended := by simp [hc]
    have h' : ({ m with requests := rest } : Machine σ).Managed log :=
      ⟨h.whole, h.intact, h.inTurn⟩
    rcases take_cases { m with requests := rest } request with ⟨answer, he⟩ | ⟨q, he⟩
    · rw [he]
      exact ⟨fun _ ↦ h.whole hgoes, h.intact, h.inTurn⟩
    · rw [he]
      exact h'.tearDown hgoes _
  | notice hc hf hl hs =>
    rw [hquiet hc]
    have h' : ({ m with failure := false } : Machine σ).Managed log :=
      ⟨h.whole, h.intact, h.inTurn⟩
    exact h'.tearDown (by simp [hc]) _
  | ignore hc hf hl =>
    rw [hquiet hc]
    exact ⟨h.whole, h.intact, h.inTurn⟩
  | giveUp text hc =>
    obtain ⟨inbound, outbound, rfl⟩ := (hc ▸ ha : Control.starting.Admits move).of_starting
    have hw := h.whole (by simp [hc])
    have hnone := hm.resting (.inl hc)
    have hlive : m.isLive = false := by rw [isLive, hnone]; rfl
    have hrefused : ¬ (inbound = .ok () ∧ outbound = .ok ()) := by
      rintro ⟨rfl, rfl⟩
      obtain ⟨⟨c, hchain⟩, -⟩ := isWhole_iff.1 hw
      simp [deed, hw, hchain] at hdeed
    refine ⟨fun _ ↦ hw, ?_, fun party ↦ ?_⟩
    · intro r w exit hr
      cases hnone.symm.trans hr
    · change InTurn _ m.isLive
      rw [List.filterMap_append, hlive]
      exact inTurn_launch_of_refused hw hrefused (fun party ↦ hlive ▸ h.inTurn party) party
  | begin now hc hw hchain =>
    obtain ⟨inbound, outbound, rfl⟩ := (hc ▸ ha : Control.starting.Admits move).of_starting
    have hlive : m.isLive = false := by rw [isLive, hm.resting (.inl hc)]; rfl
    obtain ⟨rfl, rfl⟩ : inbound = .ok () ∧ outbound = .ok () := by
      cases inbound with
      | error e => cases hdeed
      | ok =>
        cases outbound with
        | error e => cases hdeed
        | ok => exact ⟨rfl, rfl⟩
    refine ⟨fun _ ↦ ?_, ?_, fun party ↦ ?_⟩
    · obtain ⟨-, hin, hout⟩ := isWhole_iff.1 hw
      exact isWhole_iff.2 ⟨⟨_, rfl⟩, hin, hout⟩
    · intro r w exit hr hexit
      cases hr
      cases w <;> cases hexit
    · change InTurn _ true
      rw [List.filterMap_append]
      exact inTurn_launch hw (fun party ↦ hlive ▸ h.inTurn party) party
  | tear hc hr ht =>
    obtain rfl := (hc ▸ ha : (Control.tearing _ _).Admits move).of_tearing
    obtain ⟨r', hr', hx⟩ := exits_of_tears hr ht
    have hw := h.isWhole_of_tears hr (h.whole (by simp [hc])) ht
    have hphase : ∀ reason, m.control ≠ .tearing reason .clearing := fun reason' hc' ↦ by
      cases hc.symm.trans hc'
      cases ht
    rw [events_tear hphase, List.append_nil]
    refine ⟨fun _ ↦ hw, ?_, ?_⟩
    · intro r₁ w exit hr₁ hexit
      obtain rfl : r' = r₁ := Option.some.inj (hr'.symm.trans hr₁)
      exact h.intact _ w exit hr (hx w ▸ hexit)
    · intro party
      have hlive := h.inTurn party
      rw [isLive, hr] at hlive
      change InTurn _ (_ : Option Run).isSome
      rw [hr']
      exact hlive
  | @clear reason r hc hr =>
    obtain rfl := (hc ▸ ha : (Control.tearing _ _).Admits move).of_tearing
    have hw := h.whole (by simp [hc])
    have hlive : m.isLive = true := by rw [isLive, hr]; rfl
    have hcleared : (m.clear r).Managed (log ++ m.events .tear) := by
      refine ⟨fun _ ↦ ?_, ?_, fun party ↦ ?_⟩
      · obtain ⟨⟨c, hchain⟩, hin, hout⟩ := isWhole_iff.1 hw
        exact isWhole_iff.2 ⟨⟨c.stop, congrArg (Option.map Chain.stop) hchain⟩, hin, hout⟩
      · intro r' w exit hr'
        cases hr'
      · change InTurn _ false
        rw [List.filterMap_append]
        exact inTurn_clear hc hw (fun party ↦ hlive ▸ h.inTurn party) party
    refine hcleared.afterwards rfl ?_ _
    change m.control ≠ .ended
    simp [hc]

/-- Whatever the machine does, the controller has what it needs, as long as no worker breaks
down. -/
theorem Managed.of_does (h : m.Managed log) (hm : m.Orderly) {patience : Nat} {moment : Moment}
    {move : Move} (hd : m.DoesBy move (m.deed patience moment move) m')
    (hb : m.isLive = true → Deed.broken (m.deed patience moment move) = []) :
    m'.Managed (log ++ m.events move) := by
  have hevents (hc : ∀ control : Control, ¬ control.Admits move) : log ++ m.events move = log := by
    cases move with
    | launch => exact (hc .starting trivial).elim
    | tear => exact (hc (.tearing .failure .looking) trivial).elim
    | _ => exact List.append_nil log
  rcases hd.cases with ⟨w, r, r', hw, hr, he, hchain, hothers, htells⟩ |
    ⟨r, r', hw, hc, -, hr, rfl, hx⟩ | ⟨-, ha, hd⟩
  · rw [hevents fun _ ha ↦ by cases hw.symm.trans ha.worker?_eq_none]
    have hlive : m.isLive = true := by rw [isLive, hr]; rfl
    have hwell : m.deed patience moment move ≠ some (.broke w) := by
      intro hd
      have hnil := hb hlive
      rw [hd] at hnil
      cases hnil
    rw [he]
    refine ⟨fun hc ↦ ?_, ?_, ?_⟩
    · obtain ⟨⟨c, hc⟩, hin, hout⟩ := isWhole_iff.1 (h.whole hc)
      have hsome : m'.chain.isSome = true := hchain (by rw [hc]; rfl)
      exact isWhole_iff.2 ⟨Option.isSome_iff_exists.1 hsome, hin, hout⟩
    · intro r₁ w' exit hr₁ hexit
      cases hr₁
      by_cases hw' : w' = w
      · subst hw'
        exact htells.isBroken hwell (fun exit ↦ h.intact r w' exit hr) hexit
      · exact h.intact r w' exit hr (hothers w' hw' ▸ hexit)
    · intro party
      have hturn := h.inTurn party
      rw [hlive] at hturn
      exact hturn
  · rw [hevents hc]
    have hlive : m.isLive = true := by rw [isLive, hr]; rfl
    refine ⟨h.whole, ?_, ?_⟩
    · intro r₁ w exit hr₁ hexit
      cases hr₁
      exact h.intact r w exit hr (hx w ▸ hexit)
    · intro party
      have hturn := h.inTurn party
      rw [hlive] at hturn
      exact hturn
  · exact h.of_controls hm ha hd

end Machine

/-! ## Over all acts -/

namespace Journal

/-- Where no worker has broken down, none had before, and none has just now. -/
theorem broken_of_noteAll {journals : List (Journal σ)} {deed : Option (Deed σ)}
    (h : ∀ j ∈ noteAll journals deed, j.broken = []) :
    (∀ j ∈ journals, j.broken = []) ∧ (journals ≠ [] → Deed.broken deed = []) := by
  by_cases hbegan : ∃ c, deed = some (.began c)
  · obtain ⟨c, rfl⟩ := hbegan
    exact ⟨(List.forall_mem_cons.1 h).2, fun _ ↦ rfl⟩
  · cases journals with
    | nil => exact ⟨nofun, fun hne ↦ absurd rfl hne⟩
    | cons j earlier =>
      rw [noteAll_cons (not_exists.1 hbegan), List.forall_mem_cons, broken_note,
        List.append_eq_nil_iff] at h
      obtain ⟨⟨hj, hdeed⟩, hearlier⟩ := h
      exact ⟨List.forall_mem_cons.2 ⟨hj, hearlier⟩, fun _ ↦ hdeed⟩

theorem noteAll_ne_nil {journals : List (Journal σ)} (h : journals ≠ []) (deed : Option (Deed σ)) :
    noteAll journals deed ≠ [] := by
  by_cases hbegan : ∃ c, deed = some (.began c)
  · obtain ⟨c, rfl⟩ := hbegan
    exact List.cons_ne_nil _ _
  · obtain ⟨j, earlier, rfl⟩ := List.exists_cons_of_ne_nil h
    rw [noteAll_cons (not_exists.1 hbegan)]
    exact List.cons_ne_nil _ _

end Journal

namespace History

variable [Behaviour σ]

/-- What is so after all acts, given what has become of connectors and chain. -/
structure Sound (h : History σ) (log : List Event) : Prop where
  proper : h.machine.IsProper
  opened : h.machine.isLive = true → h.journals ≠ []
  managed : (∀ j ∈ h.journals, j.broken = []) → h.machine.Managed log

variable {h : History σ} {m : Machine σ} {log : List Event}

theorem Sound.of_does (hs : h.Sound log) (hm : h.machine.Orderly) {patience : Nat}
    {moment : Moment} {move : Move}
    (hd : h.machine.DoesBy move (h.machine.deed patience moment move) m) :
    Sound ⟨m, Journal.noteAll h.journals (h.machine.deed patience moment move)⟩
      (log ++ h.machine.events move) := by
  refine ⟨hs.proper.of_does hm hd, fun hl ↦ ?_, fun hbroken ↦ ?_⟩
  · have hopened {r : Run} (hr : h.machine.run = some r) := Journal.noteAll_ne_nil
      (hs.opened (by rw [Machine.isLive, hr]; rfl)) (h.machine.deed patience moment move)
    rcases hd.cases with ⟨-, r, -, -, hr, -⟩ | ⟨r, -, -, -, -, hr, -⟩ | ⟨-, -, hd⟩
    · exact hopened hr
    · exact hopened hr
    · rcases Machine.controls_cases hd with ⟨-, hrests⟩ | ⟨c, now, hdeed, -⟩ |
        ⟨-, -, -, r, -, -, -, hr, -⟩ | ⟨-, r, -, -, hr, -⟩
      · obtain ⟨r, hr⟩ := Option.isSome_iff_exists.1 hl
        exact hopened (hrests.run ▸ hr)
      · dsimp only
        rw [hdeed]
        exact List.cons_ne_nil _ _
      · exact hopened hr
      · exact hopened hr
  · obtain ⟨hbefore, hnow⟩ := Journal.broken_of_noteAll hbroken
    exact (hs.managed hbefore).of_does hm hd fun hl ↦ hnow (hs.opened hl)

variable (sizing : Config.Sizing) (inboundType outboundType : String) (c : Chain σ)

omit [Behaviour σ] in
theorem sound_ready : Sound (Machine.ready sizing inboundType outboundType c).history [] where
  proper := rfl
  opened hl := by cases hl
  managed _ := by
    refine ⟨fun _ ↦ rfl, ?_, fun _ ↦ .none⟩
    intro r w exit hr
    cases hr

theorem sound (acts : List Act) :
    let h := (Machine.ready sizing inboundType outboundType c).history
    (h.after acts).machine.Orderly ∧ (h.after acts).Sound (h.events acts) := by
  refine ready_noted (P := Sound) sizing inboundType outboundType c acts ?_ ?_ ?_
  · exact sound_ready sizing inboundType outboundType c
  · rintro h log requests replies hs
    exact ⟨hs.proper, hs.opened, fun hbroken ↦
      ⟨(hs.managed hbroken).whole, (hs.managed hbroken).intact, (hs.managed hbroken).inTurn⟩⟩
  · rintro h log patience moment move m hm hs hd
    exact hs.of_does hm hd

end History

end Conduit
