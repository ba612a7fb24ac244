import Mathlib
import Conduit.Proofs.Chain.Balance
import Conduit.Proofs.Chain.Keeps
import Conduit.Proofs.Script.Running
import Conduit.Stage.Build

/-!
# What brings a chain down

A call crashes just if one of its visits does (`Chain.honest_processAll`), and a visit does just if
the stage breaks down on the message that it is shown. So as long as no script calls `clamp` with
bounds out of order, and no picture outgrows all buffers, every message has its outcomes and the
chain goes on with the next one (`Chain.processAll_survives`).
-/

namespace Conduit

open Stage

variable {σ : Type} [Behaviour σ]

/-! ## Crashes are told -/

/-- A walk crashes just if its last visit did. -/
theorem Chain.crashed_walkFrom_iff (moment : Moment) (hops : Nat) (c : Chain σ) (i : Nat)
    (w : Wrapper) :
    (walkFrom moment hops c i w).ending = .crashed ↔
      ∃ v ∈ (walkFrom moment hops c i w).visits, v.next = .done .crashed := by
  fun_induction walkFrom moment hops c i w with
  | case1 moment hops c i w hs => cases w.accepted <;> simp
  | case2 => simp
  | case3 moment c i w slot hs hops s ending hn => simp [hn]
  | case4 moment c i w slot hs hops s j w' hn rest ih => simpa [hn] using ih

namespace Call

variable {clock : Clock}

/-- The call has crashed just if one of its visits did. -/
def Honest (c : Call σ) : Prop := c.progress = .crashed ↔ ∃ v ∈ c.visits, v.next = .done .crashed

omit [Behaviour σ] in
theorem Honest.not_crashed {c : Call σ} (h : c.Honest) (hr : c.progress = .returned) :
    ¬ ∃ v ∈ c.visits, v.next = .done .crashed := by
  intro hv
  cases hr.symm.trans (h.2 hv)

theorem honest_send {c : Call σ} (h : c.Honest) (hr : c.progress = .returned) (i : Nat)
    (w : Wrapper) : (c.send clock i w).Honest := by
  have hwalk := Chain.crashed_walkFrom_iff (c.moment clock) c.chain.hopLimit c.chain i w
  have hprogress : (c.send clock i w).progress = .crashed ↔
      (c.walk clock i w).ending = .crashed := by
    change (if (c.walk clock i w).ending = .crashed then Progress.crashed else .returned) = _ ↔ _
    split <;> simp_all
  rw [Honest, hprogress]
  change _ ↔ ∃ v ∈ c.visits ++ (c.walk clock i w).visits, v.next = .done .crashed
  refine hwalk.trans ?_
  constructor
  · rintro ⟨v, hv, hn⟩
    exact ⟨v, List.mem_append_right _ hv, hn⟩
  · rintro ⟨v, hv, hn⟩
    rcases List.mem_append.1 hv with hv | hv
    · exact absurd ⟨v, hv, hn⟩ (h.not_crashed hr)
    · exact ⟨v, hv, hn⟩

theorem honest_drain {patience : Nat} {c : Call σ} (h : c.Honest) (hr : c.progress = .returned) :
    (drain clock patience c).Honest := by
  fun_induction drain clock patience c with
  | case1 c hg => exact iff_of_false (fun hc ↦ by cases hc) (h.not_crashed hr)
  | case2 => exact h
  | case3 => exact h
  | case4 patience c i rest hp ih => exact ih h hr
  | case5 patience c i m more rest hp popped sent hs ih =>
    exact ih (honest_send (c := popped) h hr i _) hs
  | case6 patience c i m more rest hp popped sent hs => exact honest_send (c := popped) h hr i _

omit [Behaviour σ] in
theorem Honest.andThen {c : Call σ} {f : Call σ → Call σ} (h : c.Honest)
    (hf : c.progress = .returned → (f c).Honest) : (c.andThen f).Honest := by
  unfold Call.andThen
  split
  · rename_i hr
    exact hf hr
  · exact h

end Call

namespace Chain

open Call

theorem honest_process (patience : Nat) (moment : Moment) (c : Chain σ) (m : Message) :
    (c.process patience moment m).Honest := by
  have hopen : Honest ({ chain := c, fresh := moment.fresh } : Call σ) :=
    iff_of_false nofun (by simp)
  refine (honest_drain hopen rfl).andThen fun hr ↦ ?_
  exact (honest_send (honest_drain hopen rfl) hr 0 _).andThen
    (honest_drain (honest_send (honest_drain hopen rfl) hr 0 _))

theorem honest_processAll (patience : Nat) (moment : Moment) (c : Chain σ) (ms : List Message) :
    (c.processAll patience moment ms).Honest := by
  induction ms generalizing moment c with
  | nil => exact iff_of_false nofun (by simp [processAll])
  | cons m ms ih =>
    have hfirst := honest_process patience moment c m
    refine hfirst.andThen fun hr ↦ ?_
    refine (ih _ _).trans ?_
    constructor
    · rintro ⟨v, hv, hn⟩
      exact ⟨v, List.mem_append_right _ hv, hn⟩
    · rintro ⟨v, hv, hn⟩
      rcases List.mem_append.1 hv with hv | hv
      · exact absurd ⟨v, hv, hn⟩ (hfirst.not_crashed hr)
      · exact ⟨v, hv, hn⟩

/-! ## The balance of several messages -/

theorem balance_processAll {patience : Nat} {moment : Moment} {c : Chain σ} {ms : List Message}
    (hp : c.pending = []) (h : (c.processAll patience moment ms).progress = .returned) :
    (c.processAll patience moment ms).balance = ms.length ∧
      (c.processAll patience moment ms).chain.pending = [] := by
  induction ms generalizing moment c with
  | nil =>
    refine ⟨?_, hp⟩
    simp [processAll, balance, pendingPieces, surplus, families, hp, Output.outcomes]
  | cons m ms ih =>
    have hfirst := returned_of_andThen h
    obtain ⟨hone, hnone⟩ := balance_process hp hfirst
    rw [processAll, andThen_of_returned _ hfirst] at h ⊢
    obtain ⟨hrest, hdone⟩ := ih hnone h
    refine ⟨?_, hdone⟩
    have hpieces : (c.process patience moment m).pendingPieces = 0 := by
      rw [pendingPieces, hnone]
      rfl
    simp only [balance, hpieces, surplus, families] at hone hrest
    simp only [balance, pendingPieces, surplus, families, Output.outcomes_append,
      List.filterMap_append, List.map_append, List.sum_append, List.length_cons]
    simp only [pendingPieces] at hrest
    omega

/-! ## The stages that broke down -/

theorem follow_eq_crashed_iff {slot : Slot σ} {r : Route} {i : Nat} {o : Outcome} :
    (follow slot r i o).1 = .done .crashed ↔ o = .crashed := by
  constructor
  · intro h
    cases o with
    | done w => cases Route.eq_dropped_of_branch_done h
    | crashed => rfl
    | _ => cases h
  · rintro rfl
    rfl

/-- A visit crashes just if the message has the view that the stage expects, and breaks it down. -/
theorem crashed_visit_iff (moment : Moment) (c : Chain Builtin) (i : Nat) (slot : Slot Builtin)
    (w : Wrapper) :
    ∃ setting, (visit moment c i slot w).visit.next = .done .crashed ↔
      meets slot.routing.expect (visit moment c i slot w).visit.entered.working = .ok () ∧
        slot.stage.BreaksOn setting (visit moment c i slot w).visit.entered := by
  obtain ⟨setting, hcrash⟩ := Builtin.crashed_iff moment slot.stage
  refine ⟨setting, ?_⟩
  unfold visit
  dsimp only
  cases hm : meets slot.routing.expect (w.mergeMetadata slot.routing.metadata).working with
  | error e =>
    refine iff_of_false nofun ?_
    rintro ⟨hok, -⟩
    cases hm.symm.trans hok
  | ok u =>
    rw [← hcrash]
    exact follow_eq_crashed_iff.trans (and_iff_right hm).symm

/-- Of each stage its routing and what it breaks down on, neither of which is a matter of state. -/
def risks (c : Chain Builtin) : List (Routing × (Script.Library.Setting → Wrapper → Prop)) :=
  c.slots.map fun slot ↦ (slot.routing, slot.stage.BreaksOn)

/-- All but the states of the stages and the pending families is the same. -/
structure SameRisks (c d : Chain Builtin) : Prop where
  plan : d.plan = c.plan
  maxHops : d.maxHops = c.maxHops
  risks : d.risks = c.risks

theorem SameRisks.alike {c d : Chain Builtin} (h : c.SameRisks d) (hp : d.pending = c.pending) :
    c.Alike d where
  plan := h.plan
  maxHops := h.maxHops
  pending := hp
  routings := by
    have hfst := congrArg (List.map Prod.fst) h.risks
    rw [Chain.risks, Chain.risks, List.map_map, List.map_map] at hfst
    exact hfst

theorem SameRisks.visit {c d : Chain Builtin} (h : c.SameRisks d) (moment : Moment) (i : Nat)
    (slot : Slot Builtin) (w : Wrapper) (hs : d.slots[i]? = some slot) :
    c.SameRisks (visit moment d i slot w).chain := by
  have halike := visit_alike moment d i slot w
  refine ⟨halike.plan.trans h.plan, halike.maxHops.trans h.maxHops, Eq.trans ?_ h.risks⟩
  rcases chain_visit moment d i slot w with hv | hv <;> rw [hv]
  refine map_slots_setStage _ d i _ fun slot' hs' ↦ ?_
  obtain rfl : slot = slot' := Option.some.inj (hs.symm.trans hs')
  rw [Builtin.breaksOn_process]

/-- All visits that are made crash just if their stage breaks down. -/
theorem keeps_risks (c : Chain Builtin) :
    Keeps (fun d ↦ c.SameRisks d) fun v ↦ ∃ slot setting, c.slots[v.stage]? = some slot ∧
      (v.next = .done .crashed ↔ meets slot.routing.expect v.entered.working = .ok () ∧
        slot.stage.BreaksOn setting v.entered) where
  withPending d families h := ⟨h.plan, h.maxHops, h.risks⟩
  visit moment d i slot w hs h := by
    refine ⟨h.visit moment i slot w hs, ?_⟩
    obtain ⟨setting, hcrash⟩ := crashed_visit_iff moment d i slot w
    have hrisk : (c.slots[i]?).map (fun slot ↦ (slot.routing, slot.stage.BreaksOn)) =
        some (slot.routing, slot.stage.BreaksOn) := by
      rw [← List.getElem?_map, ← Chain.risks, ← h.risks, Chain.risks, List.getElem?_map, hs]
      rfl
    obtain ⟨slot', hs', heq⟩ := Option.map_eq_some_iff.1 hrisk
    obtain ⟨hrouting, hbreaks⟩ := Prod.mk.inj heq
    refine ⟨slot', setting, ?_, ?_⟩
    · rw [stage_visit]
      exact hs'
    · rw [hrouting, hbreaks]
      exact hcrash

/-! ## Messages one after the other -/

/-- A bad message does not bring a chain down, but for the breakdowns. A call crashes just if the
stage of one of its visits broke down, and that is so just if the script of that stage called
`clamp` with bounds out of order, or its picture became too large. A call that has returned has one
outcome for each message, more or less for the pieces that were made on the way, and leaves the same
chain for the next message, with nothing pending. -/
theorem processAll_survives (c : Chain Builtin) (hp : c.pending = []) (patience : Nat)
    (moment : Moment) (ms : List Message) :
    ((c.processAll patience moment ms).progress = .crashed ↔
      ∃ v ∈ (c.processAll patience moment ms).visits, v.next = .done .crashed) ∧
    (∀ v ∈ (c.processAll patience moment ms).visits, ∃ slot setting,
      c.slots[v.stage]? = some slot ∧
        (v.next = .done .crashed ↔ meets slot.routing.expect v.entered.working = .ok () ∧
          slot.stage.BreaksOn setting v.entered)) ∧
    (∀ setting name args b, Script.Library.call setting name args = .error b ↔
      name = "clamp" ∧ args = [.float b.value, .float b.low, .float b.high]) ∧
    ((c.processAll patience moment ms).progress = .returned →
      ((c.processAll patience moment ms).output.outcomes : Int) = ms.length +
          ((c.processAll patience moment ms).families.map
            fun g ↦ (g.pieces.length : Int) - 1).sum ∧
        c.Alike (c.processAll patience moment ms).chain) := by
  have hkept := (keeps_risks c).processAll patience moment ms ⟨rfl, rfl, rfl⟩
  refine ⟨honest_processAll patience moment c ms, hkept.2, fun _ _ _ _ ↦
    Script.Library.call_eq_error_iff, fun hr ↦ ?_⟩
  obtain ⟨hbalance, hdone⟩ := balance_processAll hp hr
  refine ⟨?_, hkept.1.alike (hdone.trans hp.symm)⟩
  rw [outcomes_of_balance hdone, hbalance]
  rfl

/-- A chain that runs a script which accepts, and cuts payloads in single bytes. -/
def acceptAndCut : Chain Builtin where
  id := "cuts"
  slots := [⟨{}, .script { script := ⟨"stage", "true", ⟨[.expr (.literal (.bool true))], []⟩⟩ }⟩,
    ⟨{}, .splitter { size := 1 }⟩]
  plan := { routes := [{}, {}] }

/-- Two bytes are delivered as two pieces, and an empty payload as none. -/
theorem processAll_survives_acceptAndCut :
    acceptAndCut.pending = [] ∧
      (acceptAndCut.processAll 9 ⟨0, 0⟩ [.ofRaw "t" [1, 2], .ofRaw "t" []]).progress = .returned ∧
      (acceptAndCut.processAll 9 ⟨0, 0⟩ [.ofRaw "t" [1, 2], .ofRaw "t" []]).output.outcomes = 2 := by
  have hret : (acceptAndCut.processAll 9 ⟨0, 0⟩ [.ofRaw "t" [1, 2], .ofRaw "t" []]).progress =
      .returned := by cbv
  have hfamilies : (acceptAndCut.processAll 9 ⟨0, 0⟩
      [.ofRaw "t" [1, 2], .ofRaw "t" []]).families.map (fun g ↦ (g.pieces.length : Int) - 1) =
        [1, -1] := by cbv
  obtain ⟨-, -, -, hsum⟩ := processAll_survives acceptAndCut rfl 9 ⟨0, 0⟩
    [.ofRaw "t" [1, 2], .ofRaw "t" []]
  obtain ⟨houtcomes, -⟩ := hsum hret
  rw [hfamilies] at houtcomes
  exact ⟨rfl, hret, Int.ofNat_inj.1 houtcomes⟩

/-! ## A script that brings its chain down -/

open Script in
/-- A chain whose only stage calls `clamp`. -/
def clampChain (b : Breakdown) (source : String) : Chain Builtin where
  id := "clamp"
  slots := [⟨{}, .script { script := ⟨"stage", source, clamping b.value b.low b.high⟩ }⟩]
  plan := { routes := [{}] }

/-- With bounds out of order, every message crashes it and comes to no end. -/
theorem processAll_clampChain (b : Script.Breakdown) (source : String) (patience : Nat)
    (moment : Moment) (m : Message) (ms : List Message) :
    ((clampChain b source).processAll patience moment (m :: ms)).progress = .crashed ∧
      ((clampChain b source).processAll patience moment (m :: ms)).output = {} := by
  have hslot : ((clampChain b source).withPending []).slots[0]? = some _ := rfl
  obtain ⟨setting, hcrash⟩ := crashed_visit_iff (moment.next 0)
    ((clampChain b source).withPending []) 0 _ (.ofMessage m)
  have hwalk : ((opening moment (clampChain b source)).walk moment.clock 0 (.ofMessage m)).ending =
      .crashed := (walk_done _ _ hslot (hcrash.2 ⟨rfl, b, Script.run_clamping b _ _⟩)).1
  have hsend :
      ((opening moment (clampChain b source)).send moment.clock 0 (.ofMessage m)).progress =
      .crashed := if_pos hwalk
  have hprocess : (clampChain b source).process patience moment m =
      (opening moment (clampChain b source)).send moment.clock 0 (.ofMessage m) := by
    rw [process_of_pending_nil rfl, andThen_of_crashed _ hsend]
  rw [processAll, hprocess, andThen_of_crashed _ hsend]
  refine ⟨hsend, ?_⟩
  change {} ++ outputOf ((opening moment (clampChain b source)).walk moment.clock 0
    (.ofMessage m)).ending = ({} : Output)
  rw [hwalk]
  rfl

/-- A stage whose script gives `clamp` its bounds in the wrong order. -/
def overclampEntry : Config.StageEntry where
  type := "script"
  params := [("script", .string "clamp(1.0,5.0,2.0)")]

/-- The numbers of that script. -/
def overclamp : Script.Breakdown where
  value := ⟨4607182418800017408⟩
  low := ⟨4617315517961601024⟩
  high := ⟨4611686018427387904⟩
  outOfOrder := by decide

/-- The script compiles and the chain is built without complaint. Its first message crashes it, and
neither that message nor the one behind it comes to any end. -/
theorem overclamp_crashes :
    buildAll [overclampEntry] = .ok (clampChain overclamp "clamp(1.0,5.0,2.0)").slots ∧
      ofSlots "clamp" (clampChain overclamp "clamp(1.0,5.0,2.0)").slots =
        .ok (clampChain overclamp "clamp(1.0,5.0,2.0)") ∧
      ((clampChain overclamp "clamp(1.0,5.0,2.0)").processAll 9 ⟨0, 0⟩
        [.ofRaw "t" [1], .ofRaw "t" [2]]).progress = .crashed ∧
      ((clampChain overclamp "clamp(1.0,5.0,2.0)").processAll 9 ⟨0, 0⟩
        [.ofRaw "t" [1], .ofRaw "t" [2]]).output.outcomes = 0 := by
  obtain ⟨hcrash, hout⟩ := processAll_clampChain overclamp "clamp(1.0,5.0,2.0)" 9 ⟨0, 0⟩
    (.ofRaw "t" [1]) [.ofRaw "t" [2]]
  refine ⟨by cbv, rfl, hcrash, ?_⟩
  rw [hout]
  rfl

end Chain

end Conduit
