import Conduit.Proofs.Chain.Frame
import Conduit.Proofs.Chain.Labels
import Conduit.Stage.Kind

/-!
# Walks by name

The same walk told without places: at every visit the configured target is looked up by its name
among the labels of the stages (`ByName.walk`). A walk along compiled routes is that walk, visit by
visit (`walkFrom_eq_byName`), since a compiled route holds what the lookups find (`route_eq`) and a
visit changes no label. It never leaves the places of the chain and its end (`walkFrom_inRange`).
-/

namespace Conduit

open Stage

variable {σ : Type}

/-! ## Names -/

namespace ByName

/-- The place of a name: the end for the reserved name, the stage that is called so, or the end if
there is none. -/
def destination (rs : List Routing) (target : String) : Nat :=
  if target = "out" then rs.length
  else (rs.findIdx? (·.name = some target)).getD rs.length

/-- The place of a configured target; one that is absent or empty is not set. -/
def goesTo (rs : List Routing) : Option String → Option Nat
  | none => none
  | some target => if target = "" then none else some (destination rs target)

/-- Where an accepted message goes. -/
def onward (rs : List Routing) (r : Routing) (i : Nat) : Nat :=
  match goesTo rs r.gotoPassed, goesTo rs r.goto with
  | some j, _ => j
  | none, some j => j
  | none, none => i + 1

/-- Where pieces go. -/
def continuation (rs : List Routing) (r : Routing) (i : Nat) : Nat :=
  match goesTo rs r.goto with
  | some j => j
  | none => i + 1

/-- Where a message goes after the decision about it. -/
def branch (rs : List Routing) (r : Routing) (i : Nat) (w : Wrapper) : Next :=
  if w.accepted then .go (onward rs r i) w
  else match goesTo rs r.gotoRejected with
    | some j => .go j { w with accepted := true }
    | none => .done .dropped

variable [Behaviour σ]

/-- What a stage's outcome leads to, and the copies it publishes. -/
def settle (rs : List Routing) (slot : Slot σ) (i : Nat) : Outcome → Next × List Publication
  | .done w =>
    let w := if slot.routing.negate then { w with accepted := !w.accepted } else w
    let (copies, w) := publications w slot.routing.redirect
    (branch rs slot.routing i w, copies)
  | .generate w pieces =>
    (.done (.generated ⟨continuation rs slot.routing i, pieces⟩),
      (publications w slot.routing.redirect).1)
  | .hold w => (.done .held, (publications w slot.routing.redirect).1)
  | .failed e => (Chain.stageError slot e, [])
  | .crashed => (.done .crashed, [])

/-- Shows a message to the stage in a slot. -/
def visit (moment : Moment) (c : Chain σ) (i : Nat) (slot : Slot σ) (w : Wrapper) : Step σ :=
  let w := w.mergeMetadata slot.routing.metadata
  match Chain.meets slot.routing.expect w.working with
  | .error e =>
    { chain := c, visit := { stage := i, entered := w, next := Chain.stageError slot e } }
  | .ok () =>
    let r := Behaviour.process moment slot.stage w
    let (next, published) := settle (c.slots.map (·.routing)) slot i r.outcome
    { chain := c.setStage i r.state, visit := ⟨i, w, next, published, r.timers⟩, named := r.named }

/-- Walks on from a place with a number of visits left. -/
def walk (moment : Moment) : (hops : Nat) → Chain σ → Nat → Wrapper → Chain.Walk σ
  | hops, c, i, w =>
    match c.slots[i]? with
    | none => { ending := if w.accepted then .delivered w else .dropped, chain := c }
    | some slot =>
      match hops with
      | 0 => { ending := .failed (.hopLimit c.hopLimit), chain := c }
      | hops + 1 =>
        let s := visit moment c i slot w
        match s.visit.next with
        | .done ending => { ending, chain := s.chain, visits := [s.visit], named := s.named }
        | .go j w =>
          let rest := walk (moment.next s.named) hops s.chain j w
          { rest with visits := s.visit :: rest.visits, named := s.named + rest.named }

/-! ## Names and routes -/

/-- The route that the configured targets of a stage make. -/
def route (rs : List Routing) (r : Routing) : Route where
  next := goesTo rs r.goto
  passed := goesTo rs r.gotoPassed
  rejected := goesTo rs r.gotoRejected

theorem onward_eq (rs : List Routing) (r : Routing) (i : Nat) :
    onward rs r i = (route rs r).onward i := by
  unfold onward Route.onward route
  cases goesTo rs r.gotoPassed <;> cases goesTo rs r.goto <;> rfl

theorem continuation_eq (rs : List Routing) (r : Routing) (i : Nat) :
    continuation rs r i = (route rs r).continuation i := by
  unfold continuation Route.continuation route
  cases goesTo rs r.goto <;> rfl

theorem branch_eq (rs : List Routing) (r : Routing) (i : Nat) (w : Wrapper) :
    branch rs r i w = (route rs r).branch i w := by
  rw [branch, onward_eq]
  rfl

theorem settle_eq (rs : List Routing) (slot : Slot σ) (i : Nat) (o : Outcome) :
    settle rs slot i o = Chain.follow slot (route rs slot.routing) i o := by
  cases o with
  | done w => simp only [settle, Chain.follow, branch_eq]
  | generate w pieces => simp only [settle, Chain.follow, continuation_eq]
  | _ => rfl

/-- A visit by name is a visit along the route that the names make. -/
theorem visit_eq {moment : Moment} {c : Chain σ} {i : Nat} {slot : Slot σ}
    (h : c.route i = route (c.slots.map (·.routing)) slot.routing) (w : Wrapper) :
    visit moment c i slot w = Chain.visit moment c i slot w := by
  unfold visit Chain.visit
  dsimp only
  cases Chain.meets slot.routing.expect (w.mergeMetadata slot.routing.metadata).working with
  | error e => rfl
  | ok _ =>
    dsimp only
    rw [settle_eq, ← h]

omit [Behaviour σ] in
theorem label_eq_iff {target : String} (ht : target ≠ "") (r : Routing) :
    r.label = some target ↔ r.name = some target := by
  simp only [Routing.label, Routing.nonEmpty, Option.filter_eq_some_iff, decide_eq_true_eq]
  exact ⟨fun h ↦ h.1, fun h ↦ ⟨h, ht⟩⟩

omit [Behaviour σ] in
/-- A place that was compiled for a target is what the lookup finds. -/
theorem place_eq {rs : List Routing} {places : List (String × Nat)}
    (h : RoutePlan.labels 0 [] rs = .ok places) {target : String} (ht : target ≠ "") :
    RoutePlan.place places rs.length target = destination rs target := by
  simp only [RoutePlan.place, destination, RoutePlan.lookup_labels h, label_eq_iff ht]
  simp [outTarget]

omit [Behaviour σ] in
theorem goesTo_eq {rs : List Routing} {places : List (String × Nat)}
    (h : RoutePlan.labels 0 [] rs = .ok places) (target : Option String) :
    (Routing.nonEmpty target).map (RoutePlan.place places rs.length) = goesTo rs target := by
  cases target with
  | none => rfl
  | some target =>
    by_cases ht : target = ""
    · simp [Routing.nonEmpty, goesTo, ht]
    · simp [Routing.nonEmpty, goesTo, ht, place_eq h ht]

omit [Behaviour σ] in
theorem destination_le (rs : List Routing) (target : String) :
    destination rs target ≤ rs.length := by
  unfold destination
  split
  · exact Nat.le_refl _
  · cases h : rs.findIdx? (·.name = some target) with
    | none => exact Nat.le_refl _
    | some j => exact Nat.le_of_lt (List.findIdx?_eq_some_iff_getElem.1 h).1

omit [Behaviour σ] in
theorem le_of_goesTo {rs : List Routing} {target : Option String} {j : Nat}
    (h : goesTo rs target = some j) : j ≤ rs.length := by
  cases target with
  | none => cases h
  | some target =>
    simp only [goesTo] at h
    split at h
    · cases h
    · cases h
      exact destination_le rs target

end ByName

/-! ## Compiled chains -/

namespace Chain

/-- The places of a route are places of a chain or its end. -/
structure InRange (n : Nat) (r : Route) : Prop where
  next : ∀ j, r.next = some j → j ≤ n
  passed : ∀ j, r.passed = some j → j ≤ n
  rejected : ∀ j, r.rejected = some j → j ≤ n

namespace InRange

variable {n i : Nat} {r : Route}

theorem continuation (h : InRange n r) (hi : i < n) : r.continuation i ≤ n := by
  unfold Route.continuation
  cases hr : r.next with
  | none => exact hi
  | some j => exact h.next j hr

theorem onward (h : InRange n r) (hi : i < n) : r.onward i ≤ n := by
  unfold Route.onward
  cases hr : r.passed with
  | none => exact h.continuation hi
  | some j => exact h.passed j hr

end InRange

/-- The place that a visit leads to, if any, is a place of the chain or its end. -/
def Within (n : Nat) : Next → Prop
  | .go j _ => j ≤ n
  | .done (.generated g) => g.continuation ≤ n
  | .done _ => True

/-- The routes are those that the configured targets compile to. -/
def Compiled (c : Chain σ) : Prop := RoutePlan.compile (c.slots.map (·.routing)) = .ok c.plan

variable {c d : Chain σ}

theorem Alike.compiled (h : c.Alike d) (hc : c.Compiled) : d.Compiled := by
  rw [Compiled, h.routings, h.plan]
  exact hc

namespace Compiled

/-- A compiled route holds what the lookups of the targets find. -/
theorem routes_eq (hc : c.Compiled) :
    c.plan.routes =
      (c.slots.map (·.routing)).map (ByName.route (c.slots.map (·.routing))) := by
  rw [Compiled, RoutePlan.compile] at hc
  cases hx : RoutePlan.labels 0 [] (c.slots.map (·.routing)) with
  | error e =>
    rw [hx] at hc
    cases hc
  | ok places =>
    rw [hx] at hc
    rw [← Except.ok.inj hc]
    refine List.map_congr_left fun r _ ↦ ?_
    simp only [RoutePlan.route, ByName.route, Routing.next, Routing.passed, Routing.rejected,
      ByName.goesTo_eq hx]

theorem length_routes (hc : c.Compiled) : c.plan.routes.length = c.size := by
  rw [hc.routes_eq, List.length_map, List.length_map]
  rfl

theorem route_eq (hc : c.Compiled) {i : Nat} {slot : Slot σ} (hs : c.slots[i]? = some slot) :
    c.route i = ByName.route (c.slots.map (·.routing)) slot.routing := by
  rw [Chain.route, hc.routes_eq, List.getElem?_map, List.getElem?_map, hs]
  rfl

theorem inRange (hc : c.Compiled) : ∀ r ∈ c.plan.routes, InRange c.size r := by
  intro r hr
  rw [hc.routes_eq] at hr
  obtain ⟨routing, -, rfl⟩ := List.mem_map.1 hr
  have hle : ∀ target j, ByName.goesTo (c.slots.map (·.routing)) target = some j → j ≤ c.size := by
    intro target j h
    have := ByName.le_of_goesTo h
    rwa [List.length_map] at this
  exact ⟨hle _, hle _, hle _⟩

theorem inRange_route (hc : c.Compiled) {i : Nat} (hi : i < c.size) :
    InRange c.size (c.route i) := by
  have hlt : i < c.plan.routes.length := by rwa [hc.length_routes]
  rw [Chain.route, List.getElem?_eq_getElem hlt]
  exact hc.inRange _ (List.getElem_mem hlt)

end Compiled

theorem lt_size {i : Nat} {slot : Slot σ} (hs : c.slots[i]? = some slot) : i < c.size :=
  (List.getElem?_eq_some_iff.1 hs).1

variable [Behaviour σ]

/-! ## Walks -/

theorem within_branch {n i : Nat} {r : Route} (h : InRange n r) (hi : i < n) (w : Wrapper) :
    Within n (r.branch i w) := by
  unfold Route.branch
  split
  · exact h.onward hi
  · split
    · rename_i target hr
      exact h.rejected target hr
    · trivial

theorem within_follow {n i : Nat} {r : Route} (h : InRange n r) (hi : i < n) (slot : Slot σ)
    (o : Outcome) : Within n (follow slot r i o).1 := by
  cases o with
  | done w => exact within_branch h hi _
  | generate w pieces => exact h.continuation hi
  | hold w => trivial
  | failed e => trivial
  | crashed => trivial

theorem within_visit (hc : c.Compiled) (moment : Moment) {i : Nat} {slot : Slot σ} (w : Wrapper)
    (hs : c.slots[i]? = some slot) : Within c.size (visit moment c i slot w).visit.next := by
  have hi := lt_size hs
  rcases next_visit moment c i slot w with ⟨e, he⟩ | hf
  · rw [he]
    trivial
  · rw [hf]
    exact within_follow (hc.inRange_route hi) hi slot _

/-- A walk visits places of the chain only, and goes nowhere else but to the end. -/
theorem walkFrom_inRange (hc : c.Compiled) (moment : Moment) (hops i : Nat) (w : Wrapper) :
    ∀ v ∈ (walkFrom moment hops c i w).visits, v.stage < c.size ∧ Within c.size v.next := by
  fun_induction walkFrom moment hops c i w with
  | case1 => exact fun v hv ↦ by cases hv
  | case2 => exact fun v hv ↦ by cases hv
  | case3 moment c i w slot hs hops s ending hn =>
    intro v hv
    obtain rfl := List.mem_singleton.1 hv
    rw [stage_visit]
    exact ⟨lt_size hs, within_visit hc moment w hs⟩
  | case4 moment c i w slot hs hops s j w' hn rest ih =>
    have halike : c.Alike s.chain := visit_alike moment c i slot w
    intro v hv
    rcases List.mem_cons.1 hv with rfl | hv
    · rw [stage_visit]
      exact ⟨lt_size hs, within_visit hc moment w hs⟩
    · rw [← halike.size]
      exact ih (halike.compiled hc) v hv

/-- A walk along compiled routes is the walk by name. -/
theorem walkFrom_eq_byName (hc : c.Compiled) (moment : Moment) (hops i : Nat) (w : Wrapper) :
    walkFrom moment hops c i w = ByName.walk moment hops c i w := by
  fun_induction walkFrom moment hops c i w with
  | case1 moment hops c i w hs => rw [ByName.walk, hs]
  | case2 moment c i w slot hs => rw [ByName.walk, hs]
  | case3 moment c i w slot hs hops s ending hn =>
    rw [ByName.walk, hs]
    dsimp only
    rw [ByName.visit_eq (hc.route_eq hs), hn]
  | case4 moment c i w slot hs hops s j w' hn rest ih =>
    have halike : c.Alike s.chain := visit_alike moment c i slot w
    rw [ByName.walk, hs]
    dsimp only
    rw [ByName.visit_eq (hc.route_eq hs), hn]
    dsimp only
    rw [← ih (halike.compiled hc)]

variable (σ) in
/-- Exactly the chains are accepted in which no label is used twice and none names the end, and the
error for another chain names the first stage with a label that cannot stand. In a chain that is
accepted all routes stay within it, and for stages of any behaviour a walk makes the same visits
and ends the same as the walk that looks every target up by its name. -/
theorem compile_refines_names :
    (∀ rs, (∃ plan, RoutePlan.compile rs = .ok plan) ↔
      (RoutePlan.labelsOf rs).Nodup ∧ outTarget ∉ RoutePlan.labelsOf rs) ∧
    (∀ rs e, RoutePlan.compile rs = .error e →
      ∃ before r rest label, rs = before ++ r :: rest ∧ r.label = some label ∧
        (RoutePlan.labelsOf before).Nodup ∧ outTarget ∉ RoutePlan.labelsOf before ∧
        (label = outTarget ∧ e = RoutePlan.reserved before.length ∨
          label ≠ outTarget ∧ label ∈ RoutePlan.labelsOf before ∧
            e = RoutePlan.duplicate before.length label)) ∧
    ∀ c : Chain σ, c.Compiled →
      c.plan.routes.length = c.size ∧ (∀ r ∈ c.plan.routes, InRange c.size r) ∧
        ∀ moment hops i w,
          walkFrom moment hops c i w = ByName.walk moment hops c i w ∧
            ∀ v ∈ (walkFrom moment hops c i w).visits, v.stage < c.size ∧ Within c.size v.next :=
  ⟨RoutePlan.compile_isOk_iff, fun _ _ ↦ RoutePlan.exists_offender_of_compile, fun _ hc ↦
    ⟨hc.length_routes, hc.inRange, fun moment hops i w ↦
      ⟨walkFrom_eq_byName hc moment hops i w, walkFrom_inRange hc moment hops i w⟩⟩⟩

/-- A chain with targets of every kind: a label further on, a name that no stage has, the end, and
an empty one. -/
def detour : Chain Builtin where
  id := "detour"
  slots := [⟨{ gotoPassed := some "last", gotoRejected := some "nowhere" }, .limiter { size := 4 }⟩,
    ⟨{ goto := some "out" }, .pass {}⟩, ⟨{ name := some "last", goto := some "" }, .pass {}⟩]
  plan := {
    routes := [{ passed := some 2, rejected := some 3 }, { next := some 3 }, {}]
    unresolved := ["nowhere"] }

theorem detour_walks_by_name :
    detour.Compiled ∧ ∀ moment hops i w,
      walkFrom moment hops detour i w = ByName.walk moment hops detour i w :=
  ⟨rfl, fun moment hops i w ↦
    (((compile_refines_names Builtin).2.2 detour rfl).2.2 moment hops i w).1⟩

end Chain

end Conduit
