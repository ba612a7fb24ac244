import Conduit.Connector.Exchange
import Conduit.Proofs.Queue.Subscribers
import Mathlib.Data.List.Count

/-!
# Sessions of queue connectors neither leak nor mix

All that an act of an exchange can do is said once (`Exchange.does_of_act`). The buffers of a queue
are those of the open sessions on it and those of direct subscriptions, each once; and an open
session accounts for what was published since it was opened: it was received, it is still in the
buffer, or it met the full buffer (`Exchange.Books`). Every act keeps that, so it holds of whatever
happens to an exchange (`Exchange.sessions_of_acts`).
-/

namespace Conduit.Exchange

variable {x x' : Exchange} {log : List Event} {event : Option Event}

/-! ## All that an act can do -/

/-- A queue connector; one that sends has no session. -/
inductive IsEndpoint : Connector → Prop
  | inbound (name : String) (capacity : Nat) (session : Option Nat) :
    IsEndpoint (.queue .inbound name capacity session)
  | outbound (name : String) (capacity : Nat) : IsEndpoint (.queue .outbound name capacity none)

def setConnector (x : Exchange) (k : Nat) (c : Connector) : Exchange :=
  { x with connectors := x.connectors.set k c }

inductive Does (x : Exchange) : Option Event → Exchange → Prop
  | made (direction : Direction) (name : String) (capacity : Nat) :
    Does x none { x.setDirectory (x.directory.create name) with
      connectors := x.connectors ++ [.queue direction name capacity none] }
  | rested : Does x none x
  | opened {k : Nat} {name : String} {capacity : Nat} :
    x.connectors[k]? = some (.queue .inbound name capacity none) →
    Does x (some (.opened k name (x.directory.queue name).length))
      ((x.setDirectory (x.directory.subscribe name capacity).2).setConnector k
        (.queue .inbound name capacity (some (x.directory.queue name).length)))
  | closed {k : Nat} {name : String} {capacity id : Nat} :
    x.connectors[k]? = some (.queue .inbound name capacity (some id)) →
    Does x (some (.closed k))
      ((x.setDirectory (x.directory.unsubscribe name id)).setConnector k
        (.queue .inbound name capacity none))
  | shut {name : String} {id : Nat} {q : Queue Wrapper} : x.directory.buffer? name id = some q →
    Does x none (x.setDirectory (x.directory.setBuffer name id q.close))
  | received {k : Nat} {name : String} {id : Nat} {w : Wrapper} {directory : Directory} :
    x.session? k = some (name, id) → x.directory.pop name id = (some w, directory) →
    Does x (some (.received k w.working)) (x.setDirectory directory)
  | published (name : String) (w : Wrapper) :
    Does x (some (.published name w (x.directory.queue name).full))
      (x.setDirectory (x.directory.publish name w).2)
  | joined (name : String) (capacity : Nat) :
    Does x none { x.setDirectory (x.directory.subscribe name capacity).2 with
      direct := (name, (x.directory.queue name).length) :: x.direct }
  | left {name : String} {id : Nat} : (name, id) ∈ x.direct →
    Does x none { x.setDirectory (x.directory.unsubscribe name id) with
      direct := x.direct.erase (name, id) }
  | took {name : String} {id : Nat} {w : Wrapper} {directory : Directory} :
    (name, id) ∈ x.direct → x.directory.pop name id = (some w, directory) →
    Does x none (x.setDirectory directory)

theorem operate_eq {k : Nat} {c : Connector} (hc : x.connectors[k]? = some c)
    (f : Connector → Connector × Surroundings × Option Event) :
    x.operate k f = ({ x with connectors := x.connectors.set k (f c).1, around := (f c).2.1 },
      (f c).2.2) := by
  rw [operate, hc]

/-- A connector that is put back as it was. -/
theorem operate_stay {k : Nat} {c : Connector} (hc : x.connectors[k]? = some c)
    {f : Connector → Connector × Surroundings × Option Event} (around : Surroundings)
    (event : Option Event) (hf : f c = (c, around, event)) :
    x.operate k f = ({ x with around }, event) := by
  obtain ⟨hk, rfl⟩ := List.getElem?_eq_some_iff.1 hc
  rw [operate_eq hc, hf, List.set_getElem_self]

variable {k : Nat} {c : Connector}

theorem does_of_connect (hc : x.connectors[k]? = some c) (he : IsEndpoint c) :
    Does x (x.act (.connect k)).2 (x.act (.connect k)).1 := by
  have hstay (h : c.connect x.around = (.ok (), c, x.around) ∨
      ∃ e, c.connect x.around = (.error e, c, x.around)) :
      Does x (x.act (.connect k)).2 (x.act (.connect k)).1 := by
    rw [act, operate_stay hc x.around none]
    · exact .rested
    · obtain h | ⟨e, h⟩ := h <;> simp [h]
  cases he with
  | outbound name capacity => exact hstay (.inl rfl)
  | inbound name capacity session =>
    cases session with
    | some id => exact hstay (.inl rfl)
    | none =>
      cases hfull : (x.around.directory.queue name).exhausted with
      | true => exact hstay (.inr ⟨_, by rw [Connector.connect, if_pos hfull]⟩)
      | false =>
        have hconnect : Connector.connect (.queue .inbound name capacity none) x.around =
            (.ok (), .queue .inbound name capacity (some (x.directory.queue name).length),
              { x.around with directory := (x.directory.subscribe name capacity).2 }) := by
          rw [Connector.connect, if_neg (by simpa using hfull)]
          rfl
        rw [act, operate_eq hc]
        simp only [hconnect]
        exact .opened hc

theorem does_of_disconnect (hc : x.connectors[k]? = some c) (he : IsEndpoint c) :
    Does x (x.act (.disconnect k)).2 (x.act (.disconnect k)).1 := by
  cases he with
  | outbound name capacity =>
    rw [act, operate_stay hc x.around none rfl]
    exact .rested
  | inbound name capacity session =>
    cases session with
    | none =>
      rw [act, operate_stay hc x.around none rfl]
      exact .rested
    | some id =>
      rw [act, operate_eq hc]
      exact .closed hc

theorem does_of_stop (hc : x.connectors[k]? = some c) (he : IsEndpoint c) :
    Does x (x.act (.stop k)).2 (x.act (.stop k)).1 := by
  have hstay (h : c.stop x.around = (c, x.around)) :
      Does x (x.act (.stop k)).2 (x.act (.stop k)).1 := by
    rw [act, operate_stay hc x.around none]
    · exact .rested
    · simp [h]
  cases he with
  | outbound name capacity => exact hstay rfl
  | inbound name capacity session =>
    cases session with
    | none => exact hstay rfl
    | some id =>
      cases hq : x.around.directory.buffer? name id with
      | none => exact hstay (by simp [Connector.stop, hq])
      | some q =>
        rw [act, operate_stay hc
          { x.around with directory := x.around.directory.setBuffer name id q.close } none]
        · exact .shut hq
        · simp [Connector.stop, hq]

theorem does_of_receive (hc : x.connectors[k]? = some c) (he : IsEndpoint c) :
    Does x (x.act (.receive k)).2 (x.act (.receive k)).1 := by
  have hstay (h : (∃ e, c.receive x.around = .ready [(.error e, c, x.around)]) ∨
      c.receive x.around = .blocked c) :
      Does x (x.act (.receive k)).2 (x.act (.receive k)).1 := by
    rw [act, operate_stay hc x.around none]
    · exact .rested
    · obtain ⟨e, h⟩ | h := h <;> simp [h]
  cases he with
  | outbound name capacity => exact hstay (.inl ⟨_, rfl⟩)
  | inbound name capacity session =>
    cases session with
    | none => exact hstay (.inl ⟨_, rfl⟩)
    | some id =>
      by_cases hb : ((x.around.directory.buffer? name id).getD {}).blocks = true
      · exact hstay (.inr (by simp [Connector.receive, hb]))
      · rcases hpop : x.around.directory.pop name id with ⟨_ | w, directory⟩
        · exact hstay (.inl ⟨.stopped, by simp [Connector.receive, hb, hpop, Connector.refuse]⟩)
        · have hsession : x.session? k = some (name, id) := by rw [session?, hc]; rfl
          rw [act, operate_stay hc { x.around with directory } (some (.received k w.working))
            (by simp [Connector.receive, hb, hpop])]
          exact .received hsession hpop

theorem does_of_send (hc : x.connectors[k]? = some c) (he : IsEndpoint c) (w : Wrapper) :
    Does x (x.act (.send k w)).2 (x.act (.send k w)).1 := by
  obtain ⟨direction, name, capacity, session, rfl⟩ :
      ∃ direction name capacity session, c = .queue direction name capacity session := by
    cases he <;> exact ⟨_, _, _, _, rfl⟩
  rw [act, operate_stay hc { x.around with directory := (x.directory.publish name w).2 }
    (some (x.publication name w)) rfl]
  exact .published name w

/-- Nothing is done with a connector that is not there. -/
theorem does_of_operate {f : Connector → Connector × Surroundings × Option Event}
    (h : ∀ c, x.connectors[k]? = some c → Does x (x.operate k f).2 (x.operate k f).1) :
    Does x (x.operate k f).2 (x.operate k f).1 := by
  cases hc : x.connectors[k]? with
  | none =>
    rw [operate, hc]
    exact .rested
  | some c => exact h c hc

theorem does_of_act (h : ∀ c ∈ x.connectors, IsEndpoint c) (a : Act) :
    Does x (x.act a).2 (x.act a).1 := by
  have hend {k : Nat} {c : Connector} (hc : x.connectors[k]? = some c) : IsEndpoint c :=
    h c (List.mem_of_getElem? hc)
  cases a with
  | make direction name capacity => exact .made direction name capacity
  | connect k => exact does_of_operate fun c hc ↦ does_of_connect hc (hend hc)
  | disconnect k => exact does_of_operate fun c hc ↦ does_of_disconnect hc (hend hc)
  | stop k => exact does_of_operate fun c hc ↦ does_of_stop hc (hend hc)
  | receive k => exact does_of_operate fun c hc ↦ does_of_receive hc (hend hc)
  | send k w => exact does_of_operate fun c hc ↦ does_of_send hc (hend hc) w
  | redirect name w => exact .published name w
  | subscribe name capacity =>
    rw [act]
    split
    · exact .rested
    · exact .joined name capacity
  | unsubscribe name id =>
    rw [act]
    split
    · rename_i hd
      exact .left hd
    · exact .rested
  | take name id =>
    rw [act]
    split
    · rename_i hd
      split
      · rename_i hpop
        exact .took hd hpop
      · exact .rested
    · exact .rested
  | close name id =>
    rw [act]
    split
    · rename_i hq
      exact .shut hq
    · exact .rested

/-! ## Whose the buffers are -/

/-- The buffers in use: those of open sessions, and those of direct subscriptions. -/
def places (x : Exchange) : List (String × Nat) :=
  x.connectors.filterMap Connector.session? ++ x.direct

/-- The numbers on a queue among places. -/
def on (name : String) (places : List (String × Nat)) : List Nat :=
  (places.filter (·.1 = name)).map (·.2)

/-- Every place is that of one subscriber, and every subscriber has one. -/
def Held (places : List (String × Nat)) (d : Directory) : Prop :=
  ∀ name, (on name places).Perm (d.queue name).current

variable {ps ps' : List (String × Nat)} {d d' : Directory} {name : String} {id : Nat}

theorem on_cons (name : String) (place : String × Nat) (ps : List (String × Nat)) :
    on name (place :: ps) = if place.1 = name then place.2 :: on name ps else on name ps := by
  rw [on, List.filter_cons]
  by_cases h : place.1 = name <;> simp [h, on]

theorem perm_on (hp : ps'.Perm ps) (name : String) : (on name ps').Perm (on name ps) :=
  (hp.filter _).map _

theorem Held.mem_iff (h : Held ps d) : (name, id) ∈ ps ↔ id ∈ (d.queue name).current := by
  rw [← (h name).mem_iff, on]
  simp

theorem Held.nodup (h : Held ps d) : ps.Nodup := by
  refine List.nodup_iff_count_le_one.2 fun (name, id) ↦ ?_
  have hnodup : (on name ps).Nodup := (h name).nodup_iff.2 (Broadcast.nodup_current _)
  calc ps.count (name, id) = (ps.filter (·.1 = name)).count (name, id) :=
        (List.count_filter (by simp)).symm
    _ ≤ (on name ps).count id :=
        List.count_le_count_map (f := Prod.snd) (x := (name, id))
    _ ≤ 1 := List.nodup_iff_count_le_one.1 hnodup id

theorem Held.of_perm (h : Held ps d) (hp : ps'.Perm ps)
    (hd : ∀ name, (d'.queue name).current = (d.queue name).current) : Held ps' d' := fun name ↦ by
  rw [hd]
  exact (perm_on hp name).trans (h name)

theorem Held.join (h : Held ps d) (name : String) (capacity : Nat)
    (hp : ps'.Perm ((name, (d.queue name).length) :: ps)) :
    Held ps' (d.subscribe name capacity).2 := fun other ↦ by
  refine (perm_on hp other).trans ?_
  rw [on_cons, Directory.queue_subscribe]
  by_cases ho : other = name
  · subst ho
    rw [if_pos rfl, if_pos rfl]
    change List.Perm _ ((d.queue other).subscribe capacity).current
    rw [Broadcast.current_subscribe]
    exact ((h other).cons _).trans (List.perm_append_singleton _ _).symm
  · rw [if_neg (Ne.symm ho), if_neg ho]
    exact h other

theorem Held.leave (h : Held ps d) (hp : ps.Perm ((name, id) :: ps')) :
    Held ps' (d.unsubscribe name id) := fun other ↦ by
  have hbefore := (perm_on hp other).symm.trans (h other)
  rw [on_cons] at hbefore
  rw [Directory.queue_unsubscribe]
  by_cases ho : other = name
  · subst ho
    rw [if_pos rfl] at hbefore ⊢
    have hid : id ∈ (d.queue other).current := hbefore.subset List.mem_cons_self
    exact (hbefore.trans (Broadcast.perm_current_unsubscribe hid)).cons_inv
  · rw [if_neg (Ne.symm ho)] at hbefore
    rwa [if_neg ho]

/-- The places besides that of one connector, which may change. -/
theorem exists_rest (hc : x.connectors[k]? = some c) : ∃ rest,
    x.places.Perm (c.session?.toList ++ rest) ∧
      (∀ c', (x.setConnector k c').places.Perm (c'.session?.toList ++ rest)) ∧
      (∀ {j place}, j ≠ k → x.session? j = some place → place ∈ rest) ∧
      ∀ {place}, place ∈ x.direct → place ∈ rest := by
  obtain ⟨hk, rfl⟩ := List.getElem?_eq_some_iff.1 hc
  obtain ⟨before, behind, hsplit, hlen, hset⟩ :
      ∃ before behind, x.connectors = before ++ x.connectors[k] :: behind ∧ before.length = k ∧
        ∀ c', x.connectors.set k c' = before ++ c' :: behind := by
    refine ⟨x.connectors.take k, x.connectors.drop (k + 1), by simp, by simp; omega, fun c' ↦ ?_⟩
    rw [List.set_eq_take_append_cons_drop, if_pos hk]
  have hperm (c' : Connector) :
      ((before ++ c' :: behind).filterMap Connector.session? ++ x.direct).Perm
        (c'.session?.toList ++ ((before ++ behind).filterMap Connector.session? ++ x.direct)) := by
    rw [← List.append_assoc]
    refine List.Perm.append_right _ ?_
    refine (List.perm_middle.filterMap _).trans ?_
    cases hs : c'.session? <;> simp [hs]
  refine ⟨(before ++ behind).filterMap Connector.session? ++ x.direct, ?_, fun c' ↦ ?_,
    fun {j place} hj hs ↦ ?_, fun hd ↦ List.mem_append_right _ hd⟩
  · have h := hperm x.connectors[k]
    rwa [← hsplit] at h
  · have h := hperm c'
    rwa [← hset] at h
  · obtain ⟨c', hc', hs⟩ := Option.bind_eq_some_iff.1 hs
    refine List.mem_append_left _ (List.mem_filterMap.2 ⟨c', ?_, hs⟩)
    rw [hsplit, List.getElem?_append] at hc'
    rw [List.mem_append]
    split at hc'
    · exact .inl (List.mem_of_getElem? hc')
    · obtain ⟨i, hi⟩ : ∃ i, j - before.length = i + 1 := ⟨j - before.length - 1, by omega⟩
      rw [hi, List.getElem?_cons_succ] at hc'
      exact .inr (List.mem_of_getElem? hc')

/-! ## What goes through a session -/

theorem received_append (k : Nat) (log log' : List Event) :
    received k (log ++ log') = received k log ++ received k log' := List.filterMap_append

theorem taken_append (name : String) (id : Nat) (log log' : List Event) :
    taken name id (log ++ log') = taken name id log ++ taken name id log' := List.filterMap_append

theorem taken_published (name : String) (id : Nat) (queue : String) (w : Wrapper)
    (full : List Nat) :
    taken name id [.published queue w full] =
      if queue = name ∧ id ∉ full then [w] else [] := by
  by_cases h : queue = name ∧ id ∉ full
  · rw [if_pos h]
    exact List.filterMap_cons_some (if_pos h)
  · rw [if_neg h]
    exact List.filterMap_cons_none (if_neg h)

/-- A connector was opened, and has since received, in order, what was published and fitted into
its buffer, but for what is still there. -/
def Flows (d : Directory) (log : List Event) (k : Nat) (name : String) (id : Nat) : Prop :=
  ∃ before during, log = before ++ .opened k name id :: during ∧
    (∀ name' id', .opened k name' id' ∉ during) ∧ .closed k ∉ during ∧
    received k during ++ (d.items name id).map (·.working) =
      (taken name id during).map (·.working)

/-- A session that goes on. What is received comes out of the buffer, what is taken goes in. -/
theorem Flows.concat (h : Flows d log k name id)
    (ho : ∀ name' id', event ≠ some (.opened k name' id'))
    (hc : event ≠ some (.closed k))
    (hitems : received k event.toList ++ (d'.items name id).map (·.working) =
      (d.items name id).map (·.working) ++ (taken name id event.toList).map (·.working)) :
    Flows d' (log ++ event.toList) k name id := by
  obtain ⟨before, during, rfl, hopened, hclosed, hflow⟩ := h
  refine ⟨before, during ++ event.toList, by simp, fun name' id' hm ↦ ?_, fun hm ↦ ?_, ?_⟩
  · rcases List.mem_append.1 hm with hm | hm
    · exact hopened name' id' hm
    · exact ho name' id' (Option.mem_toList.1 hm)
  · rcases List.mem_append.1 hm with hm | hm
    · exact hclosed hm
    · exact hc (Option.mem_toList.1 hm)
  · rw [received_append, taken_append, List.map_append, List.append_assoc, hitems,
      ← List.append_assoc, hflow]

/-- A session that what happens does not concern. -/
theorem Flows.concat_other (h : Flows d log k name id) (hd : d'.items name id = d.items name id)
    (ho : ∀ name' id', event ≠ some (.opened k name' id')) (hc : event ≠ some (.closed k))
    (hr : received k event.toList = []) (ht : taken name id event.toList = []) :
    Flows d' (log ++ event.toList) k name id :=
  h.concat ho hc (by rw [hr, ht, hd, List.map_nil, List.append_nil, List.nil_append])

/-- A session that is opened now. -/
theorem flows_opened (log : List Event) (k : Nat) (hd : d.items name id = []) :
    Flows d (log ++ [.opened k name id]) k name id :=
  ⟨log, [], rfl, nofun, nofun, by rw [hd]; rfl⟩

/-- What is true of an exchange and its log at any time. -/
structure Books (x : Exchange) (log : List Event) : Prop where
  endpoints : ∀ c ∈ x.connectors, IsEndpoint c
  held : Held x.places x.directory
  flows : ∀ {k name id}, x.session? k = some (name, id) → Flows x.directory log k name id

theorem books_nil : Books {} [] where
  endpoints := nofun
  held _ := .nil
  flows {k name id} h := by cases k <;> cases h

theorem items_beyond (d : Directory) (name : String) :
    d.items name (d.queue name).length = [] := by
  rw [Directory.items_eq, List.getElem?_eq_none (Nat.le_refl _)]
  rfl

theorem session?_setConnector {k : Nat} {c : Connector} (hc : x.connectors[k]? = some c)
    (d : Directory) (c' : Connector) (j : Nat) :
    ((x.setDirectory d).setConnector k c').session? j =
      if k = j then c'.session? else x.session? j := by
  have hlt : k < x.connectors.length := (List.getElem?_eq_some_iff.1 hc).1
  rw [session?, setConnector, setDirectory, List.getElem?_set]
  by_cases hk : k = j
  · simp [hk, hk ▸ hlt]
  · simp [hk, session?]

theorem mem_places (h : x.session? k = some (name, id)) : (name, id) ∈ x.places := by
  obtain ⟨c, hc, hs⟩ := Option.bind_eq_some_iff.1 h
  exact List.mem_append_left _ (List.mem_filterMap.2 ⟨c, List.mem_of_getElem? hc, hs⟩)

/-- Nobody else has the buffer of a session. -/
theorem Books.only (h : Books x log) (hs : x.session? k = some (name, id)) :
    (∀ j, j ≠ k → x.session? j ≠ some (name, id)) ∧ (name, id) ∉ x.direct := by
  obtain ⟨c, hc, hsession⟩ := Option.bind_eq_some_iff.1 hs
  obtain ⟨rest, hperm, -, hothers, hdirect⟩ := exists_rest hc
  rw [hsession] at hperm
  have hnot : (name, id) ∉ rest :=
    (List.nodup_cons.1 (hperm.nodup_iff.1 h.held.nodup)).1
  exact ⟨fun j hj hs' ↦ hnot (hothers hj hs'), fun hd ↦ hnot (hdirect hd)⟩

theorem Books.endpoints_of_does (h : Books x log) (hd : Does x event x') :
    ∀ c ∈ x'.connectors, IsEndpoint c := by
  intro c hc
  cases hd with
  | made direction name capacity =>
    rcases List.mem_append.1 hc with hc | hc
    · exact h.endpoints c hc
    · obtain rfl := List.mem_singleton.1 hc
      cases direction with
      | inbound => exact .inbound _ _ _
      | outbound => exact .outbound _ _
  | opened _ | closed _ =>
    rcases List.mem_or_eq_of_mem_set hc with hc | rfl
    · exact h.endpoints c hc
    · exact .inbound _ _ _
  | _ => exact h.endpoints c hc

theorem Books.held_of_does (h : Books x log) (hd : Does x event x') :
    Held x'.places x'.directory := by
  cases hd with
  | rested => exact h.held
  | made direction name capacity =>
    refine h.held.of_perm ?_ fun other ↦ congrArg _ (Directory.queue_create _ _ _)
    rw [places, List.filterMap_append]
    exact (List.append_nil _).symm ▸ .refl _
  | opened hc =>
    obtain ⟨rest, hperm, hset, -⟩ := exists_rest hc
    exact h.held.join _ _ ((hset _).trans (hperm.symm.cons _))
  | @closed k name capacity id hc =>
    obtain ⟨rest, hperm, hset, -⟩ := exists_rest hc
    have hrest : (x.setConnector k (.queue .inbound name capacity none)).places.Perm rest := hset _
    exact h.held.leave (hperm.trans (hrest.symm.cons _))
  | shut hq => exact h.held.of_perm (.refl _) fun other ↦ Directory.current_setBuffer _ _ _ _ _
  | received _ hp | took _ hp =>
    obtain ⟨buffer, rfl⟩ := Directory.exists_setBuffer_of_pop hp
    exact h.held.of_perm (.refl _) fun other ↦ Directory.current_setBuffer _ _ _ _ _
  | published name w =>
    refine h.held.of_perm (.refl _) fun other ↦ ?_
    change ((x.directory.publish name w).2.queue other).current = _
    rw [Directory.queue_publish]
    split
    · rename_i ho
      exact ho ▸ Broadcast.current_publish _ _
    · rfl
  | joined name capacity => exact h.held.join _ _ List.perm_middle
  | left hm =>
    exact h.held.leave (((List.perm_cons_erase hm).append_left _).trans List.perm_middle)

theorem Books.flows_of_does (h : Books x log) (hd : Does x event x')
    (hs : x'.session? k = some (name, id)) :
    Flows x'.directory (log ++ event.toList) k name id := by
  -- Whoever is not told of anything finds the buffer as it was.
  have hkeep {d' : Directory} (hs : x.session? k = some (name, id))
      (hd : d'.items name id = x.directory.items name id) :
      Flows d' (log ++ (none : Option Event).toList) k name id :=
    (h.flows hs).concat_other hd nofun nofun rfl rfl
  cases hd with
  | rested => exact hkeep hs rfl
  | made direction name' capacity =>
    refine hkeep ?_ (congrFun₂ (Directory.items_create _ _) _ _)
    obtain ⟨c, hc, hsession⟩ := Option.bind_eq_some_iff.1 hs
    rw [List.getElem?_append] at hc
    split at hc
    · rw [session?, hc]
      exact hsession
    · obtain rfl := List.mem_singleton.1 (List.mem_of_getElem? hc)
      cases hsession
  | @opened k' name' capacity hc =>
    rw [session?_setConnector hc] at hs
    have hitems := congrFun₂ (Directory.items_subscribe x.directory name' capacity)
    split at hs
    · rename_i hk
      cases hs
      subst hk
      exact flows_opened log _ ((hitems _ _).trans (items_beyond _ _))
    · rename_i hk
      exact (h.flows hs).concat_other (hitems _ _) (fun _ _ heq ↦ by cases heq; exact hk rfl)
        nofun rfl rfl
  | @closed k' name' capacity id' hc =>
    rw [session?_setConnector hc] at hs
    split at hs
    · cases hs
    · rename_i hk
      exact (h.flows hs).concat_other (congrFun₂ (Directory.items_unsubscribe _ _ _) _ _) nofun
        (fun heq ↦ by cases heq; exact hk rfl) rfl rfl
  | shut hq => exact hkeep hs (congrFun₂ (Directory.items_close hq) _ _)
  | @received k' name' id' w directory hs' hp =>
    obtain ⟨hhere, hthere⟩ := Directory.items_pop hp
    by_cases hk : k' = k
    · subst hk
      cases hs.symm.trans hs'
      refine (h.flows hs).concat nofun nofun ?_
      rw [hhere]
      simp [received, taken, setDirectory, Exchange.directory]
    · refine (h.flows hs).concat_other (hthere _ _ ?_) nofun nofun (by simp [received, hk]) rfl
      rintro ⟨rfl, rfl⟩
      exact (h.only hs).1 k' hk hs'
  | published name' w =>
    refine (h.flows hs).concat nofun nofun ?_
    have hid : id ∈ (x.directory.queue name).current := h.held.mem_iff.1 (mem_places hs)
    have hitems := congrArg (List.map (·.working)) (Directory.items_publish x.directory name' w hid)
    rw [List.map_append] at hitems
    rw [← taken_published] at hitems
    exact hitems
  | joined name' capacity => exact hkeep hs (congrFun₂ (Directory.items_subscribe _ _ _) _ _)
  | left hm => exact hkeep hs (congrFun₂ (Directory.items_unsubscribe _ _ _) _ _)
  | took hm hp =>
    refine hkeep hs ((Directory.items_pop hp).2 _ _ ?_)
    rintro ⟨rfl, rfl⟩
    exact (h.only hs).2 hm

theorem Books.of_does (h : Books x log) (hd : Does x event x') :
    Books x' (log ++ event.toList) :=
  ⟨h.endpoints_of_does hd, h.held_of_does hd, h.flows_of_does hd⟩

theorem books_after (acts : List Act) : Books (after acts).1 (after acts).2 := by
  suffices hfold : ∀ s : Exchange × List Event, Books s.1 s.2 →
      Books (acts.foldl next s).1 (acts.foldl next s).2 from hfold _ books_nil
  intro s hs
  induction acts generalizing s with
  | nil => exact hs
  | cons a acts ih => exact ih _ (hs.of_does (does_of_act hs.endpoints a))

/-! ## At any time -/

theorem length_on (name : String) (ps : List (String × Nat)) :
    (on name ps).length = ps.countP (·.1 = name) := by
  rw [on, List.length_map, List.countP_eq_length_filter]

/-- The open sessions on a queue are those of the connectors that receive from it. -/
theorem Books.countP_sessions (h : Books x log) (name : String) :
    (x.connectors.filterMap Connector.session?).countP (·.1 = name) =
      x.connectors.countP (·.listens name) := by
  rw [List.countP_filterMap]
  refine List.countP_congr fun c hc ↦ ?_
  cases h.endpoints c hc with
  | inbound name' capacity session => cases session <;> simp [Connector.session?, Connector.listens]
  | outbound name' capacity => simp [Connector.session?, Connector.listens]

theorem Books.liveCount_eq (h : Books x log) (name : String) :
    (x.directory.queue name).liveCount =
      x.connectors.countP (·.listens name) + x.direct.countP (·.1 = name) := by
  rw [← Broadcast.length_current, ← (h.held name).length_eq, length_on, places,
    List.countP_append, h.countP_sessions]

/-- A session that is open need not be opened. -/
theorem Books.act_connect (h : Books x log) (hs : x.session? k = some (name, id)) :
    x.act (.connect k) = (x, none) := by
  obtain ⟨c, hc, hsession⟩ := Option.bind_eq_some_iff.1 hs
  cases h.endpoints c (List.mem_of_getElem? hc) with
  | outbound name' capacity => cases hsession
  | inbound name' capacity session =>
    cases session with
    | none => cases hsession
    | some id' =>
      rw [act, operate_stay hc x.around none]
      simp [Connector.connect]

/-- Whatever happens to an exchange, at any time: a queue has one buffer for each of its connectors
that has an open session, and one for each direct subscription. Connecting in an open session
changes nothing. What was received in the session, followed by what waits in its buffer, is what
was published since it was opened and met a buffer with room, unchanged and in order. -/
theorem sessions_of_acts (acts : List Act) :
    let (x, log) := after acts
    (∀ name, (x.directory.queue name).liveCount =
      x.connectors.countP (·.listens name) + x.direct.countP (·.1 = name)) ∧
    ∀ k name id, x.session? k = some (name, id) →
      x.act (.connect k) = (x, none) ∧
      ∃ before during, log = before ++ .opened k name id :: during ∧
        (∀ name' id', .opened k name' id' ∉ during) ∧ .closed k ∉ during ∧
        received k during ++ (x.directory.items name id).map (·.working) =
          (taken name id during).map (·.working) := by
  have h := books_after acts
  exact ⟨h.liveCount_eq, fun k name id hs ↦ ⟨h.act_connect hs, h.flows hs⟩⟩

/-- Two sessions of a connector with room for one copy. In the first it is stopped before it
receives; between the sessions something is published. -/
def reconnecting : List Act :=
  [.make .inbound "t" 1, .make .outbound "t" 1, .connect 0, .connect 1,
    .send 1 (.ofMessage (.ofRaw "a" [])), .redirect "t" (.ofMessage (.ofRaw "b" [])), .stop 0,
    .receive 0, .send 1 (.ofMessage (.ofRaw "c" [])), .disconnect 0,
    .send 1 (.ofMessage (.ofRaw "d" [])), .connect 0, .connect 0,
    .redirect "t" (.ofMessage (.ofRaw "e" []))]

/-- In the second session there is the one copy of that session. -/
theorem sessions_of_reconnecting :
    let (x, log) := after reconnecting
    x.session? 0 = some ("t", 1) ∧ (x.directory.queue "t").liveCount = 1 ∧
      x.act (.connect 0) = (x, none) ∧ .received 0 (.ofRaw "a" []) ∈ log ∧
      x.directory.items "t" 1 = [.ofMessage (.ofRaw "e" [])] := by
  obtain ⟨hcount, hsessions⟩ := sessions_of_acts reconnecting
  have hs : (after reconnecting).1.session? 0 = some ("t", 1) := by decide
  exact ⟨hs, (hcount "t").trans (by decide), (hsessions 0 "t" 1 hs).1, by decide, by decide⟩

end Conduit.Exchange
