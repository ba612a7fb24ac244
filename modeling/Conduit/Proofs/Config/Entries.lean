import Conduit.Config.Entry
import Conduit.Proofs.Config.Routing
import Conduit.Proofs.Json.Reads
import Conduit.Proofs.Json.Yields

/-!
# Entries written and read back

An entry that was read is sound (`StageEntry.yields`, `ConnectorEntry.yields`): its parameters have
distinct names, none of which is a field of the entry itself. A sound entry is read back from what
it is written as (`StageEntry.reads`, `ConnectorEntry.reads`).
-/

namespace Conduit.Config

open Json Stage

/-! ## Sound entries -/

/-- Members as a JSON object has them. -/
structure SoundMembers (ms : Members) : Prop where
  keys : ms.keys.Nodup
  values : ∀ m ∈ ms, m.2.Distinct

structure ConnectorEntry.Sound (e : ConnectorEntry) : Prop where
  params : SoundMembers e.params
  untyped : "type" ∉ e.params.keys

structure StageEntry.Sound (e : StageEntry) : Prop where
  params : SoundMembers e.params
  metadata : SoundMembers e.routing.metadata
  untyped : "type" ∉ e.params.keys
  unrouted : ∀ m ∈ e.params, Routing.isField m.1 = false

/-! ## Entries by their type -/

section

variable {α : Type} {L : Layout} {d depth : Nat} {expected : String}
  {finish : String → List (String × Value) → Except Mismatch α}

theorem takes_type (type : String) (ms : List (String × Value)) :
    Takes L d (Tagged.readMember depth) ⟨none, ms⟩ [("type", .string type)] ⟨some type, ms⟩ := by
  refine .cons (fun rest hrest ↦ ?_) (.nil _)
  rw [Tagged.readMember, if_pos rfl, readField_spell (reads_string type) _ hrest]
  rfl

/-- Members other than the type gather, the latest first. -/
theorem takes_others {ms : Members} (hdepth : ∀ m ∈ ms, m.2.nesting ≤ depth)
    (hwhole : ∀ m ∈ ms, m.2.AllWhole) (hdistinct : ∀ m ∈ ms, m.2.Distinct)
    (huntyped : "type" ∉ ms.keys) (t : Tagged) :
    Takes L d (Tagged.readMember depth) t ms ⟨t.type, ms.reverse ++ t.others⟩ := by
  induction ms generalizing t with
  | nil => exact .nil t
  | cons m ms ih =>
    obtain ⟨key, v⟩ := m
    obtain ⟨hkey, hkeys⟩ := not_or.1 (mt List.mem_cons.2 huntyped)
    refine .cons (b := ⟨t.type, (key, v) :: t.others⟩) (fun rest hrest ↦ ?_) ?_
    · rw [Tagged.readMember, if_neg (Ne.symm hkey), readColon_colon]
      have hreads : Reads L d (fun s ↦ readValue (2 * s.length + 2) depth s) v v :=
        reads_value (hdepth _ List.mem_cons_self) (hwhole _ List.mem_cons_self)
          (hdistinct _ List.mem_cons_self)
      have hv := hreads hrest (skipSpace_blank L.blank_gap _)
      dsimp only at hv
      change (readValue _ depth _).bind _ = _
      rw [hv]
      rfl
    · rw [List.reverse_cons, List.append_assoc]
      exact ih (fun m hm ↦ hdepth m (List.mem_cons_of_mem _ hm))
        (fun m hm ↦ hwhole m (List.mem_cons_of_mem _ hm))
        (fun m hm ↦ hdistinct m (List.mem_cons_of_mem _ hm)) hkeys _

/-- An entry is what is made of its type and of all other members. -/
theorem reads_tagged {type : String} {ms : Members} {a : α}
    (hdepth : (Value.object (("type", .string type) :: ms)).nesting ≤ depth)
    (hwhole : ∀ m ∈ ms, m.2.AllWhole) (hdistinct : ∀ m ∈ ms, m.2.Distinct)
    (huntyped : "type" ∉ ms.keys) (hfinish : finish type ms = .ok a) :
    Reads L d (readTagged expected finish depth) (.object (("type", .string type) :: ms)) a := by
  obtain ⟨depth, rfl⟩ : ∃ n, depth = n + 1 :=
    ⟨depth - 1, by simp [Value.nesting] at hdepth; omega⟩
  have hdepth' := fun m hm ↦ Value.nesting_object_le_iff.1 hdepth m (List.mem_cons_of_mem _ hm)
  refine reads_object ((takes_type type []).append
    (takes_others hdepth' hwhole hdistinct huntyped ⟨some type, []⟩)) ?_
  rw [List.append_nil]
  change finish type ms.reverse.reverse = _
  rw [List.reverse_reverse, hfinish]

/-- No other member of an entry that was read is a second type, and all of them are sound. -/
theorem yields_tagged {P : α → Prop}
    (hfinish : ∀ {type ms a}, (∀ m ∈ ms, m.1 ≠ "type" ∧ m.2.Distinct) →
      finish type ms = .ok a → P a) : Yields (readTagged expected finish depth) P := by
  refine yields_object (P := fun t : Tagged ↦ ∀ m ∈ t.others, m.1 ≠ "type" ∧ m.2.Distinct)
    (fun m hm ↦ absurd hm List.not_mem_nil) (fun {depth t} ht key s t' rest h ↦ ?_)
    fun {t a} ht h ↦ ?_
  · rw [Tagged.readMember] at h
    split at h
    · obtain ⟨_, -, h⟩ := bind_eq_ok h
      obtain ⟨rfl, -⟩ := Prod.mk.inj (Except.ok.inj h)
      exact ht
    · rename_i hkey
      obtain ⟨_, -, h⟩ := bind_eq_ok h
      obtain ⟨r, hv, h⟩ := bind_eq_ok h
      obtain ⟨rfl, -⟩ := Prod.mk.inj (Except.ok.inj h)
      intro m hm
      rcases List.mem_cons.1 hm with rfl | hm
      · exact ⟨hkey, yields_value _ _ hv⟩
      · exact ht m hm
  · split at h
    · exact hfinish (fun m hm ↦ ht m (List.mem_reverse.1 hm)) h
    · cases h

end

/-! ## Connectors and stages -/

theorem soundMembers_ofList {l : List (String × Value)} (h : ∀ m ∈ l, m.2.Distinct) :
    SoundMembers (.ofList l) :=
  ⟨Members.nodup_keys_ofList l, fun m hm ↦ h m (Members.mem_of_mem_ofList hm)⟩

theorem untyped_ofList {l : List (String × Value)} (h : ∀ m ∈ l, m.1 ≠ "type") :
    "type" ∉ (Members.ofList l).keys := fun hin ↦ by
  obtain ⟨m, hm, heq⟩ := List.mem_map.1 hin
  exact h m (Members.mem_of_mem_ofList hm) heq

namespace ConnectorEntry

theorem yields (depth : Nat) : Yields (read depth) Sound := by
  refine yields_tagged fun {type ms e} hms h ↦ ?_
  obtain rfl := Except.ok.inj h
  exact ⟨soundMembers_ofList fun m hm ↦ (hms m hm).2, untyped_ofList fun m hm ↦ (hms m hm).1⟩

theorem reads {L : Layout} {d depth : Nat} {e : ConnectorEntry} (h : e.Sound)
    (hdepth : e.toValue.nesting ≤ depth) (hwhole : e.toValue.AllWhole) :
    Reads L d (read depth) e.toValue e := by
  have hwhole' := fun m hm ↦ Value.allWhole_object.1 hwhole m (List.mem_cons_of_mem _ hm)
  refine reads_tagged hdepth hwhole' h.params.values h.untyped ?_
  rw [Members.ofList_of_nodup h.params.keys]
  rfl

end ConnectorEntry

namespace StageEntry

/-- Metadata are the members of an object among those of the entry. -/
theorem soundMembers_metadata {ms : List (String × Value)} (hms : ∀ m ∈ ms, m.2.Distinct)
    {r : Routing} (h : Routing.ofMembers ms = .ok r) : SoundMembers r.metadata := by
  obtain ⟨_, -, h⟩ := bind_eq_ok h
  obtain ⟨_, -, h⟩ := bind_eq_ok h
  obtain ⟨_, -, h⟩ := bind_eq_ok h
  obtain ⟨_, -, h⟩ := bind_eq_ok h
  obtain ⟨_, -, h⟩ := bind_eq_ok h
  obtain ⟨metadata, hmetadata, h⟩ := bind_eq_ok h
  obtain ⟨_, -, h⟩ := bind_eq_ok h
  obtain ⟨_, -, h⟩ := bind_eq_ok h
  obtain ⟨_, -, h⟩ := bind_eq_ok h
  obtain rfl := Except.ok.inj h
  rw [withDefault] at hmetadata
  split at hmetadata
  · rename_i v hv
    have hdistinct := hms _ (mem_of_lookup hv)
    cases v with
    | object members =>
      obtain rfl := Except.ok.inj hmetadata
      obtain ⟨hkeys, hvalues⟩ := Value.distinct_object.1 hdistinct
      exact ⟨hkeys, hvalues⟩
    | _ => cases hmetadata
  · obtain rfl := Except.ok.inj hmetadata
    exact ⟨List.nodup_nil, fun m hm ↦ absurd hm List.not_mem_nil⟩

theorem yields (depth : Nat) : Yields (read depth) Sound := by
  refine yields_tagged fun {type ms e} hms h ↦ ?_
  obtain ⟨routing, hrouting, h⟩ := bind_eq_ok h
  obtain rfl := Except.ok.inj h
  have hmem {m : String × Value} (hm : m ∈ ms.filter fun m ↦ !Routing.isField m.1) : m ∈ ms :=
    List.mem_of_mem_filter hm
  refine ⟨soundMembers_ofList fun m hm ↦ (hms m (hmem hm)).2,
    soundMembers_metadata (fun m hm ↦ (hms m hm).2) hrouting,
    untyped_ofList fun m hm ↦ (hms m (hmem hm)).1, fun m hm ↦ ?_⟩
  simpa using (List.mem_filter.1 (Members.mem_of_mem_ofList hm)).2

/-- All values written for a routing but its metadata are free of objects. -/
theorem distinct_of_mem_toMembers {r : Routing} (h : SoundMembers r.metadata)
    {m : String × Value} (hm : m ∈ r.toMembers) : m.2.Distinct := by
  obtain ⟨name, v⟩ := m
  have hwritten := Routing.mem_toMembers hm
  have htext {text : Option String} (hv : some v = text.map .string) : v.Distinct := by
    obtain ⟨s, -, rfl⟩ := Option.map_eq_some_iff.1 hv.symm
    simp [Value.Distinct]
  simp only [Routing.written, List.mem_cons, Prod.mk.injEq, List.not_mem_nil, or_false] at hwritten
  rcases hwritten with ⟨-, h'⟩ | ⟨-, h'⟩ | ⟨-, h'⟩ | ⟨-, h'⟩ | ⟨-, h'⟩ | ⟨-, h'⟩ | ⟨-, h'⟩ | ⟨-, h'⟩
  case inl => exact htext h'
  case inr.inl =>
    obtain ⟨_, -, rfl⟩ := Option.map_eq_some_iff.1 h'.symm
    simp [Value.Distinct]
  case inr.inr.inl =>
    split at h' <;> cases h'
    simp [Value.Distinct]
  case inr.inr.inr.inl =>
    split at h' <;> cases h'
    simp [Value.Distinct]
  case inr.inr.inr.inr.inl =>
    split at h' <;> cases h'
    exact Value.distinct_object.2 ⟨h.keys, h.values⟩
  case inr.inr.inr.inr.inr.inl => exact htext h'
  case inr.inr.inr.inr.inr.inr.inl => exact htext h'
  case inr.inr.inr.inr.inr.inr.inr => exact htext h'

theorem reads {L : Layout} {d depth : Nat} {e : StageEntry} (h : e.Sound)
    (hdepth : e.toValue.nesting ≤ depth) (hwhole : e.toValue.AllWhole) :
    Reads L d (read depth) e.toValue e := by
  have hwhole' := fun m hm ↦ Value.allWhole_object.1 hwhole m (List.mem_cons_of_mem _ hm)
  have hkey {m : String × Value} (hm : m ∈ e.routing.toMembers) :
      Routing.isField m.1 = true := Routing.isField_of_mem_toMembers hm
  refine reads_tagged hdepth hwhole' (fun m hm ↦ ?_) (fun hin ↦ ?_) ?_
  · exact (List.mem_append.1 hm).elim (distinct_of_mem_toMembers h.metadata) (h.params.values m)
  · rw [Members.keys, List.map_append, List.mem_append] at hin
    rcases hin with hin | hin
    · obtain ⟨m, hm, htype⟩ := List.mem_map.1 hin
      exact absurd (hkey hm) (by rw [htype]; decide)
    · exact h.untyped hin
  · have hfields : e.routing.toMembers.filter (fun m ↦ !Routing.isField m.1) = [] :=
      List.filter_eq_nil_iff.2 fun m hm ↦ by simp [hkey hm]
    have hparams : e.params.filter (fun m ↦ !Routing.isField m.1) = e.params :=
      List.filter_eq_self.2 fun m hm ↦ by simp [h.unrouted m hm]
    rw [ofMembers, Routing.ofMembers_toMembers h.params.keys h.unrouted, List.filter_append,
      hfields, hparams, List.nil_append, Members.ofList_of_nodup h.params.keys]
    rfl

end StageEntry

end Conduit.Config
