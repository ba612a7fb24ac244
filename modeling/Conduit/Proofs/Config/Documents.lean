import Conduit.Config.Pipeline
import Conduit.Proofs.Config.Entries

/-!
# Documents written and read back

Whatever way a pipeline is written, what it is read to is sound (`Pipeline.yields`), and a sound one
is read back from the object it is written as (`Pipeline.reads`). The same holds of documents, whose
ids are distinct besides (`Document.yields`, `Document.reads`).
-/

namespace Conduit.Config

open Json

variable {L : Layout} {d depth : Nat}

namespace Pipeline

structure Sound (p : Pipeline) : Prop where
  inbound : p.inbound.Sound
  outbound : p.outbound.Sound
  stages : ∀ e ∈ p.stages, e.Sound

/-! ## Reading -/

/-- The parts that have been read are sound. -/
structure Parts.Sound (p : Parts) : Prop where
  inbound : ∀ e ∈ p.inbound, e.Sound
  outbound : ∀ e ∈ p.outbound, e.Sound
  stages : ∀ es ∈ p.stages, ∀ e ∈ es, e.Sound

theorem yields_member {p : Parts} (h : p.Sound) (key : String) :
    Yields (readMember depth p key) Parts.Sound := by
  intro s q rest hr
  unfold readMember at hr
  split at hr
  · obtain ⟨⟨inbound, _⟩, hin, hr⟩ := bind_eq_ok hr
    obtain ⟨rfl, -⟩ := Prod.mk.inj (Except.ok.inj hr)
    exact { h with inbound := yields_field (ConnectorEntry.yields depth) hin }
  · obtain ⟨⟨outbound, _⟩, hout, hr⟩ := bind_eq_ok hr
    obtain ⟨rfl, -⟩ := Prod.mk.inj (Except.ok.inj hr)
    exact { h with outbound := yields_field (ConnectorEntry.yields depth) hout }
  · obtain ⟨⟨stages, _⟩, hstages, hr⟩ := bind_eq_ok hr
    obtain ⟨rfl, -⟩ := Prod.mk.inj (Except.ok.inj hr)
    exact { h with stages := yields_field (yields_list StageEntry.yields depth) hstages }
  · obtain ⟨_, -, hr⟩ := bind_eq_ok hr
    obtain ⟨rfl, -⟩ := Prod.mk.inj (Except.ok.inj hr)
    exact h

theorem sound_whole {q : Parts} (h : q.Sound) {p : Pipeline} (hp : q.whole = .ok p) : p.Sound := by
  obtain ⟨inbound, outbound, stages⟩ := q
  cases inbound with
  | none => cases hp
  | some inbound =>
    cases outbound with
    | none => cases hp
    | some outbound =>
      obtain rfl := Except.ok.inj hp
      refine ⟨h.inbound _ rfl, h.outbound _ rfl, ?_⟩
      cases stages with
      | none => exact fun e he ↦ absurd he List.not_mem_nil
      | some stages => exact h.stages _ rfl

theorem yields_items : Yields (readItems depth) Sound := by
  intro s p rest hr
  obtain ⟨⟨inbound, _⟩, hin, hr⟩ := bind_eq_ok hr
  obtain ⟨⟨outbound, _⟩, hout, hr⟩ := bind_eq_ok hr
  obtain ⟨⟨stages, _⟩, hstages, hr⟩ := bind_eq_ok hr
  obtain ⟨rfl, -⟩ := Prod.mk.inj (Except.ok.inj hr)
  have hshort (n : Nat) (e : ConnectorEntry)
      (he : Except.error (Mismatch.length n (expected ++ " with 3 elements")) = .ok e) :
      e.Sound := by cases he
  refine ⟨yields_itemOr (ConnectorEntry.yields depth) (hshort 0) hin,
    yields_itemOr (ConnectorEntry.yields depth) (hshort 1) hout,
    yields_itemOr (yields_list StageEntry.yields depth) (fun es hes ↦ ?_) hstages⟩
  obtain rfl := Except.ok.inj hes
  exact fun e he ↦ absurd he List.not_mem_nil

/-- A pipeline that was read is sound, be it written as an object or by position. -/
theorem yields (depth : Nat) : Yields (read depth) Sound :=
  yields_record (P := Parts.Sound) ⟨by simp, by simp, by simp⟩ yields_member
    (fun h hp ↦ sound_whole h hp) fun _ ↦ yields_items

/-! ## Reading back -/

theorem reads {p : Pipeline} (h : p.Sound) (hdepth : p.toValue.nesting ≤ depth)
    (hwhole : p.toValue.AllWhole) : Reads L d (read depth) p.toValue p := by
  obtain ⟨depth, rfl⟩ : ∃ n, depth = n + 1 :=
    ⟨depth - 1, by simp [toValue, Value.nesting] at hdepth; omega⟩
  have hdepth := Value.nesting_object_le_iff.1 hdepth
  have hwhole := Value.allWhole_object.1 hwhole
  simp only [List.forall_mem_cons, List.not_mem_nil, false_imp_iff, implies_true, and_true]
    at hdepth hwhole
  obtain ⟨hin, hout, hstages⟩ := hdepth
  obtain ⟨hin', hout', hstages'⟩ := hwhole
  have hinbound : Reads L (d + 1) (ConnectorEntry.read depth) p.inbound.toValue p.inbound :=
    ConnectorEntry.reads h.inbound hin hin'
  have houtbound : Reads L (d + 1) (ConnectorEntry.read depth) p.outbound.toValue p.outbound :=
    ConnectorEntry.reads h.outbound hout hout'
  have hlist : Reads L (d + 1) (readStages depth) (.array (p.stages.map StageEntry.toValue))
      p.stages := by
    refine reads_list hstages hstages' fun depth' hdepth' ↦ ?_
    subst hdepth'
    refine List.forall₂_map_left_iff.2 (List.forall₂_same.2 fun e he ↦ ?_)
    have hmem : e.toValue ∈ p.stages.map StageEntry.toValue := List.mem_map_of_mem he
    exact StageEntry.reads (h.stages e he) (Value.nesting_array_le_iff.1 hstages _ hmem)
      (Value.allWhole_array.1 hstages' _ hmem)
  refine reads_record (.cons (b := ⟨some p.inbound, none, none⟩) (fun rest hrest ↦ ?_)
    (.cons (b := ⟨some p.inbound, some p.outbound, none⟩) (fun rest hrest ↦ ?_)
      (.cons (b := ⟨some p.inbound, some p.outbound, some p.stages⟩) (fun rest hrest ↦ ?_)
        (.nil _)))) rfl
  · change (readField _ none _ _).bind _ = _
    rw [readField_spell hinbound _ hrest]
    rfl
  · change (readField _ none _ _).bind _ = _
    rw [readField_spell houtbound _ hrest]
    rfl
  · change (readField _ none _ _).bind _ = _
    rw [readField_spell hlist _ hrest]
    rfl

end Pipeline

/-! ## Documents -/

namespace Document

structure Sound (d : Document) : Prop where
  ids : d.ids.Nodup
  pipelines : ∀ e ∈ d.entries, e.2.Sound

theorem sound_empty : Sound {} := ⟨List.nodup_nil, fun _ he ↦ absurd he List.not_mem_nil⟩

/-- One more pipeline of a new id. -/
theorem Sound.concat {d : Document} (h : d.Sound) {id : String} (hid : id ∉ d.ids) {p : Pipeline}
    (hp : p.Sound) : Sound ⟨d.entries ++ [(id, p)]⟩ := by
  refine ⟨?_, fun e he ↦ ?_⟩
  · rw [Document.ids, List.map_append]
    exact h.ids.append (List.nodup_singleton id) (List.disjoint_singleton.2 hid)
  · rcases List.mem_append.1 he with he | he
    · exact h.pipelines e he
    · exact List.mem_singleton.1 he ▸ hp

theorem yields (depth : Nat) : Yields (read depth) Sound := by
  refine yields_object (P := fun entries ↦ Sound ⟨entries⟩) sound_empty
    (fun {depth entries} h id s entries' rest hr ↦ ?_) fun h hd ↦ Except.ok.inj hd ▸ h
  obtain ⟨_, -, hr⟩ := bind_eq_ok hr
  obtain ⟨⟨p, _⟩, hp, hr⟩ := bind_eq_ok hr
  dsimp only at hr
  split at hr
  · cases hr
  · rename_i hnew
    obtain ⟨rfl, -⟩ := Prod.mk.inj (Except.ok.inj hr)
    exact h.concat (fun hin ↦ hnew (lookup_isSome_iff_mem.2 hin)) (Pipeline.yields _ hp)

theorem takes_entries {entries before : List (String × Pipeline)}
    (hids : ((before ++ entries).map Prod.fst).Nodup) (hsound : ∀ e ∈ entries, e.2.Sound)
    (hdepth : ∀ e ∈ entries, e.2.toValue.nesting ≤ depth)
    (hwhole : ∀ e ∈ entries, e.2.toValue.AllWhole) :
    Takes L d (readMember depth) before (entries.map fun e ↦ (e.1, e.2.toValue))
      (before ++ entries) := by
  induction entries generalizing before with
  | nil =>
    rw [List.append_nil]
    exact .nil before
  | cons e entries ih =>
    obtain ⟨id, p⟩ := e
    refine .cons (b := before ++ [(id, p)]) (fun rest hrest ↦ ?_) ?_
    · have hreads : Reads L d (Pipeline.read depth) p.toValue p :=
        Pipeline.reads (hsound _ List.mem_cons_self) (hdepth _ List.mem_cons_self)
          (hwhole _ List.mem_cons_self)
      have hnew : before.lookup id = none := by
        rw [List.map_append] at hids
        exact lookup_eq_none_of_notMem fun hin ↦
          List.disjoint_of_nodup_append hids hin List.mem_cons_self
      rw [readMember, readColon_colon]
      change (Pipeline.read depth _).bind _ = _
      rw [hreads hrest (skipSpace_blank L.blank_gap _)]
      change (do
        if (before.lookup id).isSome then throw _
        pure (before ++ [(id, p)], rest) : Except Fault _) = _
      rw [hnew]
      rfl
    · have happend : before ++ (id, p) :: entries = (before ++ [(id, p)]) ++ entries := by simp
      rw [happend] at hids ⊢
      exact ih hids (fun e he ↦ hsound e (List.mem_cons_of_mem _ he))
        (fun e he ↦ hdepth e (List.mem_cons_of_mem _ he))
        fun e he ↦ hwhole e (List.mem_cons_of_mem _ he)

theorem reads {doc : Document} (h : doc.Sound)
    (hdepth : ∀ e ∈ doc.entries, e.2.toValue.nesting ≤ depth) (hwhole : doc.toValue.AllWhole) :
    Reads L d (read (depth + 1)) doc.toValue doc := by
  have hwhole' : ∀ e ∈ doc.entries, e.2.toValue.AllWhole := fun e he ↦
    Value.allWhole_object.1 hwhole (e.1, e.2.toValue) (List.mem_map.2 ⟨e, he, rfl⟩)
  have htakes : Takes L (d + 1) (readMember depth) []
      (doc.entries.map fun e ↦ (e.1, e.2.toValue)) doc.entries :=
    takes_entries h.ids h.pipelines hdepth hwhole'
  exact reads_object htakes rfl

/-- A document is read back from its text, compact or indented. -/
theorem parse_spell {doc : Document} (h : doc.Sound)
    (hdepth : ∀ e ∈ doc.entries, e.2.toValue.nesting ≤ 126) (hwhole : doc.toValue.AllWhole) :
    parse (String.ofList (spell L 0 doc.toValue)) = .ok doc := by
  have hreads : Reads L 0 (read maxDepth) doc.toValue doc := reads h hdepth hwhole
  have hdoc : read maxDepth (Utf8.encodeChars (spell L 0 doc.toValue)) = .ok (doc, []) :=
    hreads ends_nil (by rw [List.append_nil])
  rw [parse, readText, Utf8.encode, String.toList_ofList, runReader, hdoc]
  rfl

end Document

end Conduit.Config
