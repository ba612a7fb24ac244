import Mathlib
import Conduit.Proofs.Config.Documents
import Conduit.Proofs.Files

/-!
# Documents saved and loaded

Every document that parsing, inserting and removing lead to is sound (`Document.Reached.sound`), so
it survives a save and a load (`Document.load_of_save`).
-/

namespace Conduit.Config.Document

open Json

/-! ## Documents that are reached -/

/-- The documents that any sequence of operations leads to. Pipelines are inserted as they were read,
under any id. -/
inductive Reached : Document → Prop
  | empty : Reached {}
  | parse {d d' : Document} {text : String} : Reached d → parse text = .ok d' → Reached d'
  | insert {d : Document} {p : Pipeline} {text : String} (id : String) :
      Reached d → readText Pipeline.read (Utf8.encode text) = .ok p → Reached (d.insert id p)
  | remove {d : Document} (id : String) : Reached d → Reached (d.remove id)

theorem of_readText {α : Type} {reader : (depth : Nat) → Reader α} {P : α → Prop}
    (h : ∀ depth, Yields (reader depth) P) {input : Bytes} {a : α}
    (ha : readText reader input = .ok a) : P a := by
  obtain ⟨⟨b, rest⟩, hb, ha⟩ := bind_eq_ok (mapError_eq_ok ha)
  dsimp only at ha
  split at ha
  · obtain rfl := Except.ok.inj ha
    exact h _ hb
  · cases ha

theorem mem_insertEntry {id : String} {p : Pipeline} {e : String × Pipeline}
    {entries : List (String × Pipeline)} (h : e ∈ insertEntry id p entries) :
    e = (id, p) ∨ e ∈ entries := by
  induction entries with
  | nil => exact .inl (List.mem_singleton.1 h)
  | cons f entries ih =>
    unfold insertEntry at h
    split at h
    · exact (List.mem_cons.1 h).imp_right (List.mem_cons_of_mem _)
    · rcases List.mem_cons.1 h with rfl | h
      · exact .inr List.mem_cons_self
      · exact (ih h).imp_right (List.mem_cons_of_mem _)

theorem nodup_insertEntry {id : String} {p : Pipeline} {entries : List (String × Pipeline)}
    (h : (entries.map Prod.fst).Nodup) : ((insertEntry id p entries).map Prod.fst).Nodup := by
  induction entries with
  | nil => exact List.nodup_singleton id
  | cons e entries ih =>
    obtain ⟨i, q⟩ := e
    obtain ⟨hi, hrest⟩ := List.nodup_cons.1 h
    unfold insertEntry
    split
    · rename_i heq
      exact List.nodup_cons.2 ⟨heq ▸ hi, hrest⟩
    · rename_i hne
      refine List.nodup_cons.2 ⟨fun hin ↦ ?_, ih hrest⟩
      obtain ⟨f, hf, hfi⟩ := List.mem_map.1 hin
      rcases mem_insertEntry hf with rfl | hf
      · exact hne hfi.symm
      · exact hi (List.mem_map.2 ⟨f, hf, hfi⟩)

theorem removeEntry_sublist (id : String) (entries : List (String × Pipeline)) :
    (removeEntry id entries).Sublist entries := by
  induction entries with
  | nil => exact List.Sublist.refl _
  | cons e entries ih =>
    unfold removeEntry
    split
    · exact List.sublist_cons_self _ _
    · exact ih.cons_cons _

/-- Ids are distinct and pipelines sound in all documents that are reached. -/
theorem Reached.sound {d : Document} (h : Reached d) : d.Sound := by
  induction h with
  | empty => exact sound_empty
  | parse _ hparse _ => exact of_readText yields (mapError_eq_ok hparse)
  | insert id _ hp ih =>
    refine ⟨nodup_insertEntry ih.ids, fun e he ↦ ?_⟩
    rcases mem_insertEntry he with rfl | he
    · exact of_readText Pipeline.yields hp
    · exact ih.pipelines e he
  | remove id _ ih =>
    exact ⟨ih.ids.sublist ((removeEntry_sublist id _).map Prod.fst),
      fun e he ↦ ih.pipelines e ((removeEntry_sublist id _).subset he)⟩

/-! ## Saving -/

/-- The folder of a file is made if it is not there. -/
def makeRoom (files : Files) (path : String) : Except FileError Files :=
  match Files.parent path with
  | none => .ok files
  | some up => if up = "" ∨ files.exists up then .ok files else files.makeFolders up

theorem save_eq (d : Document) (files : Files) (path : String) :
    d.save files path = ((makeRoom files path).bind fun files ↦
      files.write path (Utf8.encode d.toValue.toIndented)).mapError (BridgeError.io ·.message) := by
  unfold save makeRoom
  cases Files.parent path with
  | none => rfl
  | some up =>
    dsimp only
    split
    · rfl
    · cases files.makeFolders up <;> rfl

theorem save_eq_ok_iff {d : Document} {files files'' : Files} {path : String} :
    d.save files path = .ok files'' ↔ ∃ files', makeRoom files path = .ok files' ∧
      files'.write path (Utf8.encode d.toValue.toIndented) = .ok files'' := by
  rw [save_eq]
  constructor
  · exact fun h ↦ bind_eq_ok (mapError_eq_ok h)
  · rintro ⟨files', hroom, hw⟩
    rw [hroom, Except.bind, hw]
    rfl

/-- There is room where something was written. -/
theorem makeRoom_of_write {files files' files'' : Files} {path : String} {content : Bytes}
    (h : makeRoom files path = .ok files') (hw : files'.write path content = .ok files'') :
    makeRoom files'' path = .ok files'' := by
  unfold makeRoom at h ⊢
  cases hup : Files.parent path with
  | none => rfl
  | some up =>
    rw [hup] at h
    dsimp only at h ⊢
    refine if_pos ?_
    by_cases hempty : up = ""
    · exact .inl hempty
    refine .inr (Files.exists_of_write hw ?_)
    split at h
    · rename_i hroom
      exact Except.ok.inj h ▸ hroom.resolve_left hempty
    · exact Files.exists_of_makeFolders hempty h

/-- What is read from a file is what it spells. -/
theorem load_of_read {files : Files} {path text : String} {d : Document}
    (hread : files.read path = .ok (Utf8.encode text)) (hparse : parse text = .ok d) :
    load files path = .ok d := by
  have htext : files.readText path = .ok text := by
    change ((files.read path).bind _) = _
    rw [hread]
    change (Utf8.decode (Utf8.encode text)).mapError _ = _
    rw [Utf8.decode_encode]
    rfl
  rw [load, htext]
  change (parse text).mapError _ = _
  rw [hparse]
  rfl

/-- Documents survive being saved and loaded wherever a document can be saved at all, and saving
them once more writes the same bytes. Numbers that are not whole and configurations that nest deeper
are left open. -/
theorem load_of_save {d : Document} (h : d.Reached) (hwhole : d.toValue.AllWhole)
    (hdepth : ∀ e ∈ d.entries, e.2.toValue.nesting ≤ 126) (files : Files) (path : String)
    (hplace : ∃ files', save {} files path = .ok files') :
    d.ids.Nodup ∧
      ∃ files', d.save files path = .ok files' ∧
        ∃ again, load files' path = .ok again ∧ again = d ∧ again.ids = d.ids ∧
          ∃ files'', again.save files' path = .ok files'' ∧
            files''.read path = files'.read path := by
  refine ⟨h.sound.ids, ?_⟩
  obtain ⟨_, hplace⟩ := hplace
  obtain ⟨room, hroom, hwrite⟩ := save_eq_ok_iff.1 hplace
  obtain ⟨files', hfirst⟩ := Files.write_of_write hwrite (Utf8.encode d.toValue.toIndented)
  obtain ⟨files'', hsecond⟩ := Files.write_over hfirst (Utf8.encode d.toValue.toIndented)
  have hparse : parse d.toValue.toIndented = .ok d := by
    rw [Value.toIndented, ← spell_indented]
    exact parse_spell h.sound hdepth hwhole
  refine ⟨files', save_eq_ok_iff.2 ⟨room, hroom, hfirst⟩, d,
    load_of_read (Files.read_of_write hfirst) hparse, rfl, rfl, files'',
    save_eq_ok_iff.2 ⟨files', makeRoom_of_write hroom hfirst, hsecond⟩, ?_⟩
  rw [Files.read_of_write hsecond, Files.read_of_write hfirst]

/-- Two pipelines, the first by name and with a parameter of the entry itself, the second by
position. -/
def two : Document where
  entries := [
    ("z", ⟨⟨"i", []⟩, ⟨"o", [("n", .number (.whole ⟨-1, by decide⟩))]⟩,
      [⟨"s", { goto := some "" }, [("x", .object [("k", .array [])])]⟩]⟩),
    ("a", ⟨⟨"i", []⟩, ⟨"o", []⟩, []⟩)]

set_option maxRecDepth 4000 in
theorem reached_two : Reached two := by
  have hfirst : parse ("\x7b\"z\":\x7b\"stages\":[\x7b\"x\":\x7b\"k\":[]\x7d,\"type\":\"s\"," ++
      "\"goto\":\"\",\"name\":null\x7d],\"connector_out\":\x7b\"n\":-1,\"type\":\"o\"\x7d," ++
      "\"connector_in\":\x7b\"type\":\"i\"\x7d\x7d\x7d") =
        .ok (two.remove "a") := by
    cbv
  have hsecond : readText Pipeline.read
      (Utf8.encode "[\x7b\"type\":\"i\"\x7d,\x7b\"type\":\"o\"\x7d]") =
        .ok ⟨⟨"i", []⟩, ⟨"o", []⟩, []⟩ := by
    cbv
  exact .remove "q" (.insert "a" (.insert "q" (.parse .empty hfirst) hsecond) hsecond)

theorem load_of_save_two :
    (two.Reached ∧ two.toValue.AllWhole ∧ (∀ e ∈ two.entries, e.2.toValue.nesting ≤ 126) ∧
      ∃ files', save {} .empty "a/p.json" = .ok files') ∧
    two.ids.Nodup ∧
      ∃ files', two.save .empty "a/p.json" = .ok files' ∧
        ∃ again, load files' "a/p.json" = .ok again ∧ again = two ∧ again.ids = two.ids ∧
          ∃ files'', again.save files' "a/p.json" = .ok files'' ∧
            files''.read "a/p.json" = files'.read "a/p.json" := by
  have hwhole : two.toValue.AllWhole := by
    simp [two, toValue, Pipeline.toValue, ConnectorEntry.toValue, StageEntry.toValue,
      Stage.Routing.toMembers, Stage.Routing.textMember, Value.AllWhole]
  have hdepth : ∀ e ∈ two.entries, e.2.toValue.nesting ≤ 126 := by
    decide
  have hplace : save {} .empty "a/p.json" =
      .ok (.folder [("a", .folder [("p.json", .file [0x7b, 0x7d])])]) := by
    cbv
  exact ⟨⟨reached_two, hwhole, hdepth, _, hplace⟩,
    load_of_save reached_two hwhole hdepth .empty "a/p.json" ⟨_, hplace⟩⟩

end Conduit.Config.Document
