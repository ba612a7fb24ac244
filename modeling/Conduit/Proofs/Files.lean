import Conduit.Files
import Conduit.Proofs.Basic

/-!
# Files written and read

What was written to a path is read from it (`Files.read_of_write`), whatever stood at a path before
is still there unless it is what was written (`Files.exists_of_write`), and whether a path can be
written to does not depend on what is written (`Files.write_of_write`). What is added to a file
stands behind what was read from it (`Files.read_of_append`). Making folders changes no file
(`Files.read_of_makeFolders`), and once they are made nothing is left to do
(`Files.Folded.makeFolders_eq`).
-/

namespace Conduit.Files

variable {entries : List (String × Files)}

theorem lookup_setEntry (name other : String) (f : Files) (l : List (String × Files)) :
    (setEntry name f l).lookup other = if other = name then some f else l.lookup other := by
  induction l with
  | nil => exact lookup_cons_eq_ite name other f []
  | cons e rest ih =>
    obtain ⟨n, g⟩ := e
    unfold setEntry
    split
    · rename_i h
      subst h
      simp only [lookup_cons_eq_ite]
      split <;> rfl
    · rename_i h
      simp only [lookup_cons_eq_ite, ih]
      by_cases ho : other = n
      · have hne : other ≠ name := ho ▸ h
        simp [ho, h]
      · simp [ho]

/-! ## Walks -/

/-- A name that stays where it is. -/
abbrev Stays (name : String) : Prop := name = "" ∨ name = "."

theorem walk_stay {name : String} (h : Stays name) (rest : List String) :
    walk (.folder entries) (name :: rest) = walk (.folder entries) rest := by
  rw [walk]
  exact if_pos h

theorem walk_enter {name : String} (h : ¬ Stays name) (rest : List String) :
    walk (.folder entries) (name :: rest) =
      match entries.lookup name with
      | some f => walk f rest
      | none => .error .notFound := by
  rw [walk]
  exact if_neg h

theorem exists_of_walk {name : String} (h : ¬ Stays name) {rest : List String} {a : Files}
    (hwalk : walk (.folder entries) (name :: rest) = .ok a) :
    ∃ f, entries.lookup name = some f ∧ f.walk rest = .ok a := by
  rw [walk_enter h] at hwalk
  split at hwalk
  · rename_i f hf
    exact ⟨f, hf, hwalk⟩
  · cases hwalk

/-- A folder is still one. -/
def Remains (a b : Files) : Prop :=
  ∀ entries, a = .folder entries → ∃ entries', b = .folder entries'

theorem Remains.refl (a : Files) : a.Remains a := fun entries h ↦ ⟨entries, h⟩

/-- Walks still end somewhere if one entry is changed and walks from it still end somewhere. -/
theorem walk_setEntry {name : String} {g : Files}
    (h : ∀ f, entries.lookup name = some f → ∀ {names a}, f.walk names = .ok a →
      ∃ b, g.walk names = .ok b ∧ a.Remains b)
    {names : List String} {a : Files} (hwalk : (folder entries).walk names = .ok a) :
    ∃ b, (folder (setEntry name g entries)).walk names = .ok b ∧ a.Remains b := by
  induction names with
  | nil => exact ⟨_, by rw [walk], fun _ _ ↦ ⟨_, rfl⟩⟩
  | cons other rest ih =>
    by_cases hstay : Stays other
    · rw [walk_stay hstay] at hwalk ⊢
      exact ih hwalk
    · obtain ⟨f, hf, hrest⟩ := exists_of_walk hstay hwalk
      rw [walk_enter hstay, lookup_setEntry]
      by_cases hother : other = name
      · rw [if_pos hother]
        exact h f (hother ▸ hf) hrest
      · rw [if_neg hother, hf]
        exact ⟨a, hrest, .refl a⟩

/-- Walks end at a file only if they did, if one entry is changed and that is so for walks from
it. -/
theorem walk_setEntry_file {name : String} {g : Files} {content : Bytes}
    (h : ∀ {names}, g.walk names = .ok (.file content) →
      ∃ f, entries.lookup name = some f ∧ f.walk names = .ok (.file content))
    {names : List String}
    (hwalk : (folder (setEntry name g entries)).walk names = .ok (.file content)) :
    (folder entries).walk names = .ok (.file content) := by
  induction names with
  | nil =>
    rw [walk] at hwalk
    cases hwalk
  | cons other rest ih =>
    by_cases hstay : Stays other
    · rw [walk_stay hstay] at hwalk ⊢
      exact ih hwalk
    · rw [walk_enter hstay, lookup_setEntry] at hwalk
      rw [walk_enter hstay]
      by_cases hother : other = name
      · rw [if_pos hother] at hwalk
        obtain ⟨f, hf, hfile⟩ := h hwalk
        rw [hother, hf]
        exact hfile
      · rw [if_neg hother] at hwalk
        exact hwalk

/-- An empty folder leads to no file. -/
theorem walk_empty_ne_file (names : List String) (content : Bytes) :
    empty.walk names ≠ .ok (.file content) := by
  induction names with
  | nil =>
    intro h
    rw [walk] at h
    cases h
  | cons name rest ih =>
    intro h
    by_cases hstay : Stays name
    · exact ih ((walk_stay hstay rest).symm.trans h)
    · obtain ⟨f, hf, -⟩ := exists_of_walk hstay h
      cases hf

section

variable {change : Option Files → Except FileError Files}

/-- The ways in which an update succeeds. -/
inductive Updates (change : Option Files → Except FileError Files) :
    Files → List String → Files → Prop
  | here {f g : Files} : change (some f) = .ok g → Updates change f [] g
  | stay {entries : List (String × Files)} {name : String} {rest : List String} {g : Files} :
      Stays name → Updates change (.folder entries) rest g →
        Updates change (.folder entries) (name :: rest) g
  | enter {entries : List (String × Files)} {name : String} {rest : List String} {f g : Files} :
      ¬ Stays name → entries.lookup name = some f → Updates change f rest g →
        Updates change (.folder entries) (name :: rest) (.folder (setEntry name g entries))
  | new {entries : List (String × Files)} {name : String} {g : Files} :
      ¬ Stays name → entries.lookup name = none → change none = .ok g →
        Updates change (.folder entries) [name] (.folder (setEntry name g entries))

theorem updates_of_update {f g : Files} {names : List String} (h : update change f names = .ok g) :
    Updates change f names g := by
  induction names generalizing f g with
  | nil =>
    rw [update] at h
    exact .here h
  | cons name rest ih =>
    cases f with
    | file content =>
      rw [update] at h
      cases h
    | folder entries =>
      rw [update] at h
      split at h
      · rename_i hstay
        exact .stay hstay (ih h)
      · rename_i hstay
        split at h
        · rename_i f hf
          obtain ⟨g, hg, rfl⟩ := map_eq_ok h
          exact .enter hstay hf (ih hg)
        · rename_i hnone
          split at h
          · rename_i hlast
            obtain ⟨g, hg, rfl⟩ := map_eq_ok h
            subst hlast
            exact .new hstay hnone hg
          · cases h

theorem Updates.update_eq {f g : Files} {names : List String} (h : Updates change f names g) :
    update change f names = .ok g := by
  induction h with
  | here h =>
    rw [update]
    exact h
  | stay hstay _ ih =>
    rw [update]
    exact (if_pos hstay).trans ih
  | enter hstay hf _ ih =>
    rw [update, if_neg hstay, hf]
    dsimp only
    rw [ih]
    rfl
  | new hstay hnone h =>
    rw [update, if_neg hstay, hnone, if_pos rfl, h]
    rfl

section

variable (hfolder : ∀ entries g, change (some (.folder entries)) ≠ .ok g)

include hfolder in
/-- A folder stays a folder. -/
theorem Updates.eq_folder {f g : Files} {names : List String} (h : Updates change f names g)
    (hf : f = .folder entries) : ∃ entries', g = .folder entries' := by
  induction h with
  | here h => exact absurd h (hf ▸ hfolder entries _)
  | stay _ _ ih =>
    obtain rfl := folder.inj hf
    exact ih rfl
  | enter => exact ⟨_, rfl⟩
  | new => exact ⟨_, rfl⟩

include hfolder in
/-- The walk along the same names ends at what the change made of what they led to. -/
theorem Updates.walk {f g : Files} {names : List String} (h : Updates change f names g) :
    ∃ new, change (f.walk names).toOption = .ok new ∧ g.walk names = .ok new := by
  induction h with
  | @here f g h =>
    refine ⟨g, ?_, by rw [Files.walk]⟩
    rw [Files.walk]
    exact h
  | @stay entries name rest g hstay hrest ih =>
    obtain ⟨new, hnew, hwalk⟩ := ih
    obtain ⟨entries', rfl⟩ := hrest.eq_folder hfolder rfl
    exact ⟨new, by rwa [walk_stay hstay], (walk_stay hstay rest).trans hwalk⟩
  | @enter entries name rest f g hstay hf _ ih =>
    obtain ⟨new, hnew, hwalk⟩ := ih
    refine ⟨new, ?_, ?_⟩
    · rwa [walk_enter hstay, hf]
    · rw [walk_enter hstay, lookup_setEntry, if_pos rfl]
      exact hwalk
  | @new entries name g hstay hnone h =>
    refine ⟨g, ?_, ?_⟩
    · rw [walk_enter hstay, hnone]
      exact h
    · rw [walk_enter hstay, lookup_setEntry, if_pos rfl]
      dsimp only
      rw [Files.walk]

include hfolder in
/-- All walks that ended somewhere still do, and in folders if they did. -/
theorem Updates.walk_other {f g : Files} {names : List String} (h : Updates change f names g)
    {others : List String} {a : Files} (hwalk : f.walk others = .ok a) :
    ∃ b, g.walk others = .ok b ∧ a.Remains b := by
  induction h generalizing others a with
  | @here f g h =>
    cases f with
    | folder entries => exact absurd h (hfolder entries g)
    | file content =>
      cases others with
      | nil =>
        rw [Files.walk] at hwalk
        obtain rfl := Except.ok.inj hwalk
        exact ⟨g, by rw [Files.walk], fun entries he ↦ by cases he⟩
      | cons name rest =>
        rw [Files.walk] at hwalk
        cases hwalk
  | stay _ _ ih => exact ih hwalk
  | @enter entries name rest f g hstay hf _ ih =>
    refine walk_setEntry (fun f' hf' ↦ ?_) hwalk
    obtain rfl := Option.some.inj (hf.symm.trans hf')
    exact ih
  | @new entries name g hstay hnone h =>
    exact walk_setEntry (fun f hf ↦ absurd (hnone.symm.trans hf) (by simp)) hwalk

end

/-- Another change that may be made wherever this one may be. -/
theorem Updates.other {change' : Option Files → Except FileError Files}
    (hother : ∀ old g, change old = .ok g → ∃ g', change' old = .ok g') {f g : Files}
    {names : List String} (h : Updates change f names g) : ∃ g', Updates change' f names g' := by
  induction h with
  | here h =>
    obtain ⟨g', hg'⟩ := hother _ _ h
    exact ⟨g', .here hg'⟩
  | stay hstay _ ih =>
    obtain ⟨g', hg'⟩ := ih
    exact ⟨g', .stay hstay hg'⟩
  | enter hstay hf _ ih =>
    obtain ⟨g', hg'⟩ := ih
    exact ⟨_, .enter hstay hf hg'⟩
  | new hstay hnone h =>
    obtain ⟨g', hg'⟩ := hother _ _ h
    exact ⟨_, .new hstay hnone hg'⟩

/-- Where something was made, and only where nothing was, walks end at files only if they did. -/
theorem Updates.walk_file
    (hmake : ∀ old g, change old = .ok g → old = none ∧ g = empty) {f g : Files}
    {names : List String} (h : Updates change f names g) {others : List String} {content : Bytes}
    (hwalk : g.walk others = .ok (.file content)) : f.walk others = .ok (.file content) := by
  induction h generalizing others with
  | here h => exact absurd (hmake _ _ h).1 nofun
  | stay _ _ ih => exact ih hwalk
  | enter _ hf _ ih => exact walk_setEntry_file (fun h ↦ ⟨_, hf, ih h⟩) hwalk
  | new _ _ h =>
    obtain rfl := (hmake _ _ h).2
    exact walk_setEntry_file (fun h ↦ absurd h (walk_empty_ne_file _ _)) hwalk

/-- An update fails with the change. -/
theorem update_error_of_walk {f old : Files} {names : List String} {e : FileError}
    (hwalk : f.walk names = .ok old) (hchange : change (some old) = .error e) :
    update change f names = .error e := by
  induction names generalizing f with
  | nil =>
    rw [walk] at hwalk
    obtain rfl := Except.ok.inj hwalk
    rw [update, hchange]
  | cons name rest ih =>
    cases f with
    | file content =>
      rw [walk] at hwalk
      cases hwalk
    | folder entries =>
      by_cases hstay : Stays name
      · rw [update, if_pos hstay]
        exact ih ((walk_stay hstay rest).symm.trans hwalk)
      · obtain ⟨f, hf, hrest⟩ := exists_of_walk hstay hwalk
        rw [update, if_neg hstay, hf]
        dsimp only
        rw [ih hrest]
        rfl

/-- A change may be made wherever a walk ends at something that may be changed. -/
theorem updates_of_walk {f old new : Files} {names : List String} (hwalk : f.walk names = .ok old)
    (hchange : change (some old) = .ok new) : ∃ g, Updates change f names g := by
  induction names generalizing f with
  | nil =>
    rw [walk] at hwalk
    obtain rfl := Except.ok.inj hwalk
    exact ⟨new, .here hchange⟩
  | cons name rest ih =>
    cases f with
    | file content =>
      rw [walk] at hwalk
      cases hwalk
    | folder entries =>
      by_cases hstay : Stays name
      · obtain ⟨g, hg⟩ := ih ((walk_stay hstay rest).symm.trans hwalk)
        exact ⟨g, .stay hstay hg⟩
      · obtain ⟨f, hf, hrest⟩ := exists_of_walk hstay hwalk
        obtain ⟨g, hg⟩ := ih hrest
        exact ⟨_, .enter hstay hf hg⟩

end

/-! ## Files by path -/

section

variable {root root' : Files} {path other : String} {content : Bytes} {f : Bytes → Bytes}

theorem walk_of_find {a : Files} (h : root.find path = .ok a) :
    path ≠ "" ∧ root.walk (names path) = .ok a := by
  rw [find] at h
  split at h
  · cases h
  · rename_i hpath
    exact ⟨hpath, h⟩

theorem find_of_walk {a : Files} (hpath : path ≠ "") (h : root.walk (names path) = .ok a) :
    root.find path = .ok a := by rw [find, if_neg hpath, h]

theorem isFolder_iff :
    root.isFolder path = true ↔ ∃ entries, root.find path = .ok (.folder entries) := by
  rw [isFolder]
  split
  · rename_i entries h
    exact iff_of_true rfl ⟨entries, h⟩
  · rename_i h
    exact iff_of_false nofun fun ⟨entries, hfind⟩ ↦ h entries hfind

theorem read_eq_ok_iff : root.read path = .ok content ↔ root.find path = .ok (.file content) := by
  rw [read]
  rcases root.find path with e | (c | entries)
  · exact ⟨nofun, nofun⟩
  · exact ⟨fun h ↦ by rw [Except.ok.inj h], fun h ↦ congrArg Except.ok (file.inj (Except.ok.inj h))⟩
  · exact ⟨nofun, nofun⟩

/-- What an edit makes of what is there. -/
def rework (f : Bytes → Bytes) : Option Files → Except FileError Files
  | none => .ok (.file (f []))
  | some (.file content) => .ok (.file (f content))
  | some (.folder _) => .error .isDirectory

theorem rework_folder (f : Bytes → Bytes) (entries : List (String × Files)) (g : Files) :
    rework f (some (.folder entries)) ≠ .ok g := nofun

theorem edit_eq_ok_iff : root.edit path f = .ok root' ↔
    path ≠ "" ∧ Updates (rework f) root (names path) root' := by
  have hedit : root.edit path f = if path = "" then .error .notFound
      else root.update (rework f) (names path) := by
    rw [edit]
    refine if_congr Iff.rfl rfl (congrArg (root.update · (names path)) (funext fun old ↦ ?_))
    rcases old with - | - | - <;> rfl
  rw [hedit]
  by_cases h : path = ""
  · simp [h]
  · rw [if_neg h]
    exact ⟨fun hu ↦ ⟨h, updates_of_update hu⟩, fun hu ↦ hu.2.update_eq⟩

/-- What stands there after an edit is what it made of the content before, if there was any. -/
theorem read_of_edit (h : root.edit path f = .ok root') :
    root'.read path = .ok (f ((root.read path).toOption.getD [])) := by
  obtain ⟨hpath, hu⟩ := edit_eq_ok_iff.1 h
  obtain ⟨new, hnew, hwalk⟩ := hu.walk (rework_folder f)
  rw [read_eq_ok_iff, find_of_walk hpath hwalk, read, find, if_neg hpath]
  generalize root.walk (names path) = old at hnew
  rcases old with e | (c | entries)
  · exact congrArg Except.ok (Except.ok.inj hnew).symm
  · exact congrArg Except.ok (Except.ok.inj hnew).symm
  · exact absurd hnew (rework_folder f entries new)

/-- Nothing goes away, and folders stay folders. -/
theorem find_of_edit (h : root.edit path f = .ok root') {a : Files}
    (hfind : root.find other = .ok a) :
    ∃ b, root'.find other = .ok b ∧ a.Remains b := by
  obtain ⟨-, hu⟩ := edit_eq_ok_iff.1 h
  obtain ⟨hother, hwalk⟩ := walk_of_find hfind
  obtain ⟨b, hb, hremains⟩ := hu.walk_other (rework_folder f) hwalk
  exact ⟨b, find_of_walk hother hb, hremains⟩

/-- Where one edit can be made, any can. -/
theorem edit_of_edit (h : root.edit path f = .ok root') (f' : Bytes → Bytes) :
    ∃ root'', root.edit path f' = .ok root'' := by
  obtain ⟨hpath, hu⟩ := edit_eq_ok_iff.1 h
  have hother : ∃ g, Updates (rework f') root (names path) g := hu.other fun old g hg ↦ by
    match old with
    | none => exact ⟨_, rfl⟩
    | some (.file _) => exact ⟨_, rfl⟩
    | some (.folder entries) => exact absurd hg (rework_folder f entries g)
  obtain ⟨g, hg⟩ := hother
  exact ⟨g, edit_eq_ok_iff.2 ⟨hpath, hg⟩⟩

/-- What can be read can be edited. -/
theorem edit_of_read (h : root.read path = .ok content) (f : Bytes → Bytes) :
    ∃ root', root.edit path f = .ok root' := by
  obtain ⟨hpath, hwalk⟩ := walk_of_find (read_eq_ok_iff.1 h)
  have hover : rework f (some (.file content)) = .ok (.file (f content)) := rfl
  obtain ⟨g, hg⟩ := updates_of_walk hwalk hover
  exact ⟨g, edit_eq_ok_iff.2 ⟨hpath, hg⟩⟩

/-- What was written is read. -/
theorem read_of_write (h : root.write path content = .ok root') :
    root'.read path = .ok content := read_of_edit h

/-- What was added stands behind what was there. -/
theorem read_of_append {bytes : Bytes} (hread : root.read path = .ok content)
    (h : root.append path bytes = .ok root') : root'.read path = .ok (content ++ bytes) := by
  rw [read_of_edit h, hread]
  rfl

theorem exists_of_write (h : root.write path content = .ok root')
    (hother : root.exists other = true) : root'.exists other = true := by
  unfold «exists» at hother ⊢
  cases hfind : root.find other with
  | error e =>
    rw [hfind] at hother
    cases hother
  | ok a =>
    obtain ⟨b, hb, -⟩ := find_of_edit h hfind
    rw [hb]
    rfl

theorem isFolder_of_edit (h : root.edit path f = .ok root') (hother : root.isFolder other = true) :
    root'.isFolder other = true := by
  obtain ⟨entries, hfind⟩ := isFolder_iff.1 hother
  obtain ⟨b, hb, hremains⟩ := find_of_edit h hfind
  obtain ⟨entries', rfl⟩ := hremains entries rfl
  exact isFolder_iff.2 ⟨entries', hb⟩

/-- Where one thing can be written, anything can. -/
theorem write_of_write (h : root.write path content = .ok root') (content' : Bytes) :
    ∃ root'', root.write path content' = .ok root'' := edit_of_edit h _

/-- What was written can be written over. -/
theorem write_over (h : root.write path content = .ok root') (content' : Bytes) :
    ∃ root'', root'.write path content' = .ok root'' := edit_of_read (read_of_write h) _

/-! ## Folders by path -/

/-- What making a folder makes of what is there. -/
def found : Option Files → Except FileError Files
  | none => .ok empty
  | some _ => .error .exists

theorem found_eq_ok {old : Option Files} {g : Files} (h : found old = .ok g) :
    old = none ∧ g = empty := by
  cases old with
  | none => exact ⟨rfl, (Except.ok.inj h).symm⟩
  | some a => exact absurd h nofun

theorem makeFolder_eq (root : Files) (path : String) :
    root.makeFolder path = if path = "" then .error .notFound
      else root.update found (names path) := by
  rw [makeFolder]
  refine if_congr Iff.rfl rfl (congrArg (root.update · (names path)) (funext fun old ↦ ?_))
  rcases old with - | - <;> rfl

theorem makeFolder_eq_ok (h : root.makeFolder path = .ok root') :
    path ≠ "" ∧ Updates found root (names path) root' := by
  rw [makeFolder_eq] at h
  split at h
  · cases h
  · rename_i hpath
    exact ⟨hpath, updates_of_update h⟩

/-- A folder that was made is there. -/
theorem isFolder_of_makeFolder (h : root.makeFolder path = .ok root') :
    root'.isFolder path = true := by
  obtain ⟨hpath, hu⟩ := makeFolder_eq_ok h
  obtain ⟨new, hnew, hwalk⟩ := hu.walk fun _ _ hfound ↦ absurd (found_eq_ok hfound).1 nofun
  obtain ⟨-, rfl⟩ := found_eq_ok hnew
  exact isFolder_iff.2 ⟨[], find_of_walk hpath hwalk⟩

/-- The path leads to a folder, or nowhere else than where it starts. -/
def Folded (root : Files) (path : String) : Prop := names path = [] ∨ root.isFolder path = true

/-- A folder that is there need not be made. -/
theorem Folded.makeFolders_eq (h : root.Folded path) : root.makeFolders path = .ok root := by
  rw [makeFolders]
  cases hnames : names path with
  | nil => rw [List.length_nil, makeFolders.go]
  | cons name rest =>
    have hfolder := h.resolve_left (by rw [hnames]; exact nofun)
    obtain ⟨entries, hfind⟩ := isFolder_iff.1 hfolder
    obtain ⟨hpath, hwalk⟩ := walk_of_find hfind
    have hmake : root.makeFolder path = .error .exists := by
      rw [makeFolder_eq, if_neg hpath]
      exact update_error_of_walk hwalk rfl
    rw [List.length_cons, makeFolders.go, if_neg hpath, hmake]
    exact if_pos hfolder

theorem Folded.edit (h : root.Folded other) (hedit : root.edit path f = .ok root') :
    root'.Folded other := h.imp_right (isFolder_of_edit hedit)

/-- Folders that were made are there. -/
theorem folded_of_makeFolders (hpath : path ≠ "") (h : root.makeFolders path = .ok root') :
    root'.Folded path := by
  rw [makeFolders] at h
  cases hnames : names path with
  | nil => exact .inl hnames
  | cons name rest =>
    refine .inr ?_
    rw [hnames, List.length_cons, makeFolders.go, if_neg hpath] at h
    split at h
    · rename_i hmake
      exact Except.ok.inj h ▸ isFolder_of_makeFolder hmake
    · split at h
      · cases h
      · obtain ⟨_, -, h⟩ := bind_eq_ok h
        exact isFolder_of_makeFolder h
    · split at h
      · rename_i hfolder
        exact Except.ok.inj h ▸ hfolder
      · cases h

theorem exists_of_makeFolders (hpath : path ≠ "") (h : root.makeFolders path = .ok root') :
    root'.exists path = true := by
  rw [«exists», find, if_neg hpath]
  rcases folded_of_makeFolders hpath h with hnames | hfolder
  · rw [hnames, walk]
    rfl
  · obtain ⟨entries, hfind⟩ := isFolder_iff.1 hfolder
    rw [(walk_of_find hfind).2]
    rfl

/-- What is read after a folder was made could be read before. -/
theorem read_of_makeFolder (h : root.makeFolder path = .ok root')
    (hread : root'.read other = .ok content) : root.read other = .ok content := by
  obtain ⟨-, hu⟩ := makeFolder_eq_ok h
  obtain ⟨hother, hwalk⟩ := walk_of_find (read_eq_ok_iff.1 hread)
  exact read_eq_ok_iff.2 (find_of_walk hother (hu.walk_file (fun _ _ ↦ found_eq_ok) hwalk))

/-- What is read after folders were made could be read before. -/
theorem read_of_makeFolders (h : root.makeFolders path = .ok root')
    (hread : root'.read other = .ok content) : root.read other = .ok content := by
  rw [makeFolders] at h
  generalize (names path).length = n at h
  -- each folder on the way is made by a step of its own
  induction n generalizing path root' with
  | zero => exact Except.ok.inj (h : Except.ok root = .ok root') ▸ hread
  | succ n ih =>
    rw [makeFolders.go] at h
    split at h
    · exact Except.ok.inj h ▸ hread
    split at h
    · rename_i hmake
      exact read_of_makeFolder (Except.ok.inj h ▸ hmake) hread
    · split at h
      · cases h
      · obtain ⟨_, hup, hmake⟩ := bind_eq_ok h
        exact ih (read_of_makeFolder hmake hread) hup
    · split at h
      · exact Except.ok.inj h ▸ hread
      · cases h

end

end Conduit.Files
