import Conduit.Stage.Deciders
import Conduit.Proofs.Json.Outlines

/-!
# Erasing fields

In a document without arrays, taking out one path after the other leaves at every path what was
there, unless the path is listed, or a path to something around it (`Eraser.outline_erased`). The
order of the list does not matter then, nor does it matter that a path is listed twice or below
another one (`Eraser.erases_listed`).
-/

namespace Conduit.Stage.Eraser

open Value

variable {doc : Value} {keys : List String} {key : String} {way : List String} {w : Wrapper}

/-- What is left of a document. -/
def erased (doc : Value) (keys : List String) : Value := (erase? doc keys).getD doc

theorem erased_cons (doc : Value) (key : String) (keys : List String) :
    erased doc (key :: keys) = erased ((doc.remove? key).getD doc) keys := by
  rw [erased, erase?]
  cases doc.remove? key <;> rfl

theorem erase?_eq_none_iff : erase? doc keys = none ↔ ∀ key ∈ keys, doc.remove? key = none := by
  induction keys with
  | nil => simp [erase?]
  | cons key rest ih =>
    rw [erase?, List.forall_mem_cons]
    cases doc.remove? key <;> simp [ih]

/-- What one removal keeps, whether it finds something or not, the whole list keeps. -/
theorem erased_induction {P : Value → Prop} (hstep : ∀ v w key, P v → v.remove? key = some w → P w)
    (h : P doc) : P (erased doc keys) := by
  induction keys generalizing doc with
  | nil => exact h
  | cons key rest ih =>
    rw [erased_cons]
    refine ih ?_
    cases hremove : doc.remove? key with
    | none => exact h
    | some less => exact hstep doc less key h hremove

theorem distinct_erased (hdoc : doc.Distinct) : (erased doc keys).Distinct :=
  erased_induction (fun _ _ _ h hremove ↦ h.removeAt? hremove) hdoc

theorem arrayFree_erased (hfree : doc.ArrayFree) : (erased doc keys).ArrayFree :=
  erased_induction (fun _ _ _ h hremove ↦ h.removeAt? hremove) hfree

/-- Nothing is left where a listed path leads to or through, and all else is as before. -/
theorem outline_erased (hdoc : doc.Distinct) (hfree : doc.ArrayFree) (keys way : List String) :
    ((erased doc keys).walk? way).map outline =
      if ∃ key ∈ keys, Text.split '.' key <+: way then none else (doc.walk? way).map outline := by
  induction keys generalizing doc with
  | nil => simp [erased, erase?]
  | cons key rest ih =>
    have hone := outline_walk?_removeAt? hdoc hfree (Text.split_ne_nil '.' key) way
    have hless : ((doc.remove? key).getD doc).Distinct ∧
        ((doc.remove? key).getD doc).ArrayFree := by
      cases hremove : doc.remove? key with
      | none => exact ⟨hdoc, hfree⟩
      | some less => exact ⟨hdoc.removeAt? hremove, hfree.removeAt? hremove⟩
    rw [erased_cons, ih hless.1 hless.2, remove?, hone]
    by_cases hkey : Text.split '.' key <+: way <;> simp [hkey]

/-- The eraser accepts, and a message without any of the paths stays as it is. -/
theorem exists_apply (hw : w.working.asDocument = .ok doc) (s : Eraser) :
    ∃ after, s.apply w = .ok after ∧ after.accepted = true ∧
      after.working.asDocument = .ok (erased doc s.keys) ∧
        ((∀ key ∈ s.keys, doc.remove? key = none) → after.working = w.working) := by
  rw [apply, Message.document?, hw]
  cases herase : erase? doc s.keys with
  | none =>
    refine ⟨w.accept, ?_, rfl, ?_, fun _ ↦ rfl⟩
    · simp only [Except.mapError, bind, Except.bind, herase]
      rfl
    · rw [erased, herase]
      exact hw
  | some less =>
    refine ⟨{ w with working := w.working.withDocument less }.accept, ?_, rfl, ?_, fun hnone ↦ ?_⟩
    · simp only [Except.mapError, bind, Except.bind, herase]
      rfl
    · rw [erased, herase]
      rfl
    · rw [erase?_eq_none_iff.2 hnone] at herase
      cases herase

/-- A path is listed, or a path to something around it. -/
def Lists (keys : List String) (path : String) : Prop :=
  ∃ key ∈ keys, Text.split '.' key <+: segments path

instance (keys : List String) (path : String) : Decidable (Lists keys path) :=
  inferInstanceAs (Decidable (∃ key ∈ keys, Text.split '.' key <+: segments path))

/-- At a path that is not listed, nor anything around it, a document without arrays shows what it
showed before; at any other it shows nothing. -/
theorem outline_lookup_erased (hdoc : doc.Distinct) (hfree : doc.ArrayFree) (keys : List String)
    (path : String) :
    (Lists keys path → (erased doc keys).lookup path = none) ∧
      (¬ Lists keys path →
        ((erased doc keys).lookup path).map outline = (doc.lookup path).map outline) := by
  have h := outline_erased hdoc hfree keys (segments path)
  refine ⟨fun hlists ↦ ?_, fun hlists ↦ h.trans (if_neg hlists)⟩
  exact Option.map_eq_none_iff.1 (h.trans (if_pos hlists))

/-- The eraser takes out what is listed, and all that is in it, and nothing else. -/
theorem erases_listed (hdoc : doc.Distinct) (hfree : doc.ArrayFree)
    (hw : w.working.asDocument = .ok doc) (keys : List String) :
    ∃ after less, Eraser.apply ⟨keys⟩ w = .ok after ∧ after.accepted = true ∧
      after.working.asDocument = .ok less ∧
      (∀ path x, path ≠ "" → doc.lookup path = some x → x.IsScalar →
        (Lists keys path → less.lookup path = none) ∧
          (¬ Lists keys path → less.lookup path = some x)) ∧
      (∀ path members, doc.lookup path = some (.object members) → ¬ Lists keys path →
        ∃ rest, less.lookup path = some (.object rest)) ∧
      (∀ others, (∀ key, key ∈ others ↔ key ∈ keys) → ∃ after' less',
        Eraser.apply ⟨others⟩ w = .ok after' ∧ after'.working.asDocument = .ok less' ∧
          less.Reorders less') ∧
      ((∀ key ∈ keys, doc.walk? (Text.split '.' key) = none) → after.working = w.working) := by
  obtain ⟨after, hafter, haccepted, hless, hkeeps⟩ := exists_apply hw ⟨keys⟩
  refine ⟨after, _, hafter, haccepted, hless, fun path x _ hx hscalar ↦ ?_,
    fun path members hmembers hlists ↦ ?_, fun others hothers ↦ ?_, fun hnone ↦ hkeeps ?_⟩
  · obtain ⟨hgone, hkept⟩ := outline_lookup_erased hdoc hfree keys path
    refine ⟨hgone, fun hlists ↦ ?_⟩
    obtain ⟨y, hy, houtline⟩ := Option.map_eq_some_iff.1 ((hkept hlists).trans (congrArg _ hx))
    rw [hy, hscalar.eq_of_outline houtline]
  · have hkept := (outline_lookup_erased hdoc hfree keys path).2 hlists
    obtain ⟨y, hy, houtline⟩ := Option.map_eq_some_iff.1 (hkept.trans (congrArg _ hmembers))
    obtain ⟨rest, rfl⟩ := exists_object_of_outline houtline
    exact ⟨rest, hy⟩
  · -- What is seen at a path depends only on which keys are listed.
    obtain ⟨after', hafter', -, hless', -⟩ := exists_apply hw ⟨others⟩
    refine ⟨after', _, hafter', hless', reorders_of_outline (distinct_erased hdoc)
      (distinct_erased hdoc) (arrayFree_erased hfree) fun way ↦ ?_⟩
    rw [outline_erased hdoc hfree, outline_erased hdoc hfree]
    exact if_congr (exists_congr fun key ↦ and_congr_left' (hothers key).symm) rfl rfl
  · exact fun key hkey ↦ (removeAt?_eq_none_iff (Text.split_ne_nil _ _)).2 (hnone key hkey)

/-- A path below another one, in either order, with a path twice and a path to nothing. -/
theorem erases_listed_nested :
    let doc := Value.object
      [("a", .object [("b", .object [("c", .null), ("d", .bool true)])]), ("x", .string "y")]
    let w := Wrapper.ofMessage (.ofDocument "t" doc)
    let keys := ["a.b.c", "x", "a.b.c", "z"]
    Lists keys "a.b.c" ∧ ¬ Lists keys "a.b" ∧ ¬ Lists keys "a.b.d" ∧
      ∃ after less, Eraser.apply ⟨keys⟩ w = .ok after ∧ after.accepted = true ∧
        after.working.asDocument = .ok less ∧
        (∀ path x, path ≠ "" → doc.lookup path = some x → x.IsScalar →
          (Lists keys path → less.lookup path = none) ∧
            (¬ Lists keys path → less.lookup path = some x)) ∧
        (∀ path members, doc.lookup path = some (.object members) → ¬ Lists keys path →
          ∃ rest, less.lookup path = some (.object rest)) ∧
        (∀ others, (∀ key, key ∈ others ↔ key ∈ keys) → ∃ after' less',
          Eraser.apply ⟨others⟩ w = .ok after' ∧ after'.working.asDocument = .ok less' ∧
            less.Reorders less') ∧
        ((∀ key ∈ keys, doc.walk? (Text.split '.' key) = none) → after.working = w.working) :=
  ⟨by decide +kernel, by decide +kernel, by decide +kernel,
    erases_listed (by simp [Distinct, Members.keys]) (by simp [ArrayFree]) rfl _⟩

/-- An object on the way to a listed field does not stay, though it is not listed itself, if the
object around it is listed. -/
theorem enclosed_object_goes :
    let doc := Value.object [("a", .object [("b", .object [("c", .null)])])]
    let w := Wrapper.ofMessage (.ofDocument "t" doc)
    let keys := ["a", "a.b.c"]
    doc.lookup "a.b.c" = some .null ∧ doc.lookup "a.b" = some (.object [("c", .null)]) ∧
      Text.split '.' "a.b" <+: Text.split '.' "a.b.c" ∧ "a.b" ∉ keys ∧
      ∃ after less, Eraser.apply ⟨keys⟩ w = .ok after ∧ after.working.asDocument = .ok less ∧
        less.lookup "a.b" = none := by
  refine ⟨by decide +kernel, by decide +kernel, by decide +kernel, by decide, ?_⟩
  exact ⟨_, .object [], rfl, by decide +kernel, by decide +kernel⟩

end Conduit.Stage.Eraser
