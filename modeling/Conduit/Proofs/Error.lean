import Conduit.Error
import Mathlib.Data.List.Infix
import Mathlib.Data.Nat.Notation

/-!
# Errors known by their text

A text shown for an error of a configuration tells which error it was: no other error is worded like
it (`PipelineError.eq_of_message_eq`).
-/

namespace Conduit.PipelineError

/-- What the text of an error begins with, whatever the error is about. -/
def opening : PipelineError → String
  | .config _ => "Configuration error: "
  | .unknownStageType _ => "Unknown stage type: "
  | .unknownConnectorType _ => "Unknown connector type: "
  | .invalidStage .. => "Stage "
  | .duplicateId _ | .notFound _ => "Pipeline '"
  | .malformed _ => "Pipeline is malformed: "
  | .terminated => "Pipeline has been terminated"
  | .transport _ => "Transport error: "
  | .stage .. => "Stage '"
  | .representation _ => "Representation error: "
  | .script _ => "Script error: "
  | .hopLimit _ => "Message exceeded "
  | .overflow _ => "Queue overflow (capacity "
  | .resourceExhausted _ => "Resource exhausted: "
  | .io _ => "IO error: "
  | .channelSend => "Channel send error"
  | .channelRecv => "Channel receive error"

theorem message_invalidStage (index : Nat) (problem : String) :
    (invalidStage index problem).message =
      "Stage " ++ (index.repr ++ (" is invalid: " ++ problem)) := by
  rw [← String.append_assoc, ← String.append_assoc]
  rfl

theorem message_stage (name problem : String) :
    (stage name problem).message = "Stage '" ++ (name ++ ("' error: " ++ problem)) := by
  rw [← String.append_assoc, ← String.append_assoc]
  rfl

theorem exists_message_eq (e : PipelineError) : ∃ rest, e.message = e.opening ++ rest := by
  cases e
  case invalidStage index problem => exact ⟨_, message_invalidStage index problem⟩
  case stage name problem => exact ⟨_, message_stage name problem⟩
  case duplicateId | notFound => exact ⟨_, String.append_assoc⟩
  case hopLimit limit => exact ⟨limit.repr ++ " stage visits", String.append_assoc⟩
  case overflow capacity => exact ⟨capacity.repr ++ ")", String.append_assoc⟩
  case terminated | channelSend | channelRecv => exact ⟨"", String.append_empty.symm⟩
  all_goals exact ⟨_, rfl⟩

/-- Of two texts that are the same, one begins with the opening of the other. -/
theorem openings_of_message_eq {e e' : PipelineError} (h : e.message = e'.message) :
    e.opening.toList <+: e'.opening.toList ∨ e'.opening.toList <+: e.opening.toList := by
  obtain ⟨rest, hrest⟩ := e.exists_message_eq
  obtain ⟨rest', hrest'⟩ := e'.exists_message_eq
  have hlist : e.opening.toList ++ rest.toList = e'.opening.toList ++ rest'.toList := by
    rw [← String.toList_append, ← String.toList_append, ← hrest, ← hrest', h]
  exact List.prefix_or_prefix_of_prefix ⟨_, hlist⟩ (List.prefix_append _ _)

/-- A number in a text ends before the first character that is no digit. -/
theorem toDigits_append_inj {m n : Nat} {c c' : Char} {rest rest' : List Char}
    (hc : c.isDigit = false) (hc' : c'.isDigit = false)
    (h : Nat.toDigits 10 m ++ c :: rest = Nat.toDigits 10 n ++ c' :: rest') :
    m = n ∧ rest = rest' := by
  have hdigits (n : Nat) : ∀ d ∈ Nat.toDigits 10 n, d.isDigit = true :=
    fun _ hd ↦ Nat.isDigit_of_mem_toDigits (by decide) (by decide) hd
  have hnumber : Nat.toDigits 10 m = Nat.toDigits 10 n := by
    have htake := congrArg (List.takeWhile Char.isDigit) h
    rwa [List.takeWhile_append_of_pos (hdigits m), List.takeWhile_append_of_pos (hdigits n),
      List.takeWhile_cons_of_neg (by simp [hc]), List.takeWhile_cons_of_neg (by simp [hc']),
      List.append_nil, List.append_nil] at htake
  rw [hnumber] at h
  refine ⟨?_, (List.cons.inj (List.append_cancel_left h)).2⟩
  have hvalue := congrArg (Nat.ofDigitChars 10 · 0) hnumber
  rwa [Nat.ofDigitChars_ten_toDigits, Nat.ofDigitChars_ten_toDigits] at hvalue

theorem invalidStage_inj_message {index index' : Nat} {problem problem' : String}
    (h : (invalidStage index problem).message = (invalidStage index' problem').message) :
    index = index' ∧ problem = problem' := by
  rw [message_invalidStage, message_invalidStage, String.append_right_inj, ← String.toList_inj,
    String.toList_append, String.toList_append, String.toList_append, String.toList_append,
    Nat.toList_repr, Nat.toList_repr] at h
  obtain ⟨hindex, hrest⟩ := toDigits_append_inj (by decide) (by decide) h
  exact ⟨hindex, String.toList_inj.1 (List.append_cancel_left hrest)⟩

/-- A name in quotes is no number. -/
theorem message_invalidStage_ne_stage {index : Nat} {problem name problem' : String} :
    (invalidStage index problem).message ≠ (stage name problem').message := by
  intro h
  have hquote : "Stage '".toList = "Stage ".toList ++ ['\''] := by decide
  rw [message_invalidStage, message_stage, ← String.toList_inj, String.toList_append,
    String.toList_append, String.toList_append, String.toList_append, Nat.toList_repr, hquote,
    List.append_assoc] at h
  obtain ⟨c, cs, hcs⟩ := List.exists_cons_of_ne_nil (Nat.toDigits_ne_nil (n := index) (b := 10))
  have hdigit : c.isDigit = true := Nat.isDigit_of_mem_toDigits (b := 10) (n := index)
    (by decide) (by decide) (hcs ▸ List.mem_cons_self)
  rw [hcs] at h
  obtain rfl : c = '\'' := (List.cons.inj (List.append_cancel_left h)).1
  cases hdigit

/-- No text ends in both ways. -/
theorem message_duplicateId_ne_notFound {id id' : String} :
    (duplicateId id).message ≠ (notFound id').message := by
  intro h
  have hlist : ("Pipeline '" ++ id).toList ++ "' already exists".toList =
      ("Pipeline '" ++ id').toList ++ "' not found".toList := by
    rw [← String.toList_append, ← String.toList_append]
    exact congrArg String.toList h
  have hends := List.suffix_or_suffix_of_suffix ⟨_, hlist⟩ (List.suffix_append _ _)
  revert hends
  decide

/-- The text of an error of a configuration tells which error it is. -/
theorem eq_of_message_eq {e e' : PipelineError} (he : e.isConfig = true)
    (h : e'.message = e.message) : e' = e := by
  have hopen := openings_of_message_eq h
  cases e <;> cases he <;> cases e' <;> dsimp only [opening] at hopen
  -- Few openings begin alike: those of one kind of error, and two pairs of kinds.
  case config.refl.config => exact congrArg config ((String.append_right_inj _).1 h)
  case unknownStageType.refl.unknownStageType =>
    exact congrArg unknownStageType ((String.append_right_inj _).1 h)
  case unknownConnectorType.refl.unknownConnectorType =>
    exact congrArg unknownConnectorType ((String.append_right_inj _).1 h)
  case invalidStage.refl.invalidStage =>
    obtain ⟨rfl, rfl⟩ := invalidStage_inj_message h
    rfl
  case invalidStage.refl.stage => exact absurd h.symm message_invalidStage_ne_stage
  case duplicateId.refl.duplicateId =>
    exact congrArg duplicateId ((String.append_right_inj _).1 ((String.append_left_inj _).1 h))
  case duplicateId.refl.notFound => exact absurd h.symm message_duplicateId_ne_notFound
  all_goals exact absurd hopen (by decide)

end Conduit.PipelineError
