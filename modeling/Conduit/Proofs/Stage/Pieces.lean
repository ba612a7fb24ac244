import Mathlib.Data.List.Basic
import Mathlib.Data.Nat.Basic
import Mathlib.Order.Basic
import Conduit.Proofs.Stage.Splitter

/-!
# Parts and pieces

A list is cut in parts of one size, of which only the last may be shorter (`Partitions`). The parts
can be found by their bounds, computed in words of 64 bits: however long the parts are to be, no
word overflows and no bound lies outside the list (`partAt?_eq`). A splitter makes one piece of each
part, with its number on it (`Splitter.partitions_process`).
-/

namespace Conduit.Stage

variable {α : Type} {size i : Nat} {l : List α}

/-! ## Chunks by their numbers -/

theorem getElem?_chunks (hsize : 0 < size) (l : List α) (i : Nat) :
    (chunks size l)[i]? =
      if i * size < l.length then some ((l.drop (i * size)).take size) else none := by
  fun_induction chunks size l generalizing i with
  | case1 l h =>
    obtain rfl := h.resolve_left (Nat.ne_of_gt hsize)
    rfl
  | case2 l h ih =>
    obtain ⟨-, hl⟩ := not_or.1 h
    cases i with
    | zero => rw [Nat.zero_mul, if_pos (List.length_pos_iff.2 hl)]; rfl
    | succ i =>
      have hiff : i * size < (l.drop size).length ↔ (i + 1) * size < l.length := by
        rw [List.length_drop, Nat.succ_mul]
        omega
      rw [List.getElem?_cons_succ, ih i, List.drop_drop, Nat.add_comm size, ← Nat.succ_mul]
      exact if_congr hiff rfl rfl

theorem lt_length_chunks_iff (hsize : 0 < size) :
    i < (chunks size l).length ↔ i * size < l.length := by
  rw [← not_iff_not, Nat.not_lt, ← List.getElem?_eq_none_iff, getElem?_chunks hsize]
  simp

theorem getElem_chunks (hsize : 0 < size) (h : i < (chunks size l).length) :
    (chunks size l)[i] = (l.drop (i * size)).take size := by
  have hget := getElem?_chunks hsize l i
  rw [List.getElem?_eq_getElem h, if_pos ((lt_length_chunks_iff hsize).1 h)] at hget
  exact Option.some.inj hget

/-- There are as many chunks as it takes. -/
theorem length_chunks (hsize : 0 < size) (l : List α) :
    (chunks size l).length = (l.length + size - 1) / size := by
  refine eq_of_forall_lt_iff fun i ↦ (lt_length_chunks_iff hsize).trans ?_
  rw [Nat.lt_iff_add_one_le, Nat.lt_iff_add_one_le, Nat.le_div_iff_mul_le hsize, Nat.succ_mul]
  omega

/-! ## Bounds in words -/

section

variable {a b : UInt64}

/-- The sum of two words, if it is a word. -/
def add? (a b : UInt64) : Option UInt64 :=
  if a.toNat + b.toNat < 0x10000000000000000 then some (a + b) else none

/-- The product of two words, if it is a word. -/
def mul? (a b : UInt64) : Option UInt64 :=
  if a.toNat * b.toNat < 0x10000000000000000 then some (a * b) else none

theorem exists_add? (h : a.toNat + b.toNat < 0x10000000000000000) :
    ∃ c, add? a b = some c ∧ c.toNat = a.toNat + b.toNat :=
  ⟨a + b, if_pos h, by rw [UInt64.toNat_add, Nat.mod_eq_of_lt h]⟩

theorem exists_mul? (h : a.toNat * b.toNat < 0x10000000000000000) :
    ∃ c, mul? a b = some c ∧ c.toNat = a.toNat * b.toNat :=
  ⟨a * b, if_pos h, by rw [UInt64.toNat_mul, Nat.mod_eq_of_lt h]⟩

/-- How many parts of a size there are, rounded up, if it is a word. -/
def count? (size length : UInt64) : Option UInt64 :=
  if length % size = 0 then some (length / size) else add? (length / size) 1

/-- What stands between two places of a list, if the list has these places. -/
def slice? (l : List α) (start stop : Nat) : Option (List α) :=
  if start ≤ stop ∧ stop ≤ l.length then some ((l.take stop).drop start) else none

/-- The part with a number, found by its bounds: from the number times the size to the next number
times the size, or to the end of the list. -/
def partAt? (size : UInt64) (l : List α) (i : UInt64) : Option (List α) := do
  let stop ← mul? (← add? i 1) size
  let start ← mul? i size
  slice? l start.toNat (min stop (.ofNat l.length)).toNat

end

section

variable {size i : UInt64} {l : List α}

theorem toNat_ofNat {n : Nat} (h : n < 0x8000000000000000) : (UInt64.ofNat n).toNat = n :=
  UInt64.toNat_ofNat_of_lt' (Nat.lt_trans h (by decide))

/-- The next number times the size is a word, though it may lie far behind the end of the list: if
the size is larger than the list there is one part only. -/
theorem bound_lt (hlength : l.length < 0x8000000000000000) (hi : i.toNat * size.toNat < l.length) :
    (i.toNat + 1) * size.toNat < 0x10000000000000000 := by
  have hsize := size.toNat_lt
  cases hzero : i.toNat with
  | zero => rwa [Nat.zero_add, Nat.one_mul]
  | succ k =>
    have hle : size.toNat ≤ i.toNat * size.toNat := by
      rw [hzero, Nat.succ_mul]
      exact Nat.le_add_left _ _
    rw [← hzero, Nat.succ_mul]
    omega

/-- The bounds of a part are words, and they lie in the list. -/
theorem partAt?_eq (hsize : 0 < size.toNat) (hlength : l.length < 0x8000000000000000)
    (hi : i.toNat * size.toNat < l.length) :
    partAt? size l i = some ((l.drop (i.toNat * size.toNat)).take size.toNat) := by
  have hbound := bound_lt hlength hi
  have hnumber : i.toNat + 1 ≤ (i.toNat + 1) * size.toNat := Nat.le_mul_of_pos_right _ hsize
  obtain ⟨next, hnext, hnext'⟩ := exists_add? (a := i) (b := 1) (Nat.lt_of_le_of_lt hnumber hbound)
  replace hnext' : next.toNat = i.toNat + 1 := hnext'
  obtain ⟨stop, hstop, hstop'⟩ := exists_mul? (a := next) (b := size) (hnext' ▸ hbound)
  obtain ⟨start, hstart, hstart'⟩ := exists_mul? (a := i) (b := size) (by omega)
  have hend : (min stop (.ofNat l.length)).toNat = min ((i.toNat + 1) * size.toNat) l.length := by
    rw [UInt64.toNat_min, hstop', hnext', toNat_ofNat hlength]
  have hwithin : i.toNat * size.toNat ≤ min ((i.toNat + 1) * size.toNat) l.length ∧
      min ((i.toNat + 1) * size.toNat) l.length ≤ l.length := by
    rw [Nat.succ_mul]
    omega
  simp only [partAt?, hnext, hstop, hstart, Option.bind_eq_bind, Option.bind_some]
  rw [hend, hstart', slice?, if_pos hwithin, List.drop_take]
  refine congrArg some (List.take_eq_take_iff.2 ?_)
  rw [List.length_drop, Nat.succ_mul]
  omega

/-- The number of parts is a word. -/
theorem count?_eq (hsize : 0 < size.toNat) (hlength : l.length < 0x8000000000000000) :
    count? size (.ofNat l.length) = some (.ofNat (chunks size.toNat l).length) := by
  have hle : l.length / size.toNat ≤ l.length := Nat.div_le_self l.length size.toNat
  have hmod := Nat.div_add_mod' l.length size.toNat
  have hless := Nat.mod_lt l.length hsize
  have hquotient : UInt64.ofNat l.length / size = .ofNat (l.length / size.toNat) := by
    rw [← UInt64.toNat_inj, UInt64.toNat_div, toNat_ofNat hlength,
      toNat_ofNat (Nat.lt_of_le_of_lt hle hlength)]
  have hzero : UInt64.ofNat l.length % size = 0 ↔ l.length % size.toNat = 0 := by
    rw [← UInt64.toNat_inj, UInt64.toNat_mod, toNat_ofNat hlength]
    rfl
  rw [length_chunks hsize, count?, hquotient]
  by_cases hrest : l.length % size.toNat = 0
  · have hcount : (l.length + size.toNat - 1) / size.toNat = l.length / size.toNat :=
      Nat.div_eq_of_lt_le (by omega) (by rw [Nat.succ_mul]; omega)
    rw [if_pos (hzero.2 hrest), hcount]
  · have hcount : (l.length + size.toNat - 1) / size.toNat = l.length / size.toNat + 1 :=
      Nat.div_eq_of_lt_le (by rw [Nat.succ_mul]; omega) (by rw [Nat.succ_mul, Nat.succ_mul]; omega)
    have hroom : l.length / size.toNat + (1 : UInt64).toNat < 0x10000000000000000 :=
      show l.length / size.toNat + 1 < 0x10000000000000000 by omega
    rw [if_neg (hrest ∘ hzero.1), hcount, UInt64.ofNat_add, add?,
      toNat_ofNat (Nat.lt_of_le_of_lt hle hlength), if_pos hroom]
    rfl

end

/-! ## Parts -/

/-- The list in parts of one size. -/
structure Partitions (size : Nat) (l : List α) (parts : List (List α)) : Prop where
  /-- There are as many parts as it takes, so none of an empty list. -/
  count : parts.length = (l.length + size - 1) / size
  empty : parts = [] ↔ l = []
  /-- The parts in order are the list. -/
  whole : parts.flatten = l
  /-- All parts but the last have the size. -/
  full : ∀ i (h : i + 1 < parts.length), parts[i].length = size
  /-- The last part is not empty and not longer. -/
  rest : ∀ part ∈ parts.getLast?, 0 < part.length ∧ part.length ≤ size
  /-- Words of 64 bits are enough to find the parts. -/
  total : count? (.ofNat size) (.ofNat l.length) = some (.ofNat parts.length)
  bounds : ∀ i (h : i < parts.length), partAt? (.ofNat size) l (.ofNat i) = some parts[i]

theorem partitions_chunks (hsize : 0 < size) (hword : size < 0x10000000000000000)
    (hlength : l.length < 0x8000000000000000) : Partitions size l (chunks size l) where
  count := length_chunks hsize l
  empty := by
    constructor
    · intro hnone
      rw [← flatten_chunks hsize l, hnone]
      rfl
    · rintro rfl
      rw [chunks, dif_pos (.inr rfl)]
  whole := flatten_chunks hsize l
  full i h := by
    have hlt := (lt_length_chunks_iff hsize).1 h
    rw [getElem_chunks hsize (Nat.lt_of_succ_lt h), List.length_take, List.length_drop]
    rw [Nat.succ_mul] at hlt
    omega
  rest part hpart := by
    have hmem := List.mem_of_getLast? hpart
    exact ⟨List.length_pos_iff.2 (ne_nil_of_mem_chunks hmem), length_le_of_mem_chunks hmem⟩
  total := by
    have hnat : (UInt64.ofNat size).toNat = size := UInt64.toNat_ofNat_of_lt' hword
    rw [count?_eq (hnat.symm ▸ hsize) hlength, hnat]
  bounds i h := by
    have hlt := (lt_length_chunks_iff hsize).1 h
    have hnat : (UInt64.ofNat size).toNat = size := UInt64.toNat_ofNat_of_lt' hword
    have hi : (UInt64.ofNat i).toNat = i :=
      toNat_ofNat (Nat.lt_of_le_of_lt (Nat.le_mul_of_pos_right i hsize) (Nat.lt_trans hlt hlength))
    rw [getElem_chunks hsize h, partAt?_eq (hnat.symm ▸ hsize) hlength (by rwa [hnat, hi]), hnat,
      hi]

/-! ## Pieces -/

/-- Each part is the payload of one piece, in order, with the topic and the name of the family. -/
structure Carries (name topic : String) (payload : List α → Payload) (parts : List (List α))
    (pieces : List Message) : Prop where
  count : pieces.length = parts.length
  /-- The pieces bear their numbers as long as these are words of 32 bits, and the last one, and no
  other, says that it is the last. -/
  piece : ∀ i (h : i < parts.length), ∃ tag,
    pieces[i]? = some { topic, payload := payload parts[i], chunk := some tag } ∧
      tag.messageId = name ∧ (i < 0x100000000 → tag.sequence = i) ∧
      (tag.last = true ↔ i + 1 = parts.length)

namespace Splitter

theorem carries_tagged (name topic : String) (payload : List α → Payload)
    (parts : List (List α)) :
    Carries name topic payload parts
      (tagged name (parts.map fun part ↦ { topic, payload := payload part })) where
  count := by rw [tagged, List.length_map, List.length_zipIdx, List.length_map]
  piece i h := by
    refine ⟨tag name i parts.length, ?_, rfl, fun hi ↦ ?_, beq_iff_eq⟩
    · rw [tagged, List.getElem?_map, List.getElem?_zipIdx, List.getElem?_map,
        List.getElem?_eq_getElem h, List.length_map, Nat.zero_add]
      rfl
    · exact Nat.min_eq_left (Nat.le_of_lt_succ hi)

variable {s : Splitter} {m : Message} {moment : Moment} {w : Wrapper}

/-- There is no array at the key. -/
inductive NoArray (key : String) (m : Message) : Prop
  | notDocument {problem : Unviewable} : m.asDocument = .error problem → NoArray key m
  | missing {doc : Value} : m.asDocument = .ok doc → doc.lookup key = none → NoArray key m
  | notArray {doc value : Value} : m.asDocument = .ok doc → doc.lookup key = some value →
      (∀ items, value ≠ .array items) → NoArray key m

theorem splitArray_of_array {doc : Value} {items : List Value} (hdoc : m.asDocument = .ok doc)
    (hitems : doc.lookup s.key = some (.array items)) :
    s.splitArray m =
      .ok ((chunks s.size items).map fun part ↦ .ofDocument m.topic (.array part)) := by
  rw [splitArray, Message.document?, hdoc]
  dsimp only [Except.mapError, bind, Except.bind]
  rw [hitems]
  rfl

theorem exists_splitArray_eq_error (h : NoArray s.key m) :
    ∃ problem, s.splitArray m = .error (.representation problem) := by
  unfold splitArray Message.document?
  cases h with
  | notDocument hdoc =>
    rw [hdoc]
    exact ⟨_, rfl⟩
  | missing hdoc hvalue =>
    rw [hdoc]
    dsimp only [Except.mapError, bind, Except.bind]
    rw [hvalue]
    exact ⟨_, rfl⟩
  | @notArray doc value hdoc hvalue hnot =>
    rw [hdoc]
    dsimp only [Except.mapError, bind, Except.bind]
    rw [hvalue]
    cases value with
    | array items => exact absurd rfl (hnot items)
    | _ => exact ⟨_, rfl⟩

/-- What fails, fails for want of an array. -/
theorem noArray_of_splitArray_eq_error {e : PipelineError} (h : s.splitArray m = .error e) :
    NoArray s.key m := by
  cases hdoc : m.asDocument with
  | error problem => exact .notDocument hdoc
  | ok doc =>
    cases hvalue : doc.lookup s.key with
    | none => exact .missing hdoc hvalue
    | some value =>
      refine .notArray hdoc hvalue ?_
      rintro items rfl
      cases (splitArray_of_array hdoc hvalue).symm.trans h

theorem outcome_of_bytes (hmode : s.mode = .bytes) :
    (process moment s w).outcome =
      .generate w (tagged (familyName moment.fresh) (s.splitBytes w.working)) := by
  rw [process, split, hmode]

theorem outcome_of_array (hmode : s.mode = .array) :
    (process moment s w).outcome =
      match s.splitArray w.working with
      | .ok pieces => .generate w (tagged (familyName moment.fresh) pieces)
      | .error e => .failed e := by
  rw [process, split, hmode]
  cases s.splitArray w.working <;> rfl

/-- Whatever is to be cut, and in parts of whatever size, a splitter of bytes makes pieces of the
parts of the payload, and a splitter of arrays makes pieces of the parts of the array. It fails just
if there is no array. -/
theorem partitions_process (hsize : 0 < s.size) (hword : s.size < 0x10000000000000000)
    (moment : Moment) (w : Wrapper) :
    let m := w.working
    let name := familyName moment.fresh
    let outcome := (process moment s w).outcome
    (s.mode = .bytes → m.asBytes.length < 0x8000000000000000 →
      ∃ parts pieces, outcome = .generate w pieces ∧ Partitions s.size m.asBytes parts ∧
        Carries name m.topic .raw parts pieces) ∧
      (s.mode = .array →
        (∀ doc items, m.asDocument = .ok doc → doc.lookup s.key = some (.array items) →
          items.length < 0x8000000000000000 →
          ∃ parts pieces, outcome = .generate w pieces ∧ Partitions s.size items parts ∧
            Carries name m.topic (fun part ↦ .document (.array part)) parts pieces) ∧
        ((∃ problem, outcome = .failed (.representation problem)) ↔ NoArray s.key m) ∧
        ∀ e, outcome = .failed e → ∃ problem, e = .representation problem) := by
  dsimp only
  refine ⟨fun hmode hlength ↦ ?_, fun hmode ↦ ?_⟩
  · rw [outcome_of_bytes hmode]
    exact ⟨_, _, rfl, partitions_chunks hsize hword hlength, carries_tagged _ _ _ _⟩
  · have hfailed {e : PipelineError} (h : (process moment s w).outcome = .failed e) :
        s.splitArray w.working = .error e := by
      rw [outcome_of_array hmode] at h
      split at h
      · cases h
      · rename_i e' herror
        cases h
        exact herror
    refine ⟨fun doc items hdoc hitems hlength ↦ ?_, ⟨?_, fun h ↦ ?_⟩, fun e h ↦ ?_⟩
    · rw [outcome_of_array hmode, splitArray_of_array hdoc hitems]
      exact ⟨_, _, rfl, partitions_chunks hsize hword hlength, carries_tagged _ _ _ _⟩
    · rintro ⟨problem, h⟩
      exact noArray_of_splitArray_eq_error (hfailed h)
    · obtain ⟨problem, herror⟩ := exists_splitArray_eq_error h
      rw [outcome_of_array hmode, herror]
      exact ⟨problem, rfl⟩
    · have herror := hfailed h
      obtain ⟨problem, herror'⟩ :=
        exists_splitArray_eq_error (noArray_of_splitArray_eq_error herror)
      cases herror.symm.trans herror'
      exact ⟨problem, rfl⟩

/-- The letters in fives, and a list in pairs. -/
theorem partitions_process_letters :
    let letters := (List.range 26).map fun i ↦ UInt8.ofNat (97 + i)
    let flags := [Value.bool true, .null, .bool false]
    let raw := Wrapper.ofMessage (.ofRaw "t" letters)
    let document := Wrapper.ofMessage (.ofDocument "t" (.object [("k", .array flags)]))
    (∃ parts pieces,
      (process ⟨0, 0⟩ { size := 5 } raw).outcome = .generate raw pieces ∧
        Partitions 5 letters parts ∧ Carries "0" "t" .raw parts pieces) ∧
      ∃ parts pieces,
        (process ⟨0, 0⟩ { size := 2, mode := .array, key := "k" } document).outcome =
            .generate document pieces ∧
          Partitions 2 flags parts ∧
            Carries "0" "t" (fun part ↦ .document (.array part)) parts pieces :=
  ⟨(partitions_process (s := { size := 5 }) (by decide) (by decide) ⟨0, 0⟩ _).1 rfl (by decide),
    ((partitions_process (s := { size := 2, mode := .array, key := "k" }) (by decide) (by decide)
      ⟨0, 0⟩ _).2 rfl).1 _ _ rfl rfl (by decide)⟩

end Splitter

end Conduit.Stage
