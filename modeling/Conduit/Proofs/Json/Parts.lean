import Conduit.Json.Basic
import Mathlib.Data.List.Nodup

/-!
# Parts of values

A property may be asked of a value together with everything in it. Two such properties describe the
values that JSON texts are about: the keys of every object are distinct (`Value.Distinct`), and
every number is whole (`Value.AllWhole`). How deep brackets nest is a number (`Value.nesting`).
-/

namespace Conduit

namespace Value

/-! ## A property of all parts -/

mutual

/-- The property holds of the value and of every value in it. -/
def All (P : Value → Prop) : Value → Prop
  | .array items => P (.array items) ∧ AllItems P items
  | .object members => P (.object members) ∧ AllMembers P members
  | .null => P .null
  | .bool b => P (.bool b)
  | .number n => P (.number n)
  | .string s => P (.string s)

def AllItems (P : Value → Prop) : List Value → Prop
  | [] => True
  | v :: rest => All P v ∧ AllItems P rest

def AllMembers (P : Value → Prop) : List (String × Value) → Prop
  | [] => True
  | (_, v) :: rest => All P v ∧ AllMembers P rest

end

variable {P : Value → Prop}

theorem allItems_iff {items : List Value} : AllItems P items ↔ ∀ v ∈ items, v.All P := by
  induction items with
  | nil => simp [AllItems]
  | cons v rest ih => simp [AllItems, ih]

theorem allMembers_iff {members : Members} : AllMembers P members ↔ ∀ m ∈ members, m.2.All P := by
  induction members with
  | nil => simp [AllMembers]
  | cons m rest ih =>
    obtain ⟨key, v⟩ := m
    simp [AllMembers, ih]

@[simp]
theorem all_array {items : List Value} :
    (Value.array items).All P ↔ P (.array items) ∧ ∀ v ∈ items, v.All P := by
  rw [All, allItems_iff]

@[simp]
theorem all_object {members : Members} :
    (Value.object members).All P ↔ P (.object members) ∧ ∀ m ∈ members, m.2.All P := by
  rw [All, allMembers_iff]

@[simp]
theorem all_null : Value.null.All P ↔ P .null := by rw [All]

@[simp]
theorem all_bool {b : Bool} : (Value.bool b).All P ↔ P (.bool b) := by rw [All]

@[simp]
theorem all_number {n : Number} : (Value.number n).All P ↔ P (.number n) := by rw [All]

@[simp]
theorem all_string {s : String} : (Value.string s).All P ↔ P (.string s) := by rw [All]

/-- What holds of a list or an object as soon as it holds of what is in it holds of every value. -/
@[elab_as_elim]
theorem parts_induction {P : Value → Prop} (null : P .null) (bool : ∀ b, P (.bool b))
    (number : ∀ n, P (.number n)) (string : ∀ s, P (.string s))
    (array : ∀ items : List Value, (∀ v ∈ items, P v) → P (.array items))
    (object : ∀ members : Members, (∀ m ∈ members, P m.2) → P (.object members)) (v : Value) :
    P v :=
  @Value.rec P (fun items ↦ ∀ v ∈ items, P v) (fun members ↦ ∀ m ∈ members, P m.2)
    (fun m ↦ P m.2) null bool number string array object (by simp)
    (fun _ _ hv hrest ↦ List.forall_mem_cons.2 ⟨hv, hrest⟩) (by simp)
    (fun _ _ hm hrest ↦ List.forall_mem_cons.2 ⟨hm, hrest⟩) (fun _ _ hv ↦ hv) v

/-! ## Distinct keys and whole numbers -/

/-- An object does not name a key twice. -/
@[simp]
def HasDistinctKeys : Value → Prop
  | .object members => (Members.keys members).Nodup
  | _ => True

/-- No object in the value names a key twice. -/
def Distinct (v : Value) : Prop := v.All HasDistinctKeys

/-- A number is a whole number. -/
@[simp]
def IsWholeNumber : Value → Prop
  | .number (.double _) => False
  | _ => True

/-- All numbers in the value are whole numbers. -/
def AllWhole (v : Value) : Prop := v.All IsWholeNumber

theorem distinct_null : Value.null.Distinct := by simp [Distinct]

theorem distinct_bool {b : Bool} : (Value.bool b).Distinct := by simp [Distinct]

theorem distinct_number {n : Number} : (Value.number n).Distinct := by simp [Distinct]

theorem distinct_string {s : String} : (Value.string s).Distinct := by simp [Distinct]

@[simp]
theorem distinct_array {items : List Value} :
    (Value.array items).Distinct ↔ ∀ v ∈ items, v.Distinct := by
  simp [Distinct]

@[simp]
theorem distinct_object {members : Members} :
    (Value.object members).Distinct ↔ members.keys.Nodup ∧ ∀ m ∈ members, m.2.Distinct := by
  simp [Distinct]

@[simp]
theorem allWhole_array {items : List Value} :
    (Value.array items).AllWhole ↔ ∀ v ∈ items, v.AllWhole := by
  simp [AllWhole]

@[simp]
theorem allWhole_object {members : Members} :
    (Value.object members).AllWhole ↔ ∀ m ∈ members, m.2.AllWhole := by
  simp [AllWhole]

/-! ## Depth -/

mutual

/-- How many brackets are open at once, at most. -/
def nesting : Value → Nat
  | .array items => nestingItems items + 1
  | .object members => nestingMembers members + 1
  | _ => 0

def nestingItems : List Value → Nat
  | [] => 0
  | v :: rest => max v.nesting (nestingItems rest)

def nestingMembers : List (String × Value) → Nat
  | [] => 0
  | (_, v) :: rest => max v.nesting (nestingMembers rest)

end

theorem nestingItems_le_iff {items : List Value} {n : Nat} :
    nestingItems items ≤ n ↔ ∀ v ∈ items, v.nesting ≤ n := by
  induction items with
  | nil => simp [nestingItems]
  | cons v rest ih => rw [nestingItems, Nat.max_le, ih, List.forall_mem_cons]

theorem nestingMembers_le_iff {members : Members} {n : Nat} :
    nestingMembers members ≤ n ↔ ∀ m ∈ members, m.2.nesting ≤ n := by
  induction members with
  | nil => simp [nestingMembers]
  | cons m rest ih =>
    obtain ⟨key, v⟩ := m
    rw [nestingMembers, Nat.max_le, ih, List.forall_mem_cons]

theorem nesting_array_le_iff {items : List Value} {n : Nat} :
    (Value.array items).nesting ≤ n + 1 ↔ ∀ v ∈ items, v.nesting ≤ n := by
  rw [nesting, Nat.add_le_add_iff_right, nestingItems_le_iff]

theorem nesting_object_le_iff {members : Members} {n : Nat} :
    (Value.object members).nesting ≤ n + 1 ↔ ∀ m ∈ members, m.2.nesting ≤ n := by
  rw [nesting, Nat.add_le_add_iff_right, nestingMembers_le_iff]

end Value

/-! ## Members with distinct keys -/

namespace Members

@[simp]
theorem keys_cons (m : String × Value) (ms : Members) : keys (m :: ms) = m.1 :: keys ms := rfl

theorem insert_of_notMem {key : String} {value : Value} {ms : Members} (h : key ∉ ms.keys) :
    ms.insert key value = ms ++ [(key, value)] := by
  induction ms with
  | nil => rfl
  | cons m rest ih =>
    obtain ⟨k, v⟩ := m
    obtain ⟨hne, hrest⟩ := not_or.1 (mt List.mem_cons.2 h)
    rw [insert, if_neg (Ne.symm hne), ih hrest, List.cons_append]

theorem insertAll_of_nodup {ms extra : Members} (h : (ms ++ extra).keys.Nodup) :
    ms.insertAll extra = ms ++ extra := by
  induction extra generalizing ms with
  | nil => exact (List.append_nil ms).symm
  | cons m rest ih =>
    have hkeys : ((ms ++ [m]) ++ rest).keys.Nodup := by simpa using h
    have hm : m.1 ∉ ms.keys := by
      rw [keys, List.map_append] at h
      exact fun hin ↦ List.disjoint_of_nodup_append h hin List.mem_cons_self
    change insertAll (ms.insert m.1 m.2) rest = _
    rw [insert_of_notMem hm, ih hkeys, List.append_assoc, List.singleton_append]

/-- Members that do not name a key twice stay as they are. -/
theorem ofList_of_nodup {ms : Members} (h : ms.keys.Nodup) : ofList ms = ms := insertAll_of_nodup h

theorem mem_keys_insert {key k : String} {value : Value} {ms : Members} :
    k ∈ (ms.insert key value).keys ↔ k = key ∨ k ∈ ms.keys := by
  induction ms with
  | nil => simp [insert, keys]
  | cons m rest ih =>
    obtain ⟨n, v⟩ := m
    unfold insert
    split
    · rename_i heq
      simp [heq]
    · simp only [keys_cons, List.mem_cons, ih]
      exact or_left_comm

theorem nodup_keys_insert {key : String} {value : Value} {ms : Members} (h : ms.keys.Nodup) :
    (ms.insert key value).keys.Nodup := by
  induction ms with
  | nil => simp [insert, keys]
  | cons m rest ih =>
    obtain ⟨n, v⟩ := m
    obtain ⟨hn, hrest⟩ := List.nodup_cons.1 h
    unfold insert
    split
    · rename_i heq
      exact List.nodup_cons.2 ⟨heq ▸ hn, hrest⟩
    · rename_i hne
      refine List.nodup_cons.2 ⟨fun hin ↦ ?_, ih hrest⟩
      exact (mem_keys_insert.1 hin).elim hne hn

theorem mem_insert {m : String × Value} {key : String} {value : Value} {ms : Members}
    (h : m ∈ ms.insert key value) : m = (key, value) ∨ m ∈ ms := by
  induction ms with
  | nil => simpa [insert] using h
  | cons n rest ih =>
    obtain ⟨k, v⟩ := n
    unfold insert at h
    split at h
    · exact (List.mem_cons.1 h).imp_right (List.mem_cons_of_mem _)
    · rcases List.mem_cons.1 h with rfl | h
      · exact .inr List.mem_cons_self
      · exact (ih h).imp_right (List.mem_cons_of_mem _)

theorem nodup_keys_insertAll {ms extra : Members} (h : ms.keys.Nodup) :
    (ms.insertAll extra).keys.Nodup := by
  induction extra generalizing ms with
  | nil => exact h
  | cons m rest ih => exact ih (nodup_keys_insert h)

theorem mem_insertAll {m : String × Value} {ms extra : Members} (h : m ∈ ms.insertAll extra) :
    m ∈ ms ∨ m ∈ extra := by
  induction extra generalizing ms with
  | nil => exact .inl h
  | cons n rest ih =>
    rcases ih h with h | h
    · exact (mem_insert h).symm.imp_right fun heq ↦ List.mem_cons.2 (.inl heq)
    · exact .inr (List.mem_cons_of_mem _ h)

/-- However often a list names its keys, the members made of it have distinct ones. -/
theorem nodup_keys_ofList (l : List (String × Value)) : (ofList l).keys.Nodup :=
  nodup_keys_insertAll List.nodup_nil

theorem mem_of_mem_ofList {m : String × Value} {l : List (String × Value)} (h : m ∈ ofList l) :
    m ∈ l := (mem_insertAll h).resolve_left List.not_mem_nil

end Members

end Conduit
