import Conduit.Json.Path
import Conduit.Proofs.Basic
import Conduit.Proofs.Json.Parts

/-!
# Merging

Setting members one after the other is a union of objects in which the right side wins: the keys of
the left side keep their places, and those that are new follow in their own order
(`Members.keys_insertAll`); under each key is the value of the right side, if it has one
(`Members.lookup_insertAll`). To set the members of two objects in turn is to set those of their
union (`Members.insertAll_insertAll`).

So objects act on values by merging (`Value.merge_acts`). An empty object leaves every value as it
is; any other makes an object of a value that is none.
-/

namespace Conduit

/-! ## Members set in turn -/

namespace Members

variable {key other : String} {value new : Value} {ms ns extra a b : Members}

@[simp]
theorem insertAll_nil (ms : Members) : ms.insertAll [] = ms := rfl

@[simp]
theorem insertAll_cons (ms : Members) (m : String × Value) (extra : Members) :
    ms.insertAll (m :: extra) = (ms.insert m.1 m.2).insertAll extra := rfl

theorem keys_insert (key : String) (value : Value) (ms : Members) :
    (ms.insert key value).keys = if key ∈ ms.keys then ms.keys else ms.keys ++ [key] := by
  induction ms with
  | nil => rfl
  | cons m rest ih =>
    obtain ⟨k, v⟩ := m
    unfold insert
    split
    · rename_i heq
      simp [heq]
    · rename_i hne
      simp only [keys_cons, ih, List.mem_cons, Ne.symm hne, false_or]
      split <;> rfl

theorem lookup_insert (key : String) (value : Value) (ms : Members) (other : String) :
    (ms.insert key value).lookup other = if other = key then some value else ms.lookup other := by
  induction ms with
  | nil => exact lookup_cons_eq_ite key other value []
  | cons m rest ih =>
    obtain ⟨k, v⟩ := m
    unfold insert
    split
    · rename_i heq
      subst heq
      rw [lookup_cons_eq_ite, lookup_cons_eq_ite]
      split <;> rfl
    · rename_i hne
      rw [lookup_cons_eq_ite, lookup_cons_eq_ite, ih]
      split
      · rename_i heq
        rw [if_neg (heq ▸ hne)]
      · rfl

/-- The keys that were there keep their places, and the new ones follow in the order in which they
are set. -/
theorem keys_insertAll (ms : Members) (h : extra.keys.Nodup) :
    (ms.insertAll extra).keys = ms.keys ++ extra.keys.filter (· ∉ ms.keys) := by
  induction extra generalizing ms with
  | nil => exact (List.append_nil _).symm
  | cons m rest ih =>
    obtain ⟨hm, hrest⟩ := List.nodup_cons.1 h
    rw [insertAll_cons, ih _ hrest, keys_insert, keys_cons, List.filter_cons]
    by_cases hin : m.1 ∈ ms.keys
    · simp [hin]
    · -- no key of the rest is the one that was just set
      have hsame : (keys rest).filter (· ∉ ms.keys ++ [m.1]) = (keys rest).filter (· ∉ ms.keys) :=
        List.filter_congr fun k hk ↦ by simp [ne_of_mem_of_not_mem hk hm]
      rw [if_neg hin, hsame, if_pos (decide_eq_true hin), List.append_assoc, List.singleton_append]

/-- Under each key is what was set last, or else what was there. -/
theorem lookup_insertAll (ms : Members) (h : extra.keys.Nodup) (key : String) :
    (ms.insertAll extra).lookup key = (extra.lookup key).or (ms.lookup key) := by
  induction extra generalizing ms with
  | nil => rfl
  | cons m rest ih =>
    obtain ⟨k, v⟩ := m
    obtain ⟨hk, hrest⟩ := List.nodup_cons.1 h
    rw [insertAll_cons, ih _ hrest, lookup_insert, lookup_cons_eq_ite]
    split
    · rename_i heq
      rw [heq, lookup_eq_none_of_notMem hk]
      rfl
    · rfl

/-- Members with distinct keys are given by the order of their keys and by what is under each. -/
theorem eq_of_lookup (hkeys : ms.keys = ns.keys) (h : ms.keys.Nodup)
    (hlookup : ∀ key, ms.lookup key = ns.lookup key) : ms = ns := by
  induction ms generalizing ns with
  | nil => exact (List.map_eq_nil_iff.1 hkeys.symm).symm
  | cons m rest ih =>
    obtain _ | ⟨n, others⟩ := ns
    · cases hkeys
    · obtain ⟨k, v⟩ := m
      obtain ⟨l, w⟩ := n
      obtain ⟨rfl, hothers⟩ := List.cons.inj hkeys
      obtain ⟨hk, hrest⟩ := List.nodup_cons.1 h
      have hhead := hlookup k
      rw [lookup_cons_eq_ite, lookup_cons_eq_ite, if_pos rfl, if_pos rfl] at hhead
      rw [Option.some.inj hhead, ih hothers hrest fun key ↦ ?_]
      by_cases heq : key = k
      · subst heq
        rw [lookup_eq_none_of_notMem hk, lookup_eq_none_of_notMem (hothers ▸ hk)]
      · have := hlookup key
        rwa [lookup_cons_eq_ite, lookup_cons_eq_ite, if_neg heq, if_neg heq] at this

@[simp]
theorem isEmpty_insertAll (ms extra : Members) :
    (ms.insertAll extra).isEmpty = (ms.isEmpty && extra.isEmpty) := by
  have hinsert (key : String) (value : Value) (ms : Members) :
      (ms.insert key value).isEmpty = false := by
    unfold insert
    split
    · rfl
    · split <;> rfl
  induction extra generalizing ms with
  | nil => exact (Bool.and_true _).symm
  | cons m rest ih => rw [insertAll_cons, ih, hinsert, Bool.false_and]; exact (Bool.and_false _).symm

/-! ## Unions -/

theorem insert_insert (key : String) (value new : Value) (ms : Members) :
    (ms.insert key value).insert key new = ms.insert key new := by
  induction ms with
  | nil => simp [insert]
  | cons m rest ih =>
    obtain ⟨k, v⟩ := m
    by_cases heq : k = key
    · simp [insert, heq]
    · simp [insert, heq, ih]

/-- A member that is there changes in its place, whatever else is set before or after. -/
theorem insert_comm_of_mem (h : key ∈ ms.keys) (hne : other ≠ key) :
    (ms.insert other new).insert key value = (ms.insert key value).insert other new := by
  induction ms with
  | nil => cases h
  | cons m rest ih =>
    obtain ⟨k, v⟩ := m
    by_cases hkey : k = key
    · have hother : k ≠ other := fun heq ↦ hne (heq.symm.trans hkey)
      simp [insert, hkey, Ne.symm hne]
    · have hrest : key ∈ keys rest := (List.mem_cons.1 h).resolve_left (Ne.symm hkey)
      by_cases hother : k = other
      · simp [insert, hother, hne]
      · simp [insert, hkey, hother, ih hrest]

theorem insertAll_insert_of_mem (h : key ∈ ms.keys) (hextra : key ∉ extra.keys) :
    (ms.insertAll extra).insert key value = (ms.insert key value).insertAll extra := by
  induction extra generalizing ms with
  | nil => rfl
  | cons m rest ih =>
    obtain ⟨hm, hrest⟩ := not_or.1 (mt List.mem_cons.2 hextra)
    rw [insertAll_cons, insertAll_cons, ih (mem_keys_insert.2 (.inr h)) hrest,
      insert_comm_of_mem h (Ne.symm hm)]

/-- It is the same to set one member more, or to have it among those that are set. -/
theorem insertAll_insert (ms : Members) (ha : a.keys.Nodup) (key : String) (value : Value) :
    ms.insertAll (a.insert key value) = (ms.insertAll a).insert key value := by
  induction a generalizing ms with
  | nil => rfl
  | cons m rest ih =>
    obtain ⟨k, v⟩ := m
    obtain ⟨hk, hrest⟩ := List.nodup_cons.1 ha
    by_cases heq : k = key
    · subst heq
      have hmem : k ∈ (ms.insert k v).keys := mem_keys_insert.2 (.inl rfl)
      rw [insert, if_pos rfl, insertAll_cons, insertAll_cons, insertAll_insert_of_mem hmem hk,
        insert_insert]
    · rw [insert, if_neg heq, insertAll_cons, insertAll_cons, ih _ hrest]

/-- To set the members of two objects in turn is to set those of their union. -/
theorem insertAll_insertAll (ms : Members) (ha : a.keys.Nodup) (b : Members) :
    (ms.insertAll a).insertAll b = ms.insertAll (a.insertAll b) := by
  induction b generalizing a with
  | nil => rfl
  | cons m rest ih =>
    rw [insertAll_cons, insertAll_cons, ← ih (nodup_keys_insert ha), insertAll_insert ms ha]

theorem insertAll_self (h : a.keys.Nodup) : a.insertAll a = a := by
  have hkeys : (a.insertAll a).keys = a.keys := by
    have hnone : a.keys.filter (· ∉ a.keys) = [] := List.filter_eq_nil_iff.2 fun k hk ↦ by simp [hk]
    rw [keys_insertAll a h, hnone, List.append_nil]
  refine eq_of_lookup hkeys (hkeys ▸ h) fun key ↦ ?_
  rw [lookup_insertAll a h, Option.or_self]

end Members

/-! ## Values -/

namespace Value

variable {a : Members}

/-- The members of an object; any other value has none. -/
def members : Value → Members
  | .object members => members
  | _ => []

@[simp]
theorem merge_nil (v : Value) : v.merge [] = v := rfl

theorem merge_of_ne_nil (v : Value) (h : a ≠ []) : v.merge a = .object (v.members.insertAll a) := by
  cases v <;> exact if_neg (mt List.isEmpty_iff.1 h)

@[simp]
theorem merge_object (ms a : Members) : (Value.object ms).merge a = .object (ms.insertAll a) := by
  by_cases h : a = []
  · rw [h, merge_nil, Members.insertAll_nil]
  · exact merge_of_ne_nil _ h

@[simp]
theorem members_merge (v : Value) (a : Members) : (v.merge a).members = v.members.insertAll a := by
  by_cases h : a = []
  · rw [h, merge_nil, Members.insertAll_nil]
  · rw [merge_of_ne_nil v h, members]

theorem isObject_merge (v : Value) (a : Members) :
    (v.merge a).isObject = (v.isObject || !a.isEmpty) := by
  by_cases h : a = []
  · rw [h, merge_nil, List.isEmpty_nil, Bool.not_true, Bool.or_false]
  · rw [merge_of_ne_nil v h, List.isEmpty_eq_false_iff.2 h, Bool.not_false, Bool.or_true, isObject]

/-- To merge two objects in turn is to merge their union. -/
theorem merge_merge (v : Value) (ha : a.keys.Nodup) (b : Members) :
    (v.merge a).merge b = v.merge (a.insertAll b) := by
  by_cases hb : b = []
  · rw [hb, merge_nil, Members.insertAll_nil]
  · have hunion : a.insertAll b ≠ [] := fun h ↦ by
      have := Members.isEmpty_insertAll a b
      rw [h, List.isEmpty_eq_false_iff.2 hb, Bool.and_false] at this
      cases this
    rw [merge_of_ne_nil _ hb, members_merge, merge_of_ne_nil v hunion,
      Members.insertAll_insertAll _ ha]

/-- Objects act on values by merging. To merge two objects in turn, whatever they have in common, is
to merge their union; to merge one twice is to merge it once; and to merge the empty object is to do
nothing, also where the value is no object. The keys that the value had keep their places, and those
that are new follow in the order of the object. Under the keys of the object is what it has there,
and under all others what was there. -/
theorem merge_acts (t : Value) (ha : a.keys.Nodup) (b : Members) :
    (∃ union, (Value.object a).merge b = .object union ∧ (Members.keys union).Nodup ∧
      (t.merge a).merge b = t.merge union) ∧
    (t.merge a).merge a = t.merge a ∧
    t.merge [] = t ∧
    (t.merge a).isObject = (t.isObject || !a.isEmpty) ∧
    (t.merge a).members.keys = t.members.keys ++ a.keys.filter (· ∉ t.members.keys) ∧
    (∀ key ∈ a.keys, (t.merge a).members.lookup key = a.lookup key) ∧
    ∀ key ∉ a.keys, (t.merge a).members.lookup key = t.members.lookup key := by
  have hlookup (key : String) :
      (t.merge a).members.lookup key = (a.lookup key).or (t.members.lookup key) := by
    rw [members_merge, Members.lookup_insertAll _ ha]
  refine ⟨⟨a.insertAll b, merge_object a b, Members.nodup_keys_insertAll ha, merge_merge t ha b⟩,
    ?_, merge_nil t, isObject_merge t a, ?_, fun key hkey ↦ ?_, fun key hkey ↦ ?_⟩
  · rw [merge_merge t ha, Members.insertAll_self ha]
  · rw [members_merge, Members.keys_insertAll _ ha]
  · obtain ⟨value, hvalue⟩ := Option.isSome_iff_exists.1 (lookup_isSome_iff_mem.2 hkey)
    rw [hlookup, hvalue, Option.some_or]
  · rw [hlookup, lookup_eq_none_of_notMem hkey, Option.none_or]

/-- A text becomes an object, in which the second of two objects overwrites what the first has set. -/
theorem merge_acts_text :
    let a : Members := [("k", .null), ("l", .bool true)]
    let b : Members := [("l", .bool false), ("m", .string "n")]
    a.keys.Nodup ∧ ∃ union, (Value.object a).merge b = .object union ∧
      ((Value.string "t").merge a).merge b = (Value.string "t").merge union ∧
      union = [("k", .null), ("l", .bool false), ("m", .string "n")] := by
  intro a b
  have ha : a.keys.Nodup := by decide
  obtain ⟨⟨union, hunion, -, hmerge⟩, -⟩ := merge_acts (.string "t") ha b
  have hmembers : (Value.object a).merge b =
      .object [("k", .null), ("l", .bool false), ("m", .string "n")] := by decide
  exact ⟨ha, union, hunion, hmerge, Value.object.inj (hunion.symm.trans hmembers)⟩

end Value

end Conduit
