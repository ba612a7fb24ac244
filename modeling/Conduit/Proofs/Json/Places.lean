import Conduit.Json.Path
import Conduit.Proofs.Basic
import Conduit.Proofs.Json.Parts

/-!
# Places in values

A part of a value stands at an address: the places to go through on the way to it, each the member
of an object or the item of an array. The segments of a path are texts, and several texts may name
one place; an address names a part in one way only. A walk along segments is a walk along the
address that the segments mean in the value (`Value.walk?_eq_bind`).
-/

namespace Conduit

/-- A place directly in a value. -/
inductive Place
  | member (key : String)
  | item (i : Nat)
deriving DecidableEq, Repr

/-- The places on the way to a part of a value. -/
abbrev Address := List Place

/-! ## Members by their keys -/

namespace Members

variable {key other : String} {value : Value} {ms less : Members}

theorem mem_iff_lookup (h : ms.keys.Nodup) : (key, value) ∈ ms ↔ ms.lookup key = some value := by
  refine ⟨fun hmem ↦ ?_, mem_of_lookup⟩
  induction ms with
  | nil => cases hmem
  | cons m rest ih =>
    obtain ⟨k, v⟩ := m
    obtain ⟨hk, hrest⟩ := List.nodup_cons.1 h
    rw [lookup_cons_eq_ite]
    rcases List.mem_cons.1 hmem with heq | hmem
    · cases heq
      rw [if_pos rfl]
    · have hkey : key ∈ keys rest := List.mem_map_of_mem hmem
      rw [if_neg (ne_of_mem_of_not_mem hkey hk), ih hrest hmem]

/-- What comes out of a member taken out of an object: that member and no other. -/
theorem perm_remove (h : ms.lookup key = some value) :
    ms.Perm ((key, value) :: ms.remove key) := by
  induction ms with
  | nil => cases h
  | cons m rest ih =>
    obtain ⟨k, v⟩ := m
    rw [lookup_cons_eq_ite] at h
    unfold remove
    split at h
    · rename_i heq
      cases h
      rw [if_pos heq.symm, heq]
      refine List.Perm.cons _ ?_
      split
      · rename_i hlast
        rw [List.getLast?_eq_none_iff.1 hlast]
      · rename_i last hlast
        obtain ⟨before, rfl⟩ := List.getLast?_eq_some_iff.1 hlast
        rw [List.dropLast_concat]
        exact List.perm_append_singleton last before
    · rename_i hne
      rw [if_neg (Ne.symm hne)]
      exact ((ih h).cons _).trans (List.Perm.swap _ _ _)

theorem keys_remove_perm (h : ms.lookup key = some value) :
    ms.keys.Perm (key :: (ms.remove key).keys) := (perm_remove h).map Prod.fst

theorem lookup_remove (hms : ms.keys.Nodup) (h : ms.lookup key = some value) :
    (ms.remove key).lookup other = if other = key then none else ms.lookup other := by
  obtain ⟨hkey, hless⟩ := List.nodup_cons.1 ((keys_remove_perm h).nodup_iff.1 hms)
  split
  · rename_i heq
    exact lookup_eq_none_of_notMem (heq ▸ hkey)
  · rename_i hne
    refine Option.ext fun v ↦ ?_
    rw [← mem_iff_lookup hless, ← mem_iff_lookup hms, (perm_remove h).mem_iff, List.mem_cons]
    exact ⟨.inr, fun hmem ↦ hmem.resolve_left fun heq ↦ hne (congrArg Prod.fst heq)⟩

@[simp]
theorem keys_update (f : Value → Value) : (ms.update key f).keys = ms.keys := by
  induction ms with
  | nil => rfl
  | cons m rest ih =>
    obtain ⟨k, v⟩ := m
    unfold update
    split
    · rfl
    · rw [keys_cons, ih, keys_cons]

theorem lookup_update (f : Value → Value) :
    (ms.update key f).lookup other =
      if other = key then (ms.lookup key).map f else ms.lookup other := by
  induction ms with
  | nil => simp [update]
  | cons m rest ih =>
    obtain ⟨k, v⟩ := m
    by_cases hk : k = key
    · subst hk
      rw [update, if_pos rfl, lookup_cons_eq_ite, lookup_cons_eq_ite, lookup_cons_eq_ite,
        if_pos rfl]
      split <;> rfl
    · rw [update, if_neg hk, lookup_cons_eq_ite, lookup_cons_eq_ite, lookup_cons_eq_ite, ih,
        if_neg (Ne.symm hk)]
      by_cases ho : other = k
      · rw [if_pos ho, if_neg (ho ▸ hk), if_pos ho]
      · rw [if_neg ho, if_neg ho]

theorem mem_update {m : String × Value} {f : Value → Value} (h : m ∈ ms.update key f) :
    m ∈ ms ∨ ∃ value, ms.lookup key = some value ∧ m = (key, f value) := by
  induction ms with
  | nil => cases h
  | cons n rest ih =>
    obtain ⟨k, v⟩ := n
    rw [lookup_cons_eq_ite]
    unfold update at h
    split at h
    · rename_i hk
      rw [if_pos hk.symm]
      rcases List.mem_cons.1 h with rfl | h
      · exact .inr ⟨v, rfl, by rw [hk]⟩
      · exact .inl (List.mem_cons_of_mem _ h)
    · rename_i hk
      rw [if_neg (Ne.symm hk)]
      rcases List.mem_cons.1 h with rfl | h
      · exact .inl List.mem_cons_self
      · exact (ih h).imp_left (List.mem_cons_of_mem _)

end Members

namespace Value

variable {v w part : Value} {place : Place} {segment : String}

/-! ## Places and segments -/

/-- What stands at a place. -/
def part? : Value → Place → Option Value
  | .object members, .member key => members.lookup key
  | .array items, .item i => items[i]?
  | _, _ => none

/-- The place that a segment means in a value. -/
def place? (v : Value) (segment : String) : Option Place :=
  match v with
  | .object _ => some (.member segment)
  | .array _ => (segmentIndex? segment).map .item
  | _ => none

theorem child?_eq_bind (v : Value) (segment : String) :
    v.child? segment = (v.place? segment).bind v.part? := by
  cases v with
  | array items =>
    simp only [child?, place?, Option.bind_map]
    rfl
  | _ => rfl

/-- What stands at an address. -/
def at? (v : Value) : Address → Option Value
  | [] => some v
  | place :: rest => (v.part? place).bind (at? · rest)

/-- The address that segments mean in a value, if they lead to something. -/
def address? (v : Value) : List String → Option Address
  | [] => some []
  | segment :: rest =>
    (v.place? segment).bind fun place =>
      (v.part? place).bind fun part => (part.address? rest).map (place :: ·)

theorem at?_cons_of_part? {rest : Address} (h : v.part? place = some part) :
    v.at? (place :: rest) = part.at? rest := by rw [at?, h, Option.bind_some]

theorem exists_of_address?_cons {rest : List String} {address : Address}
    (h : v.address? (segment :: rest) = some address) :
    ∃ place part more, v.place? segment = some place ∧ v.part? place = some part ∧
      part.address? rest = some more ∧ address = place :: more := by
  obtain ⟨place, hplace, hbind⟩ := Option.bind_eq_some_iff.1 h
  obtain ⟨part, hpart, hmap⟩ := Option.bind_eq_some_iff.1 hbind
  obtain ⟨more, hmore, rfl⟩ := Option.map_eq_some_iff.1 hmap
  exact ⟨place, part, more, hplace, hpart, hmore, rfl⟩

/-- Segments lead to what stands at their address. -/
theorem walk?_eq_bind (v : Value) (segments : List String) :
    v.walk? segments = (v.address? segments).bind v.at? := by
  induction segments generalizing v with
  | nil => rfl
  | cons segment rest ih =>
    rw [walk?, address?, child?_eq_bind]
    cases v.place? segment with
    | none => rfl
    | some place =>
      simp only [Option.bind_some]
      cases hpart : v.part? place with
      | none => rfl
      | some part =>
        rw [Option.bind_some, Option.bind_some, ih, Option.bind_map]
        refine Option.bind_congr fun address _ ↦ ?_
        exact (at?_cons_of_part? hpart).symm

/-! ## The kind of a value with parts -/

theorem exists_object_of_part? {key : String} (h : v.part? (.member key) = some part) :
    ∃ members, v = .object members ∧ members.lookup key = some part := by
  cases v with
  | object members => exact ⟨members, rfl, h⟩
  | _ => cases h

theorem exists_array_of_part? {i : Nat} (h : v.part? (.item i) = some part) :
    ∃ items, v = .array items ∧ items[i]? = some part := by
  cases v with
  | array items => exact ⟨items, rfl, h⟩
  | _ => cases h

theorem All.of_part? {P : Value → Prop} (hv : v.All P) (h : v.part? place = some part) :
    part.All P := by
  cases place with
  | member key =>
    obtain ⟨members, rfl, hpart⟩ := exists_object_of_part? h
    exact (all_object.1 hv).2 _ (mem_of_lookup hpart)
  | item i =>
    obtain ⟨items, rfl, hpart⟩ := exists_array_of_part? h
    exact (all_array.1 hv).2 _ (List.mem_of_getElem? hpart)

/-- A segment means the same in two values with one place in common. -/
theorem place?_congr {x y : Value} (hv : v.part? place = some x) (hw : w.part? place = some y) :
    w.place? segment = v.place? segment := by
  cases place with
  | member key =>
    obtain ⟨_, rfl, -⟩ := exists_object_of_part? hv
    obtain ⟨_, rfl, -⟩ := exists_object_of_part? hw
    rfl
  | item i =>
    obtain ⟨_, rfl, -⟩ := exists_array_of_part? hv
    obtain ⟨_, rfl, -⟩ := exists_array_of_part? hw
    rfl

end Value

end Conduit
