/-!
# Dictionaries

A dictionary keeps one value under each of its names, in the order of the names. Every operation
keeps that order, so two dictionaries with the same entries are equal.
-/

namespace Conduit

structure Dictionary (α : Type u) where
  entries : List (String × α)
  sorted : entries.Pairwise (fun a b => a.1 < b.1)

namespace Dictionary

variable {α : Type u} {β : Type v}

theorem ext {a b : Dictionary α} (h : a.entries = b.entries) : a = b := by
  cases a; cases b; cases h; rfl

instance [DecidableEq α] : DecidableEq (Dictionary α) := fun a b =>
  decidable_of_iff (a.entries = b.entries) ⟨ext, fun h => h ▸ rfl⟩

def empty : Dictionary α := ⟨[], .nil⟩

instance : Inhabited (Dictionary α) := ⟨empty⟩

def size (d : Dictionary α) : Nat := d.entries.length

def names (d : Dictionary α) : List String := d.entries.map Prod.fst

def get? (d : Dictionary α) (name : String) : Option α := d.entries.lookup name

def contains (d : Dictionary α) (name : String) : Bool := (d.get? name).isSome

/-- Puts an entry in its place, or over the entry of its name. -/
def insertEntry (name : String) (a : α) : List (String × α) → List (String × α)
  | [] => [(name, a)]
  | (n, b) :: rest =>
    if name < n then (name, a) :: (n, b) :: rest
    else if name = n then (name, a) :: rest
    else (n, b) :: insertEntry name a rest

theorem mem_insertEntry {name : String} {a : α} {e : String × α} :
    ∀ {l : List (String × α)}, e ∈ insertEntry name a l → e = (name, a) ∨ e ∈ l
  | [], h => by simpa [insertEntry] using h
  | (n, b) :: rest, h => by
    unfold insertEntry at h
    split at h
    · simpa using h
    · split at h
      · rcases List.mem_cons.1 h with h | h
        · exact .inl h
        · exact .inr (List.mem_cons_of_mem _ h)
      · rcases List.mem_cons.1 h with h | h
        · exact .inr (h ▸ List.mem_cons_self)
        · exact (mem_insertEntry h).imp id (List.mem_cons_of_mem _)

theorem lt_of_not_lt_of_ne {a b : String} (h : ¬ a < b) (hne : a ≠ b) : b < a := by
  refine Decidable.byContradiction fun h' => hne ?_
  exact String.le_antisymm (String.not_lt.1 h') (String.not_lt.1 h)

theorem pairwise_insertEntry {name : String} {a : α} :
    ∀ {l : List (String × α)}, l.Pairwise (fun a b => a.1 < b.1) →
      (insertEntry name a l).Pairwise (fun a b => a.1 < b.1)
  | [], _ => by simp [insertEntry]
  | (n, b) :: rest, h => by
    have hrest := (List.pairwise_cons.1 h).2
    have hhead := (List.pairwise_cons.1 h).1
    unfold insertEntry
    split
    · rename_i hlt
      refine List.pairwise_cons.2 ⟨fun e he => ?_, h⟩
      rcases List.mem_cons.1 he with rfl | he
      · exact hlt
      · exact String.lt_trans hlt (hhead e he)
    · split
      · rename_i heq
        subst heq
        exact List.pairwise_cons.2 ⟨hhead, hrest⟩
      · rename_i hlt hne
        refine List.pairwise_cons.2 ⟨fun e he => ?_, pairwise_insertEntry hrest⟩
        rcases mem_insertEntry he with rfl | he
        · exact lt_of_not_lt_of_ne hlt hne
        · exact hhead e he

def insert (d : Dictionary α) (name : String) (a : α) : Dictionary α :=
  ⟨insertEntry name a d.entries, pairwise_insertEntry d.sorted⟩

def erase (d : Dictionary α) (name : String) : Dictionary α :=
  ⟨d.entries.filter (fun e => e.1 != name), d.sorted.filter _⟩

def map (f : String → α → β) (d : Dictionary α) : Dictionary β :=
  ⟨d.entries.map fun e => (e.1, f e.1 e.2), by
    simpa [List.pairwise_map] using d.sorted⟩

def ofList (l : List (String × α)) : Dictionary α :=
  l.foldl (fun d e => d.insert e.1 e.2) empty

end Dictionary

/-- A set of names. -/
abbrev NameSet := Dictionary Unit

def NameSet.add (s : NameSet) (name : String) : NameSet := s.insert name ()

end Conduit
