import Conduit.Number.Double

/-!
# JSON values

A value keeps the order of an object's members, and a number remembers whether it was written as a
whole number. Whole numbers fit in 64 bits, signed or unsigned; every other number is a finite
`Double`.
-/

namespace Conduit

/-- The whole numbers that a 64-bit word can hold, signed or unsigned. -/
abbrev Whole := { n : Int // -0x8000000000000000 ≤ n ∧ n < 0x10000000000000000 }

inductive Number
  | whole (n : Whole)
  | double (d : { d : Double // d.isFinite = true })
deriving DecidableEq

inductive Value
  | null
  | bool (b : Bool)
  | number (n : Number)
  | string (s : String)
  | array (items : List Value)
  | object (members : List (String × Value))
deriving Inhabited

/-- The members of an object, in order. -/
abbrev Members := List (String × Value)

namespace Number

def ofNat64 (n : UInt64) : Number :=
  .whole ⟨n.toNat, by omega, by have := n.toNat_lt; omega⟩

def ofByte (b : UInt8) : Number :=
  .whole ⟨b.toNat, by omega, by have := b.toNat_lt; omega⟩

def ofInt? (n : Int) : Option Number :=
  if h : -0x8000000000000000 ≤ n ∧ n < 0x10000000000000000 then some (.whole ⟨n, h⟩) else none

def ofDouble? (d : Double) : Option Number :=
  if h : d.isFinite = true then some (.double ⟨d, h⟩) else none

/-- The number as a `Double`; a long whole number is rounded. -/
def toDouble : Number → Double
  | .whole n => Double.ofInt n.val
  | .double d => d.val

/-- Equality of numbers written alike: a whole number is never equal to another kind. -/
def same : Number → Number → Bool
  | .whole a, .whole b => a == b
  | .double a, .double b => a.val.equal b.val
  | _, _ => false

end Number

namespace Value

/-! ## Deciding equality -/

mutual

def beq : Value → Value → Bool
  | .null, .null => true
  | .bool a, .bool b => a == b
  | .number a, .number b => a == b
  | .string a, .string b => a == b
  | .array as, .array bs => beqItems as bs
  | .object as, .object bs => beqMembers as bs
  | _, _ => false

def beqItems : List Value → List Value → Bool
  | [], [] => true
  | a :: as, b :: bs => a.beq b && beqItems as bs
  | _, _ => false

def beqMembers : List (String × Value) → List (String × Value) → Bool
  | [], [] => true
  | (k, a) :: as, (l, b) :: bs => k == l && a.beq b && beqMembers as bs
  | _, _ => false

end

mutual

theorem beq_eq_true_iff (a b : Value) : a.beq b = true ↔ a = b := by
  cases a <;> cases b <;> simp [beq]
  case array.array as bs => exact beqItems_eq_true_iff as bs
  case object.object as bs => exact beqMembers_eq_true_iff as bs

theorem beqItems_eq_true_iff (as bs : List Value) : beqItems as bs = true ↔ as = bs := by
  cases as <;> cases bs <;> simp [beqItems]
  case cons.cons a as b bs => rw [beq_eq_true_iff a b, beqItems_eq_true_iff as bs]

theorem beqMembers_eq_true_iff (as bs : List (String × Value)) :
    beqMembers as bs = true ↔ as = bs := by
  match as, bs with
  | [], [] => simp [beqMembers]
  | [], _ :: _ => simp [beqMembers]
  | _ :: _, [] => simp [beqMembers]
  | (k, a) :: as, (l, b) :: bs =>
    simp only [beqMembers, Bool.and_eq_true, beq_iff_eq, beq_eq_true_iff a b,
      beqMembers_eq_true_iff as bs, List.cons.injEq, Prod.mk.injEq]

end

instance : DecidableEq Value := fun a b =>
  decidable_of_iff (a.beq b = true) (beq_eq_true_iff a b)

/-! ## Equality of meaning -/

mutual

/-- Equality that disregards the order of members and the sign of zero. -/
def same : Value → Value → Bool
  | .null, .null => true
  | .bool a, .bool b => a == b
  | .number a, .number b => a.same b
  | .string a, .string b => a == b
  | .array as, .array bs => sameItems as bs
  | .object as, .object bs => as.length == bs.length && included as bs
  | _, _ => false

def sameItems : List Value → List Value → Bool
  | [], [] => true
  | a :: as, b :: bs => a.same b && sameItems as bs
  | _, _ => false

/-- Whether every member of the first list is in the second with the same value. -/
def included : List (String × Value) → List (String × Value) → Bool
  | [], _ => true
  | (k, a) :: as, bs =>
    (match bs.lookup k with
      | some b => a.same b
      | none => false) && included as bs

end

def isObject : Value → Bool
  | .object _ => true
  | _ => false

def ofNat64 (n : UInt64) : Value := .number (.ofNat64 n)

end Value

/-! ## Members -/

namespace Members

def get? (ms : Members) (key : String) : Option Value := ms.lookup key

def keys (ms : Members) : List String := ms.map Prod.fst

/-- Sets a member: in its place if there is one, else at the end. -/
def insert (key : String) (value : Value) : Members → Members
  | [] => [(key, value)]
  | (k, v) :: rest =>
    if k = key then (key, value) :: rest else (k, v) :: insert key value rest

/-- Sets every member of the second list in turn. -/
def insertAll (ms extra : Members) : Members :=
  extra.foldl (fun ms m => ms.insert m.1 m.2) ms

/-- The members from a list that may name a key more than once: the first place, the last value. -/
def ofList (ms : List (String × Value)) : Members := insertAll [] ms

/-- Takes a member out and moves the last one into its place. -/
def remove (key : String) : Members → Members
  | [] => []
  | (k, v) :: rest =>
    if k = key then
      match rest.getLast? with
      | none => []
      | some last => last :: rest.dropLast
    else (k, v) :: remove key rest

/-- Takes a member out and leaves the others in order. -/
def erase (key : String) : Members → Members
  | [] => []
  | (k, v) :: rest => if k = key then rest else (k, v) :: erase key rest

/-- Changes the value of a member. -/
def update (key : String) (f : Value → Value) : Members → Members
  | [] => []
  | (k, v) :: rest => if k = key then (k, f v) :: rest else (k, v) :: update key f rest

end Members

end Conduit
