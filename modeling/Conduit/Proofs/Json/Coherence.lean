import Conduit.Json.Compare
import Conduit.Proofs.Json.Places
import Mathlib.Data.List.Perm.Subperm

/-!
# The operators together

Values that are ordered are ordered the other way round when they change sides
(`Value.order?_swap`), and values that are not are compared by what they mean, which does not depend
on sides either (`Value.same_comm`). So the six operators never contradict each other
(`Value.compare_coherent`), whether the values are numbers, spell numbers or are none.
-/

namespace Conduit

/-! ## Numbers -/

theorem Double.order_swap (x y : Double) : y.order x = (x.order y).map Ordering.swap := by
  rw [order, order, Bool.or_comm]
  split
  · rfl
  · exact congrArg some Std.OrientedOrd.eq_swap

theorem Double.order_self {x : Double} (h : x.isFinite = true) : x.order x = some .eq := by
  have hnan : x.isNaN = false := by
    rw [isFinite, decide_eq_true_eq] at h
    exact decide_eq_false (Nat.lt_asymm h)
  rw [order, hnan]
  exact congrArg some Std.ReflOrd.compare_self

theorem Number.same_self (n : Number) : n.same n = true := by
  cases n with
  | whole a => exact beq_self_eq_true a
  | double d =>
    rw [same, Double.equal, Double.order_self d.property]
    rfl

theorem Number.same_comm (m n : Number) : m.same n = n.same m := by
  cases m <;> cases n
  case whole.whole a b => exact Bool.beq_comm
  case double.double d e =>
    rw [same, same, Double.equal, Double.equal, Double.order_swap d.val e.val]
    rcases d.val.order e.val with _ | _ | _ | _ <;> rfl
  all_goals rfl

namespace Value

variable {a b v w : Value}

/-! ## Equality of meaning -/

theorem sameItems_iff {items others : List Value} :
    sameItems items others = true ↔ List.Forall₂ (fun v w ↦ v.same w = true) items others := by
  induction items generalizing others with
  | nil => cases others <;> simp [sameItems]
  | cons v rest ih => cases others <;> simp [sameItems, ih]

theorem included_iff {members others : Members} :
    included members others = true ↔
      ∀ m ∈ members, ∃ w, others.lookup m.1 = some w ∧ m.2.same w = true := by
  induction members with
  | nil => simp [included]
  | cons m rest ih =>
    obtain ⟨key, v⟩ := m
    rw [included, Bool.and_eq_true, ih, List.forall_mem_cons]
    refine and_congr_left' ?_
    cases others.lookup key <;> simp

theorem same_self (hv : v.Distinct) : v.same v = true := by
  induction v using parts_induction with
  | null => rfl
  | bool b => exact beq_self_eq_true b
  | number n => exact n.same_self
  | string s => exact beq_self_eq_true s
  | array items ih =>
    rw [same, sameItems_iff, List.forall₂_same]
    exact fun v hv' ↦ ih v hv' (distinct_array.1 hv v hv')
  | object members ih =>
    obtain ⟨hkeys, hparts⟩ := distinct_object.1 hv
    rw [same, Bool.and_eq_true, included_iff]
    refine ⟨beq_self_eq_true _, fun m hm ↦ ⟨m.2, ?_, ih m hm (hparts m hm)⟩⟩
    exact (Members.mem_iff_lookup hkeys).1 hm

/-- As many members as there are, all of them included: there are no other keys. -/
theorem keys_perm_of_included {members others : Members} (hkeys : members.keys.Nodup)
    (hlength : members.length = others.length) (h : included members others = true) :
    members.keys.Perm others.keys := by
  have hsubset : members.keys ⊆ others.keys := fun key hkey ↦ by
    obtain ⟨m, hm, rfl⟩ := List.mem_map.1 hkey
    obtain ⟨w, hlookup, -⟩ := included_iff.1 h m hm
    exact List.mem_map.2 ⟨_, mem_of_lookup hlookup, rfl⟩
  exact (hkeys.subperm hsubset).perm_of_length_le (by simp [Members.keys, hlength])

theorem same_symm (hv : v.Distinct) (hw : w.Distinct) (h : v.same w = true) : w.same v = true := by
  induction v using parts_induction generalizing w with
  | null => cases w <;> simp_all [same]
  | bool b => cases w <;> simp_all [same]
  | number n => cases w <;> simp_all [same, n.same_comm]
  | string s => cases w <;> simp_all [same]
  | array items ih =>
    cases w with
    | array others =>
      rw [same, sameItems_iff, List.forall₂_iff_get] at h ⊢
      rw [distinct_array] at hv hw
      refine ⟨h.1.symm, fun i hi hi' ↦ ?_⟩
      exact ih _ (List.get_mem _ _) (hv _ (List.get_mem _ _)) (hw _ (List.get_mem _ _))
        (h.2 i hi' hi)
    | _ => cases h
  | object members ih =>
    cases w with
    | object others =>
      obtain ⟨hkeys, hparts⟩ := distinct_object.1 hv
      obtain ⟨hkeys', hparts'⟩ := distinct_object.1 hw
      rw [same, Bool.and_eq_true, beq_iff_eq] at h
      obtain ⟨hlength, hincluded⟩ := h
      have hperm := keys_perm_of_included hkeys hlength hincluded
      rw [same, Bool.and_eq_true, beq_iff_eq, included_iff]
      refine ⟨hlength.symm, fun m hm ↦ ?_⟩
      obtain ⟨n, hn, hkey⟩ := List.mem_map.1 (hperm.mem_iff.2 (List.mem_map_of_mem hm))
      obtain ⟨x, hlookup, hsame⟩ := included_iff.1 hincluded n hn
      obtain rfl : m.2 = x := by
        rw [hkey, (Members.mem_iff_lookup hkeys').1 hm] at hlookup
        exact Option.some.inj hlookup
      exact ⟨n.2, hkey ▸ (Members.mem_iff_lookup hkeys).1 hn,
        ih n hn (hparts n hn) (hparts' m hm) hsame⟩
    | _ => cases h

theorem same_comm (hv : v.Distinct) (hw : w.Distinct) : v.same w = w.same v :=
  Bool.eq_iff_iff.2 ⟨same_symm hv hw, same_symm hw hv⟩

/-! ## The order of values -/

theorem order?_swap (a b : Value) : b.order? a = (a.order? b).map Ordering.swap := by
  unfold order?
  generalize a.asNumber? = x
  generalize b.asNumber? = y
  cases x <;> cases y
  case some.some x y => exact x.order_swap y
  -- Unless both are numbers, only two texts are ordered.
  all_goals
    cases a <;> cases b
    case string.string s t => exact congrArg some Std.OrientedOrd.eq_swap
    all_goals rfl

/-- A value that is ordered at all is neither above nor below itself. -/
theorem order?_self (a : Value) : a.order? a = some .eq ∨ a.order? a = none := by
  have hswap := a.order?_swap a
  generalize a.order? a = o at hswap ⊢
  rcases o with _ | _ | _ | _
  · exact .inr rfl
  · cases hswap
  · exact .inl rfl
  · cases hswap

/-! ## The operators -/

theorem compare_of_order? {o : Ordering} (h : a.order? b = some o) (op : Operator) :
    a.compare op b = op.allows o := by
  simp only [compare, h]

theorem compare_of_unordered (h : a.order? b = none) (op : Operator) :
    a.compare op b = match op with
      | .eq => a.same b
      | .ne => !a.same b
      | _ => false := by
  cases op <;> simp only [compare, h]

theorem compare_eq_self (ha : a.Distinct) : a.compare .eq a = true := by
  rcases a.order?_self with h | h
  · rw [compare_of_order? h]
    rfl
  · rw [compare_of_unordered h]
    exact same_self ha

end Value

/-- The operator that says the same when the sides are exchanged. -/
def Operator.turned : Operator → Operator
  | .eq => .eq
  | .ne => .ne
  | .gt => .lt
  | .ge => .le
  | .lt => .gt
  | .le => .ge

namespace Value

variable {a b : Value}

theorem compare_turned (ha : a.Distinct) (hb : b.Distinct) (op : Operator) :
    b.compare op.turned a = a.compare op b := by
  have hswap := a.order?_swap b
  cases h : a.order? b with
  | none =>
    rw [h] at hswap
    rw [compare_of_unordered h, compare_of_unordered hswap]
    cases op <;> simp [Operator.turned, same_comm ha hb]
  | some o =>
    rw [h] at hswap
    rw [compare_of_order? h, compare_of_order? hswap]
    cases op <;> cases o <;> rfl

/-- Of less, equal and greater at most one holds, and not equal and the weak operators go by them. -/
theorem compare_graded (a b : Value) :
    a.compare .ne b = !a.compare .eq b ∧
      (a.compare .lt b = true → a.compare .le b = true ∧ a.compare .ne b = true) ∧
      [Operator.lt, .eq, .gt].countP (a.compare · b) ≤ 1 ∧
      (a.compare .le b = true ∨ a.compare .ge b = true →
        [Operator.lt, .eq, .gt].countP (a.compare · b) = 1) := by
  cases h : a.order? b with
  | none =>
    simp only [compare_of_unordered h]
    cases a.same b <;> simp
  | some o =>
    simp only [compare_of_order? h]
    cases o <;> decide

/-- The six operators are coherent on any two values. -/
theorem compare_coherent (ha : a.Distinct) (hb : b.Distinct) :
    a.compare .ne b = !a.compare .eq b ∧ a.compare .eq a = true ∧
      a.compare .eq b = b.compare .eq a ∧ a.compare .lt b = b.compare .gt a ∧
      a.compare .le b = b.compare .ge a ∧
      (a.compare .lt b = true → a.compare .le b = true ∧ a.compare .ne b = true) ∧
      [Operator.lt, .eq, .gt].countP (a.compare · b) ≤ 1 ∧
      (a.compare .le b = true ∨ a.compare .ge b = true →
        [Operator.lt, .eq, .gt].countP (a.compare · b) = 1) := by
  obtain ⟨hne, hlt, hatMost, hexactly⟩ := a.compare_graded b
  have hturned (op : Operator) := (compare_turned ha hb op).symm
  exact ⟨hne, compare_eq_self ha, hturned .eq, hturned .lt, hturned .le, hlt, hatMost, hexactly⟩

/-- Objects that name their keys in different orders, with texts in them that spell what is not a
number and what is infinite. -/
theorem compare_coherent_objects :
    let a := Value.object [("x", .array [.string "nan", .null]), ("y", .object [])]
    let b := Value.object [("y", .object []), ("x", .array [.string "nan", .string "inf"])]
    a.Distinct ∧ b.Distinct ∧
      a.compare .ne b = !a.compare .eq b ∧ a.compare .eq a = true ∧
      a.compare .eq b = b.compare .eq a ∧ a.compare .lt b = b.compare .gt a ∧
      a.compare .le b = b.compare .ge a ∧
      (a.compare .lt b = true → a.compare .le b = true ∧ a.compare .ne b = true) ∧
      [Operator.lt, .eq, .gt].countP (a.compare · b) ≤ 1 ∧
      (a.compare .le b = true ∨ a.compare .ge b = true →
        [Operator.lt, .eq, .gt].countP (a.compare · b) = 1) := by
  intro a b
  have ha : a.Distinct := by simp [a, Distinct, Members.keys]
  have hb : b.Distinct := by simp [b, Distinct, Members.keys]
  exact ⟨ha, hb, compare_coherent ha hb⟩

end Value

end Conduit
