import Conduit.Json.Record
import Conduit.Proofs.Basic
import Conduit.Proofs.Json.Parts

/-!
# What readers give

However a text is written, each object that a reader gives names a key once
(`Json.yields_value`). What the step function keeps true of its state is true of what an object is
read to (`Json.yields_object`).
-/

namespace Conduit.Json

variable {α β σ : Type}

/-- All that the reader gives has the property. -/
def Yields (reader : Reader α) (P : α → Prop) : Prop :=
  ∀ ⦃s : Bytes⦄ ⦃a : α⦄ ⦃rest : Bytes⦄, reader s = .ok (a, rest) → P a

/-! ## Values -/

theorem of_ite {c : Prop} [Decidable c] {x y : Except Fault α} {a : α} {p : Prop}
    (hx : x = .ok a → p) (hy : y = .ok a → p) (h : (if c then x else y) = .ok a) : p := by
  split at h
  · exact hx h
  · exact hy h

theorem not_yields_error {e : Fault} {a : α} {p : Prop} (h : (.error e : Except Fault α) = .ok a) :
    p := by
  cases h

theorem distinct_of_map {x : Except Fault α} {f : α → Value × Bytes} {v : Value} {rest : Bytes}
    (hf : ∀ a, x = .ok a → (f a).1.Distinct) (h : x.map f = .ok (v, rest)) : v.Distinct := by
  obtain ⟨a, ha, heq⟩ := map_eq_ok h
  have hv : (f a).1 = v := congrArg Prod.fst heq
  exact hv ▸ hf a ha

section

variable {fuel depth : Nat} (hitems : ∀ depth, Yields (readItems fuel depth) (∀ v ∈ ·, v.Distinct))
  (hmembers : ∀ depth, Yields (readMembers fuel depth) (∀ m ∈ ·, m.2.Distinct))
  (hvalue : ∀ depth, Yields (readValue fuel depth) Value.Distinct)

include hitems hmembers in
theorem yields_value_succ : Yields (readValue (fuel + 1) depth) Value.Distinct := by
  intro s v rest
  rw [readValue]
  cases skipSpace s with
  | nil => exact not_yields_error
  | cons b more =>
    -- the words, the numbers and the strings
    refine of_ite (distinct_of_map fun _ _ ↦ Value.distinct_null) ?_
    refine of_ite (distinct_of_map fun _ _ ↦ Value.distinct_bool) ?_
    refine of_ite (distinct_of_map fun _ _ ↦ Value.distinct_bool) ?_
    refine of_ite (distinct_of_map fun _ _ ↦ Value.distinct_number) ?_
    refine of_ite (distinct_of_map fun _ _ ↦ Value.distinct_number) ?_
    refine of_ite (distinct_of_map fun _ _ ↦ Value.distinct_string) ?_
    refine of_ite ?_ (of_ite ?_ not_yields_error)
    all_goals
      cases depth
      case zero => exact not_yields_error
      cases skipSpace more
      case nil => exact not_yields_error
    · refine of_ite (fun h ↦ ?_) ?_
      · obtain ⟨rfl, -⟩ := Prod.mk.inj (Except.ok.inj h)
        simp
      · exact distinct_of_map fun r hr ↦ Value.distinct_array.2 (hitems _ hr)
    · refine of_ite (fun h ↦ ?_) (of_ite ?_ not_yields_error)
      · obtain ⟨rfl, -⟩ := Prod.mk.inj (Except.ok.inj h)
        simp [Members.keys]
      · refine distinct_of_map fun r hr ↦ Value.distinct_object.2 ⟨?_, fun m hm ↦ ?_⟩
        · exact Members.nodup_keys_ofList r.1
        · exact hmembers _ hr m (Members.mem_of_mem_ofList hm)

include hvalue hitems in
theorem yields_items_succ : Yields (readItems (fuel + 1) depth) (∀ v ∈ ·, v.Distinct) := by
  intro s vs rest h
  rw [readItems] at h
  split at h
  · cases h
  rename_i v _ hv
  split at h
  · cases h
  split at h
  · obtain ⟨rfl, -⟩ := Prod.mk.inj (Except.ok.inj h)
    exact fun w hw ↦ List.mem_singleton.1 hw ▸ hvalue _ hv
  split at h
  · split at h
    · cases h
    split at h
    · cases h
    · obtain ⟨r, hr, heq⟩ := map_eq_ok h
      obtain ⟨rfl, -⟩ := Prod.mk.inj heq
      exact fun w hw ↦ (List.mem_cons.1 hw).elim (fun heq ↦ heq ▸ hvalue _ hv) (hitems _ hr w)
  · cases h

include hvalue hmembers in
theorem yields_members_succ : Yields (readMembers (fuel + 1) depth) (∀ m ∈ ·, m.2.Distinct) := by
  intro s ms rest h
  rw [readMembers] at h
  split at h
  · cases h
  split at h
  · cases h
  split at h
  · cases h
  split at h
  · cases h
  rename_i v _ hv
  split at h
  · cases h
  split at h
  · obtain ⟨rfl, -⟩ := Prod.mk.inj (Except.ok.inj h)
    exact fun m hm ↦ List.mem_singleton.1 hm ▸ hvalue _ hv
  split at h
  · split at h
    · cases h
    split at h
    · obtain ⟨r, hr, heq⟩ := map_eq_ok h
      obtain ⟨rfl, -⟩ := Prod.mk.inj heq
      exact fun m hm ↦ (List.mem_cons.1 hm).elim (fun heq ↦ heq ▸ hvalue _ hv) (hmembers _ hr m)
    split at h <;> cases h
  · cases h

end

/-- What one call gives rests on what the calls with one unit of fuel less give. -/
theorem yields_all (fuel : Nat) :
    (∀ depth, Yields (readValue fuel depth) Value.Distinct) ∧
      (∀ depth, Yields (readItems fuel depth) (∀ v ∈ ·, v.Distinct)) ∧
      ∀ depth, Yields (readMembers fuel depth) (∀ m ∈ ·, m.2.Distinct) := by
  induction fuel with
  | zero =>
    refine ⟨fun depth s a rest h ↦ ?_, fun depth s a rest h ↦ ?_, fun depth s a rest h ↦ ?_⟩
    · rw [readValue] at h
      cases h
    · rw [readItems] at h
      cases h
    · rw [readMembers] at h
      cases h
  | succ fuel ih =>
    obtain ⟨hvalue, hitems, hmembers⟩ := ih
    exact ⟨fun _ ↦ yields_value_succ hitems hmembers, fun _ ↦ yields_items_succ hitems hvalue,
      fun _ ↦ yields_members_succ hmembers hvalue⟩

/-- No object in a value that was read names a key twice. -/
theorem yields_value (fuel depth : Nat) : Yields (readValue fuel depth) Value.Distinct :=
  (yields_all fuel).1 depth

/-! ## Lists and objects -/

theorem yields_itemsOf {item : Reader α} {P : α → Prop} (h : Yields item P) (fuel : Nat)
    (first : Bool) : Yields (readItemsOf item fuel first) (∀ a ∈ ·, P a) := by
  induction fuel generalizing first with
  | zero =>
    intro s as rest hr
    cases hr
  | succ fuel ih =>
    intro s as rest hr
    obtain ⟨next, -, hr⟩ := bind_eq_ok hr
    cases next with
    | none =>
      obtain ⟨_, -, hr⟩ := bind_eq_ok hr
      obtain ⟨rfl, -⟩ := Prod.mk.inj (Except.ok.inj hr)
      exact fun a ha ↦ absurd ha List.not_mem_nil
    | some s =>
      obtain ⟨⟨a, _⟩, ha, hr⟩ := bind_eq_ok hr
      obtain ⟨⟨as, _⟩, has, hr⟩ := bind_eq_ok hr
      obtain ⟨rfl, -⟩ := Prod.mk.inj (Except.ok.inj hr)
      exact fun b hb ↦ (List.mem_cons.1 hb).elim (fun heq ↦ heq ▸ h ha) (ih _ has b)

/-- A shape that nothing has gives nothing. -/
theorem not_readScalar_error {shape : Shape α} (h : ∀ v, ∃ m, shape v = .error m) {s : Bytes}
    {r : α × Bytes} : readScalar shape s ≠ .ok r := by
  intro hr
  rw [readScalar] at hr
  split at hr
  · cases hr
  split at hr
  · split at hr <;> cases hr
  split at hr
  · cases hr
  rename_i v _ _
  obtain ⟨m, hm⟩ := h v
  rw [hm] at hr
  cases hr

theorem yields_list {item : (depth : Nat) → Reader α} {P : α → Prop}
    (h : ∀ depth, Yields (item depth) P) (depth : Nat) :
    Yields (readList depth item) (∀ a ∈ ·, P a) := by
  intro s as rest hr
  rw [readList] at hr
  split at hr
  · cases depth with
    | zero => cases hr
    | succ depth => exact yields_itemsOf (h depth) _ _ hr
  · cases hr
  · exact absurd hr (not_readScalar_error fun v ↦ ⟨_, rfl⟩)

section FoldMembers

variable {step : σ → String → Bytes → Except Fault (σ × Bytes)} {P : σ → Prop}
  (hstep : ∀ {a}, P a → ∀ key, Yields (step a key) P)

include hstep

/-- A step with one member keeps what the remaining members keep. -/
theorem foldMembers_member {fuel : Nat} {a b : σ} (ha : P a)
    (hmore : ∀ (first : Bool) {a : σ}, P a → Yields (foldMembers step fuel first a) P)
    {s rest : Bytes} (h : (do
      let (key, rest) ← readString s
      let (state, rest) ← step a key rest
      foldMembers step fuel false state rest) = .ok (b, rest)) : P b := by
  obtain ⟨⟨key, _⟩, -, h⟩ := bind_eq_ok h
  obtain ⟨⟨_, _⟩, hb, h⟩ := bind_eq_ok h
  exact hmore _ (hstep ha key hb) h

theorem foldMembers_keeps (fuel : Nat) (first : Bool) {a : σ} (ha : P a) :
    Yields (foldMembers step fuel first a) P := by
  induction fuel generalizing first a with
  | zero =>
    intro s b rest h
    cases h
  | succ fuel ih =>
    intro s b rest h
    rw [foldMembers] at h
    dsimp only at h
    split at h
    · cases h
    split at h
    · obtain ⟨rfl, -⟩ := Prod.mk.inj (Except.ok.inj h)
      exact ha
    split at h
    · split at h
      · exact foldMembers_member hstep ha ih h
      · cases h
    split at h
    · split at h
      · cases h
      split at h
      · exact foldMembers_member hstep ha ih h
      split at h <;> cases h
    · cases h

end FoldMembers

/-- What the steps keep true is true of the state that the whole is made of. -/
theorem yields_object {expected : String} {depth : Nat} {start : σ}
    {step : (depth : Nat) → σ → String → Bytes → Except Fault (σ × Bytes)}
    {finish : σ → Except Mismatch α} {P : σ → Prop} {Q : α → Prop} (hstart : P start)
    (hstep : ∀ {depth a}, P a → ∀ key, Yields (step depth a key) P)
    (hfinish : ∀ {a b}, P a → finish a = .ok b → Q b) :
    Yields (readObject expected depth start step finish) Q := by
  intro s b rest h
  rw [readObject] at h
  split at h
  · cases depth with
    | zero => cases h
    | succ depth =>
      obtain ⟨⟨a, _⟩, ha, h⟩ := bind_eq_ok h
      dsimp only at h
      split at h
      · cases h
      · rename_i c hc
        obtain ⟨_, -, h⟩ := bind_eq_ok h
        obtain ⟨rfl, -⟩ := Prod.mk.inj (Except.ok.inj h)
        exact hfinish (foldMembers_keeps hstep _ _ hstart ha) hc
  · cases h
  · exact absurd h (not_readScalar_error fun v ↦ ⟨_, rfl⟩)

theorem yields_record {expected : String} {depth : Nat} {start : σ}
    {step : (depth : Nat) → σ → String → Bytes → Except Fault (σ × Bytes)}
    {finish : σ → Except Mismatch α} {items : (depth : Nat) → Reader α} {P : σ → Prop}
    {Q : α → Prop} (hstart : P start) (hstep : ∀ {depth a}, P a → ∀ key, Yields (step depth a key) P)
    (hfinish : ∀ {a b}, P a → finish a = .ok b → Q b) (hitems : ∀ depth, Yields (items depth) Q) :
    Yields (readRecord expected depth start step finish items) Q := by
  intro s a rest h
  rw [readRecord] at h
  split at h
  · cases depth with
    | zero => cases h
    | succ depth =>
      obtain ⟨⟨b, _⟩, hb, h⟩ := bind_eq_ok h
      obtain ⟨_, -, h⟩ := bind_eq_ok h
      obtain ⟨rfl, -⟩ := Prod.mk.inj (Except.ok.inj h)
      exact hitems depth hb
  · exact yields_object hstart hstep hfinish h

theorem yields_field {name : String} {old : Option α} {value : Reader α} {P : α → Prop}
    (h : Yields value P) : Yields (readField name old value) (∀ a ∈ ·, P a) := by
  intro s new rest hr
  unfold readField at hr
  cases old with
  | some _ => cases hr
  | none =>
    obtain ⟨_, -, hr⟩ := bind_eq_ok hr
    obtain ⟨⟨a, _⟩, ha, hr⟩ := bind_eq_ok hr
    obtain ⟨rfl, -⟩ := Prod.mk.inj (Except.ok.inj hr)
    exact fun b hb ↦ Option.some.inj hb ▸ h ha

theorem yields_itemOr {first : Bool} {item : Reader α} {missing : Except Mismatch α} {P : α → Prop}
    (h : Yields item P) (hmissing : ∀ a, missing = .ok a → P a) :
    Yields (readItemOr first item missing) P := by
  intro s a rest hr
  obtain ⟨next, -, hr⟩ := bind_eq_ok hr
  cases next with
  | some s => exact h hr
  | none =>
    cases missing with
    | error m => cases hr
    | ok b =>
      obtain ⟨rfl, -⟩ := Prod.mk.inj (Except.ok.inj hr)
      exact hmissing b rfl

end Conduit.Json
