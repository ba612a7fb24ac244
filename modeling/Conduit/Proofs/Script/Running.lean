import Conduit.Proofs.Stage.Breakdown

/-!
# Running calls

What the machine of a script does at a step, at literals and at a call of `clamp`. A program that
calls `clamp` with bounds out of order breaks down wherever it runs (`run_clamping`).
-/

namespace Conduit.Script

namespace Eval

variable {α β : Type} {e : Eval α} {m m' : Machine}

theorem bind_of_ok {a : α} (h : e m = .ok a m') (k : α → Eval β) : (e >>= k) m = k a m' := by
  change EStateM.bind e k m = _
  rw [EStateM.bind, h]

theorem bind_of_error {s : Signal} (h : e m = .error s m') (k : α → Eval β) :
    (e >>= k) m = .error s m' := by
  change EStateM.bind e k m = _
  rw [EStateM.bind, h]

theorem tick_of_lt (h : m.operations < limits.operations) :
    tick m = .ok () { m with operations := m.operations + 1 } := by
  have hget : (get : Eval Machine) m = .ok m m := rfl
  rw [tick, bind_of_ok hget, if_neg (Nat.not_le.2 h)]
  rfl

variable {f : Frame} {fuel : Nat}

theorem expr_literal (h : m.operations < limits.operations) (d : Datum) :
    expr f (fuel + 1) (.literal d) m = .ok d { m with operations := m.operations + 1 } := by
  rw [expr, bind_of_ok (tick_of_lt h)]
  rfl

theorem exprs_literals (ds : List Datum) (h : m.operations + ds.length ≤ limits.operations)
    (hf : ds.length < fuel) :
    exprs f fuel (ds.map .literal) m = .ok ds { m with operations := m.operations + ds.length } := by
  induction ds generalizing fuel m with
  | nil =>
    cases fuel with
    | zero => cases hf
    | succ fuel =>
      rw [List.map_nil, exprs]
      rfl
  | cons d ds ih =>
    rw [List.length_cons] at h hf
    obtain ⟨fuel, rfl⟩ : ∃ n, fuel = n + 2 := ⟨fuel - 2, by omega⟩
    have hrest : exprs f (fuel + 1) (ds.map .literal) { m with operations := m.operations + 1 } =
        .ok ds { m with operations := m.operations + 1 + ds.length } :=
      ih (by dsimp only; omega) (by omega)
    rw [List.map_cons, exprs, bind_of_ok (expr_literal (by omega) d), bind_of_ok hrest,
      List.length_cons, Nat.add_comm ds.length, ← Nat.add_assoc]
    rfl

theorem library_of_error {name : String} {args : List Datum} {b : Breakdown}
    (h : Library.call f.setting name args = .error b) :
    library f name args m = .error (.brokeDown b) m := by
  rw [library, h]
  rfl

/-- A call of `clamp` on literals, in a program that defines no functions. -/
theorem callExpr_clamp (hf : f.program.functions = []) (b : Breakdown)
    (h : m.operations + 3 ≤ limits.operations) :
    callExpr f (fuel + 5) "clamp"
        ([.float b.value, .float b.low, .float b.high].map .literal) m =
      .error (.brokeDown b) { m with operations := m.operations + 3 } := by
  have hnone : f.program.function? "clamp" 3 = none := by
    rw [Program.function?, hf]
    rfl
  rw [callExpr, bind_of_ok (exprs_literals [.float b.value, .float b.low, .float b.high] h
    (by simp))]
  dsimp only [List.length_cons, List.length_nil]
  rw [hnone]
  · exact bind_of_error (library_of_error (Library.call_eq_error_iff.2 ⟨rfl, rfl⟩)) _
  · intro v h
    cases h

end Eval

/-- A program that calls `clamp` on three numbers. -/
def clamping (x low high : Double) : Program where
  body := [.expr (.call "clamp" ([.float x, .float low, .float high].map .literal))]
  functions := []

/-- Wherever it runs, such a program breaks down if the bounds are out of order. -/
theorem run_clamping (b : Breakdown) (setting : Library.Setting) (scope : List Binding) :
    (clamping b.value b.low b.high).run setting scope = .error (.brokeDown b) := by
  have hfuel : evalFuel = 999992 + 8 := rfl
  have hbody : Eval.body ⟨clamping b.value b.low b.high, setting⟩ (999992 + 8)
      (clamping b.value b.low b.high).body .unit { scope } =
        .error (.brokeDown b) { scope, operations := 5 } := by
    rw [clamping, Eval.body]
    refine Eval.bind_of_error ?_ _
    rw [Eval.stmt, Eval.bind_of_ok (Eval.tick_of_lt (show 0 < 100000 by decide))]
    dsimp only
    rw [Eval.expr, Eval.bind_of_ok (Eval.tick_of_lt (show 1 < 100000 by decide))]
    exact Eval.callExpr_clamp rfl b (show 2 + 3 ≤ 100000 by decide)
  unfold Program.run
  simp only [EStateM.run, hfuel, hbody]

end Conduit.Script
