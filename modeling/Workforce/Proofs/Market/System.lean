import Workforce.Proofs.Market.Ticks

/-!
# The labor system of a market with every labor

Where no number is out of range, the labor system of a market with every labor is its coefficients,
its target and its laborers, each rounded to an entry. Without rounding no number is out of range.
-/

namespace Workforce.Market

section Rounded

variable {σ α : Type} [Zero σ] [One σ] [Div σ] [LT σ] [DecidableLT σ]
variable [OfScientific σ] [Steering σ α] {m : Market σ α}

lemma HasEveryLabor.system_of_entries (h : m.HasEveryLabor) {A : Fin 4 → Fin 5 → α} {b : α}
    {x : Fin 5 → α} (hA : ∀ i j, entry (m.coefficient (.ofFin i) (.ofFin j)) = .ok (A i j))
    (hb : entry m.plan.target = .ok b)
    (hx : ∀ i, entry (m.laborersOf (.ofFin i)) = .ok (x i)) :
    m.system = .ok ⟨Mat.ofFn A, Mat.ofFn fun _ _ => b, Mat.ofFn fun i _ => x i⟩ := by
  have hallocated (l : Labor) : m.allocated l = .ok (m.laborersOf l) := by
    rw [allocated, h.value?_eq]
  have htarget : (Mat.ofFnM fun (_ : Fin 4) (_ : Fin 1) =>
      (entry m.plan.target : Except MarketError α)) = _ := Mat.ofFnM_eq_ok fun _ _ => hb
  have hlaborers : (Mat.ofFnM fun (i : Fin 5) (_ : Fin 1) =>
      (m.allocated (.ofFin i) >>= entry : Except MarketError α)) = _ :=
    Mat.ofFnM_eq_ok fun i _ => by rw [hallocated]; exact hx i
  rw [system, Mat.ofFnM_eq_ok hA, htarget, hlaborers, mapM_eq_ok hallocated]
  rfl

/-- The entries of a labor system that can be built. -/
lemma entries_of_system {s : System α} (h : m.system = .ok s) :
    (∀ i j, entry (m.coefficient (.ofFin i) (.ofFin j)) = .ok (s.A.get i j)) ∧
      (∀ i j, entry m.plan.target = .ok (s.b.get i j)) ∧
      ∀ i j, m.allocated (.ofFin i) >>= entry = .ok (s.x₀.get i j) := by
  obtain ⟨A, hA, h⟩ := bind_eq_ok_iff.mp h
  obtain ⟨b, hb, h⟩ := bind_eq_ok_iff.mp h
  obtain ⟨-, -, h⟩ := bind_eq_ok_iff.mp h
  obtain ⟨x, hx, h⟩ := bind_eq_ok_iff.mp h
  cases h
  exact ⟨Mat.eq_ok_of_ofFnM hA, Mat.eq_ok_of_ofFnM hb, Mat.eq_ok_of_ofFnM hx⟩

/-- The solution of the labor system is where the steps of the solver end. -/
lemma solveSystem_eq_ok [Zero α] [Add α] [Sub α] [Mul α] (solve : Solver σ α) {s : System α}
    {k : α} {p : Problem α} {steps : List (Outcome σ α)} (hs : m.system = .ok s)
    (hk : entry m.plan.jacobianScale = .ok k) (hp : Problem.linear ⟨s.A⟩ ⟨s.b⟩ k = .ok p)
    (hsteps : solve p ⟨s.x₀⟩ = .ok steps) :
    m.solveSystem solve = .ok (Outcome.lastPoint ⟨s.x₀⟩ steps, steps) := by
  simp [solveSystem, hs, hk, hp, hsteps, checked, Except.mapError]

end Rounded

variable {K : Type} [Field K] [LinearOrder K] {m : Market K K}

/-- The labor system of a market with every labor, in exact arithmetic. -/
lemma HasEveryLabor.system_eq_ok (h : m.HasEveryLabor) : m.system = .ok
    ⟨Mat.ofFn fun i j => m.coefficient (.ofFin i) (.ofFin j), Mat.ofFn fun _ _ => m.plan.target,
      Mat.ofFn fun i _ => m.laborersOf (.ofFin i)⟩ :=
  h.system_of_entries (fun _ _ => rfl) rfl fun _ => rfl

end Workforce.Market
