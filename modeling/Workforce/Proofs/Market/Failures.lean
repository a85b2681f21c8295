import Workforce.Proofs.Descent.Failures
import Workforce.Proofs.Market.System
import Workforce.Request.Market

/-!
# Failures of a tick

A town is in range when every labor has laborers and all its numbers can be rounded. Ticks keep it
so. A tick of such a town fails where its descent does, or where a negative population would be
divided among no laborers. Nothing is said of how matrices are inverted.
-/

namespace Workforce

namespace Quantity

variable {a b : Quantity}

lemma fits_mul_real (a : Quantity) (x : Float) : (a * real x).fits = true := by
  cases a <;> rfl

lemma fits_larger (ha : a.fits = true) (hb : b.fits = true) : (larger a b).fits = true := by
  rw [larger]
  split_ifs <;> assumption

end Quantity

namespace Request

open Market

variable {t t' report : Town} {e : MarketError}

lemma entry_of_fits {q : Quantity} (h : q.fits = true) :
    (entry q : Except MarketError Float32) = .ok (narrow q.toFloat) := by
  rw [entry, entryOf_of_fits h]
  rfl

lemma fits_coefficient (t : Town) (g : Good) (l : Labor) : (t.coefficient g l).fits = true := by
  rw [coefficient]
  split
  · rfl
  · decide +kernel

/-- The numbers of a plan can be rounded, and its steps can be taken. -/
structure PlanInRange (plan : Plan Quantity) : Prop where
  target : plan.target.fits = true
  minAllocation : plan.minAllocation.fits = true
  jacobianScale : plan.jacobianScale.fits = true
  damping : plan.descent.damping.fits = true
  scales : plan.descent.HasEntries Float32
  exists_steps : ∃ n, plan.steps.steps = .ok n

/-- The numbers of a town can be rounded, and every labor has laborers. -/
structure InRange (t : Town) : Prop where
  plan : PlanInRange t.plan
  population : t.population.fits = true
  staffed : t.IsStaffed
  laborers (l : Labor) : (t.laborersOf l).fits = true

/-- Laborers can be scaled by a real number, unless a negative population would be divided among no
laborers. -/
lemma workforceFactor_cases (h : t.population.fits = true) :
    (∃ x, t.workforceFactor = .ok (.real x)) ∨
      t.workforceFactor = .error .divisionByZero ∧ t.population < 0 := by
  rw [workforceFactor]
  simp only [entry_of_fits h, ok_bind]
  split_ifs with hlt hzero
  · exact .inr ⟨rfl, Quantity.neg_of_lt_of_beq_zero hlt hzero⟩
  · exact .inl ⟨_, rfl⟩
  · exact .inl ⟨1.0, rfl⟩

namespace InRange

lemma exists_system (h : InRange t) : ∃ s, t.system = .ok s :=
  ⟨_, h.staffed.hasEveryLabor.system_of_entries
    (fun i j => entry_of_fits (fits_coefficient t (.ofFin i) (.ofFin j)))
    (entry_of_fits h.plan.target) (fun i => entry_of_fits (h.laborers (.ofFin i)))⟩

lemma allocate (h : InRange t) (x : Grid Float32) : InRange (t.allocate x) where
  plan := h.plan
  population := h.population
  staffed := h.staffed.allocate x
  laborers l := by
    obtain ⟨i, -, rfl⟩ := List.mem_map.mp (Labor.all_eq_map ▸ Labor.mem_all l)
    rw [laborersOf_allocate]
    cases x.get? i 0 with
    | none => exact h.laborers _
    | some a => rfl

lemma rescale (h : InRange t) (x : Float) : InRange (t.rescale (.real x)) where
  plan := h.plan
  population := h.population
  staffed := h.staffed.rescale _
  laborers l := by
    rw [h.staffed.laborersOf_rescale]
    exact Quantity.fits_larger (Quantity.fits_mul_real _ x) h.plan.minAllocation

variable [Inverter Float32]

/-- The solver of a town in range is given a total problem in five parameters. -/
lemma solveSystem_cases (h : InRange t) :
    (∃ x steps, t.solveSystem (planned t.plan) = .ok (x, steps)) ∨
      ∃ (e : SolveError) (p : Problem Float32),
        t.solveSystem (planned t.plan) = .error (.solve e) ∧ p.parameters = 5 ∧
          t.plan.descent.FailsWith p e := by
  obtain ⟨n, hn⟩ := h.plan.exists_steps
  obtain ⟨s, hs⟩ := h.exists_system
  obtain ⟨p, hp, hparameters, htotal⟩ :=
    Problem.exists_linear s.A s.b (narrow t.plan.jacobianScale.toFloat)
  simp only [solveSystem, hs, ok_bind, entry_of_fits h.plan.jacobianScale, hp, checked,
    Except.mapError, planned, hn]
  obtain ⟨os, hos⟩ | ⟨e, he, hfails⟩ := Descent.iterate_cases (s := t.plan.descent) (n := n)
    htotal (entryOf_of_fits h.plan.damping) h.plan.scales (x := ⟨s.x₀⟩)
    (by rw [hparameters]; rfl)
  · exact .inl ⟨_, os, by rw [hos]; rfl⟩
  · exact .inr ⟨e, p, by rw [he]; rfl, hparameters, hfails⟩

/-- A tick whose steps are found reports them, unless a negative population would be divided among
no laborers. -/
lemma tick_of_solveSystem (h : InRange t) {x : Grid Float32}
    {steps : List (Outcome Quantity Float32)}
    (hsolve : t.deriveAvailable.deriveLaborValues.solveSystem (planned t.plan) = .ok (x, steps)) :
    (∃ report, t.tick = ({ report with ticks := report.ticks + 1 }, .ok report) ∧
      report.lastSteps = steps ∧ InRange report) ∨
    t.tick.2 = .error .divisionByZero ∧ t.population < 0 := by
  -- the derived goods and labor values leave plan, population and laborers
  have hderived : InRange t.deriveAvailable.deriveLaborValues :=
    ⟨h.plan, h.population, h.staffed, h.laborers⟩
  have hallocated := hderived.allocate x
  obtain ⟨y, hfactor⟩ | ⟨he, hnegative⟩ := workforceFactor_cases hallocated.population
  · obtain ⟨hplan, hpopulation, hstaffed, hlaborers⟩ := hallocated.rescale y
    exact .inl ⟨_, tickWith_eq_ok_iff.mpr ⟨_, steps, redistributeWith_eq_ok_iff.mpr
      ⟨x, .real y, hsolve, hfactor, rfl⟩, rfl, rfl⟩, rfl, hplan, hpopulation, hstaffed, hlaborers⟩
  · refine .inr ⟨?_, hnegative⟩
    simp [tick, tickWith, redistributeWith, hsolve, he]

/-- A tick of a town in range succeeds and keeps it in range, or its descent fails, or a negative
population would be divided among no laborers. -/
lemma tick_cases (h : InRange t) :
    (∃ report, t.tick = ({ report with ticks := report.ticks + 1 }, .ok report) ∧
      InRange report) ∨
    (∃ (e : SolveError) (p : Problem Float32), t.tick.2 = .error (.solve e) ∧ p.parameters = 5 ∧
      t.plan.descent.FailsWith p e) ∨
    t.tick.2 = .error .divisionByZero ∧ t.population < 0 := by
  have hderived : InRange t.deriveAvailable.deriveLaborValues :=
    ⟨h.plan, h.population, h.staffed, h.laborers⟩
  obtain ⟨x, steps, hsolve⟩ | ⟨e, p, he, hp, hfails⟩ := hderived.solveSystem_cases
  · obtain ⟨report, hreport, -, hrange⟩ | hnegative := h.tick_of_solveSystem hsolve
    · exact .inl ⟨report, hreport, hrange⟩
    · exact .inr (.inr hnegative)
  · exact .inr (.inl ⟨e, p, tickWith_eq_error he, hp, hfails⟩)

lemma of_tick (h : InRange t) {next : Town} (htick : t.tick = (next, .ok report)) :
    InRange next := by
  obtain ⟨report', hreport, hrange⟩ | ⟨e, p, he, -⟩ | ⟨he, -⟩ := h.tick_cases
  · cases htick.symm.trans hreport
    exact ⟨hrange.plan, hrange.population, hrange.staffed, hrange.laborers⟩
  · cases he.symm.trans (congrArg Prod.snd htick)
  · cases he.symm.trans (congrArg Prod.snd htick)

end InRange

end Request

end Workforce
