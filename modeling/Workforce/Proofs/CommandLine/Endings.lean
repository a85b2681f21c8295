import Workforce.CommandLine.Demo
import Workforce.Proofs.CommandLine.Simulation

/-!
# How programs end

A program that has settings ends by itself, with its help, a refusal of its arguments, all of its
work done or a line about a singular matrix, or an error gets out of it. The demonstration lets a
negative number of steps through, the simulation a population that is not positive, and both of
them numbers out of range and a line search without an end.
-/

namespace Workforce

/-- Inverses are compared unless a matrix is singular, or infinite or undefined when scaled. -/
lemma Mat.isSingular_or_eq_notFinite_of_compareInverses [LinearSolver Float32] {m n : ℕ}
    (hn : 0 < n) {A : Mat Float32 m n} {levels : ℕ} {β : Float32} {e : InversionError}
    (h : A.compareInverses levels β = .error e) : e.isSingular = true ∨ e = .notFinite := by
  obtain hinverse | ⟨X, -, hcompared⟩ := bind_eq_error_iff.mp h
  · obtain hinvert | ⟨Y, -, hmultiplied⟩ := bind_eq_error_iff.mp hinverse
    · exact Mat.isSingular_or_eq_notFinite hn hinvert
    · cases hmultiplied
  · cases hcompared

namespace CommandLine

open Request

/-! ### Endings -/

/-- The line about a singular matrix. -/
def IsErrorLine (e : InversionError) (line : String) : Prop :=
  line = s!"ERROR: {e.message}" ∨ ∃ tick : ℕ, line = s!"  ERROR at tick {tick}: {e.message}"

/-- The executions of a program that say how they have ended. -/
inductive Reported (p : Program) : Execution → Prop
  | help : Reported p ⟨.exit 0, p.help, ""⟩
  | refused (e : UsageError) : Reported p ⟨.exit 2, "", p.refusal e⟩
  | completed (lines : List String) : Reported p (.ofLines (.exit 0) lines)
  | singular {lines : List String} {line : String} {e : InversionError} (mem_lines : line ∈ lines)
      (isErrorLine : IsErrorLine e line) (isSingular : e.isSingular = true) :
      Reported p (.ofLines (.exit 1) lines)

variable {env : Environment} {settings : Settings}
variable {values : List (String × OptionValue)}

/-- A program whose settings load ends as what it runs does. -/
lemma Program.execute_cases (p : Program)
    (main : Settings → List (String × OptionValue) → Except UsageError Execution)
    (hsettings : ambient env = .ok settings) (arguments : List String) :
    Reported p (p.execute env arguments main) ∨
      ∃ values x, parse p.options arguments = .ok (.run values) ∧ main settings values = .ok x ∧
        p.execute env arguments main = x := by
  cases harguments : parse p.options arguments with
  | error e =>
    rw [Program.execute, hsettings]
    simp only [harguments]
    exact .inl (.refused e)
  | ok invocation =>
    cases invocation with
    | help =>
      rw [Program.execute, hsettings]
      simp only [harguments]
      exact .inl .help
    -- what the program runs may still refuse what it is asked for
    | run values =>
      cases hmain : main settings values with
      | error e =>
        rw [Program.execute_of_error hsettings harguments hmain]
        exact .inl (.refused e)
      | ok x =>
        exact .inr ⟨values, x, rfl, hmain, Program.execute_of_ok hsettings harguments hmain⟩

/-- The line searches of all problems end: the first scale is finite, and the floor is above the
least normal number or the factor at most one half. -/
def SearchesEnd (settings : Settings) : Prop :=
  settings.start.isFinite = true ∧ (leastNormal < settings.floor ∨ settings.shrink ≤ 0.5)

/-! ### The demonstration -/

/-- The number of steps that is asked for. -/
def stepsAsked (values : List (String × OptionValue)) : ℤ := Invocation.integerD values "--steps" 5

/-- The damping that the demonstration is asked for. -/
def demoDampingAsked (values : List (String × OptionValue)) : Float :=
  Invocation.realD values "--beta" 0

/-- The errors that get out of the demonstration. -/
inductive EscapesDemo (settings : Settings) (values : List (String × OptionValue)) :
    RequestError → Prop
  | negativeSteps (h : stepsAsked values < 0) :
    EscapesDemo settings values (.parameter (.negativeSteps (.whole (stepsAsked values))))
  | notFinite : EscapesDemo settings values (.solve (.inversion .notFinite))
  | endless (h : ¬ SearchesEnd settings) : EscapesDemo settings values (.solve .endless)

lemma exists_of_shape {x : Answer (Grid Float32)} {m n : ℕ} (h : x.map Grid.shape = .ok ⟨m, n⟩) :
    ∃ A : Mat Float32 m n, x = .ok ⟨A⟩ := by
  obtain ⟨⟨A⟩, hx, hshape⟩ := map_eq_ok_iff.mp h
  cases hshape
  exact ⟨A, hx⟩

/-- The demonstration descends in a total problem in two parameters. -/
lemma exists_problem_demo (x : Float) : ∃ (b : BuiltProblem),
    problem ⟨false, demoMatrix, demoRightSide, some (.real x)⟩ = .ok b ∧
      b.problem.parameters = 2 ∧ b.problem.IsTotal := by
  obtain ⟨A, hA⟩ : ∃ A : Mat Float32 2 2, matrix demoMatrix = .ok ⟨A⟩ :=
    exists_of_shape (by decide +kernel)
  obtain ⟨b, hb⟩ : ∃ b : Mat Float32 2 1, vector demoRightSide = .ok ⟨b⟩ :=
    exists_of_shape (by decide +kernel)
  obtain ⟨p, hp, -⟩ := Problem.exists_linear A b 1
  obtain ⟨p', hp', hparameters, htotal⟩ := Problem.exists_linear A b (narrow x)
  refine ⟨⟨p', ⟨A⟩, ⟨b⟩⟩, ?_, hparameters, htotal⟩
  have hmultiplier : multiplier (.real x) = .ok (narrow x) := rfl
  simp [problem, hA, hb, linearProblem, hp, hmultiplier, hp', Answer.ofShape, Except.mapError]

section

variable [LinearSolver Float32] {n : ℤ} {β : Float}

/-- The demonstration takes the steps that are asked for in a total problem in two parameters. -/
lemma exists_demoSteps_eq (hsettings : ambient env = .ok settings) (hβ : ¬ β < 0) :
    ∃ (d : Descent Quantity) (p : Problem Float32) (x : Mat Float32 2 1),
      Parameters.descent ⟨.real β, .real settings.start, .real settings.shrink,
        .real settings.floor⟩ = .ok d ∧ p.parameters = 2 ∧ p.IsTotal ∧
      ∀ n, demoSteps env settings n β =
        (Answer.ofParameter (Literal.number (.whole n)).steps >>= fun k =>
          Answer.ofSolve (d.iterate p ⟨x⟩ k)) := by
  obtain ⟨b, hb, hparameters, htotal⟩ := exists_problem_demo settings.jacobianScale
  obtain ⟨x, hx⟩ : ∃ x : Mat Float32 2 1, vector demoStart = .ok ⟨x⟩ :=
    exists_of_shape (by decide +kernel)
  obtain ⟨d, hd, hs⟩ := exists_descent hsettings (mt (Quantity.real_lt_zero _).mp hβ)
  refine ⟨d, b.problem, x, hs, hparameters, htotal, fun n => ?_⟩
  simp [demoSteps, hb, hd, hx]

lemma demoSteps_of_neg (hsettings : ambient env = .ok settings) (hβ : ¬ β < 0) (hn : n < 0) :
    demoSteps env settings n β = .error (.parameter (.negativeSteps (.whole n))) := by
  obtain ⟨d, p, x, -, -, -, hsteps⟩ := exists_demoSteps_eq hsettings hβ
  rw [hsteps, Literal.steps_whole_of_neg hn]
  rfl

lemma demoSteps_cases (hsettings : ambient env = .ok settings) (hβ : ¬ β < 0) (hn : 0 ≤ n) :
    (∃ os, demoSteps env settings n β = .ok os) ∨
      ∃ e, demoSteps env settings n β = .error (.solve e) ∧
        ((∃ e', e = .inversion e' ∧ (e'.isSingular = true ∨ e' = .notFinite)) ∨
          e = .endless ∧ ¬ SearchesEnd settings) := by
  obtain ⟨d, p, x, hs, hparameters, htotal, hsteps⟩ := exists_demoSteps_eq hsettings hβ
  obtain ⟨hdamping, -⟩ := Descent.eq_of_descent_real hs
  rw [hsteps, Literal.steps_whole hn]
  obtain ⟨os, hos⟩ | ⟨e, he, hfails⟩ := Descent.iterate_cases (s := d) (n := n.toNat) htotal
    (entryOf_of_fits (by rw [hdamping]; rfl)) (Descent.hasEntries_of_real hs) (x := ⟨x⟩)
    (by rw [hparameters]; rfl)
  · exact .inl ⟨os, congrArg Answer.ofSolve hos⟩
  · exact .inr ⟨e, congrArg Answer.ofSolve he, hfails.cases_of_real hs (by omega)⟩

lemma runDemo_cases (hsettings : ambient env = .ok settings) {x : Execution}
    (hx : runDemo env settings values = .ok x) :
    Reported demo x ∨ ∃ e, x.ending = .failure e ∧ EscapesDemo settings values e := by
  rw [runDemo, ← stepsAsked, ← demoDampingAsked] at hx
  split_ifs at hx with hβ
  -- a negative number of steps is no error of the arguments: it is the descent that refuses it
  by_cases hn : stepsAsked values < 0
  · rw [demoSteps_of_neg hsettings hβ hn] at hx
    cases hx
    exact .inr ⟨_, rfl, .negativeSteps hn⟩
  obtain ⟨os, hos⟩ | ⟨e, he, hcases⟩ := demoSteps_cases hsettings hβ (not_lt.mp hn)
  · rw [hos] at hx
    cases hx
    exact .inl (.completed _)
  · rw [he] at hx
    obtain ⟨e', rfl, hsingular | rfl⟩ | ⟨rfl, hendless⟩ := hcases
    · simp only [hsingular, if_true] at hx
      cases hx
      exact .inl (.singular (List.mem_singleton_self _) (.inl rfl) hsingular)
    · cases hx
      exact .inr ⟨_, rfl, .notFinite⟩
    · cases hx
      exact .inr ⟨_, rfl, .endless hendless⟩

end

/-! ### The simulation -/

/-- The errors that get out of the simulation. -/
inductive EscapesSimulation (settings : Settings) (values : List (String × OptionValue)) :
    RequestError → Prop
  | nobody (h : populationAsked settings values ≤ 0) :
    EscapesSimulation settings values (.market .divisionByZero)
  | notFinite : EscapesSimulation settings values (.solve (.inversion .notFinite))
  | endless (h : ¬ SearchesEnd settings) :
    EscapesSimulation settings values (.market (.solve .endless))

variable {t next report : Town} {e : RequestError}

/-- What a simulation keeps of the town that is asked for. -/
structure Keeps (settings : Settings) (values : List (String × OptionValue)) (t : Town) : Prop where
  inRange : InRange t
  descent_eq : Parameters.descent ⟨.real (dampingAsked settings values), .real settings.start,
    .real settings.shrink, .real settings.floor⟩ = .ok t.plan.descent
  population_eq : t.population = .real (populationAsked settings values)

section

variable [LinearSolver Float32]

/-- Inverses of the system of a town in range are compared or skipped, or entries are out of
range. -/
lemma eq_notFinite_of_check (h : InRange t) {depth : ℤ} {x : Float}
    (hcheck : check t depth (.real x) = .error e) : e = .solve (.inversion .notFinite) := by
  obtain ⟨s, hs⟩ := h.exists_system
  have hentry : (Answer.ofSolve (entryOf (Quantity.real x)) : Answer Float32) = .ok (narrow x) :=
    rfl
  simp only [check, hs, Except.mapError, ok_bind, hentry] at hcheck
  cases hcompared : s.A.compareInverses depth.toNat (narrow x) with
  | ok c =>
    rw [hcompared] at hcheck
    cases hcheck
  | error e' =>
    rw [hcompared] at hcheck
    obtain hsingular | rfl :=
      Mat.isSingular_or_eq_notFinite_of_compareInverses (Nat.succ_pos 4) hcompared
    · simp only [hsingular, if_true] at hcheck
      cases hcheck
    · cases hcheck
      rfl

lemma Keeps.of_tick (h : Keeps settings values t) (htick : t.tick = (next, .ok report)) :
    Keeps settings values next := by
  obtain ⟨hplan, hpopulation, -, hnext⟩ := report_of_tick htick
  have hrange := h.inRange.of_tick htick
  subst hnext
  refine ⟨hrange, ?_, hpopulation.trans h.population_eq⟩
  rw [h.descent_eq, ← hplan]

/-- A tick fails for a matrix, in a line search without an end, or for a negative population. -/
lemma Keeps.error_cases (h : Keeps settings values t) {m : MarketError}
    (herror : t.tick.2 = .error m) :
    (∃ e, m = .solve (.inversion e) ∧ (e.isSingular = true ∨ e = .notFinite)) ∨
      (m = .solve .endless ∧ ¬ SearchesEnd settings) ∨
      m = .divisionByZero ∧ populationAsked settings values < 0 := by
  obtain ⟨report, hreport, -⟩ | ⟨e, p, he, hp, hfails⟩ | ⟨he, hnegative⟩ := h.inRange.tick_cases
  · rw [hreport] at herror
    cases herror
  · cases herror.symm.trans he
    obtain ⟨e', rfl, he'⟩ | ⟨rfl, hendless⟩ := hfails.cases_of_real h.descent_eq (by omega)
    · exact .inl ⟨e', rfl, he'⟩
    · exact .inr (.inl ⟨rfl, hendless⟩)
  · cases herror.symm.trans he
    rw [h.population_eq, Quantity.real_lt_zero] at hnegative
    exact .inr (.inr ⟨rfl, hnegative⟩)

/-- An error that gets out of a tick is of one of three kinds. -/
lemma Keeps.escapes (h : Keeps settings values t)
    (hbreaks : BreaksOff (planAsked settings values) t e) :
    EscapesSimulation settings values e := by
  cases hbreaks with
  | inversion tick_eq not_singular =>
    -- a singular matrix would have been reported
    obtain ⟨e, he, hsingular | rfl⟩ | ⟨he, -⟩ | ⟨he, -⟩ := h.error_cases tick_eq <;> cases he
    · exact absurd hsingular (by simp [not_singular])
    · exact .notFinite
  | tick tick_eq not_inversion =>
    obtain ⟨e, rfl, -⟩ | ⟨rfl, hendless⟩ | ⟨rfl, hnegative⟩ := h.error_cases tick_eq
    · exact absurd rfl (not_inversion e)
    · exact .endless hendless
    · exact .nobody (float_le_of_lt hnegative)
  | idle tick_eq population_eq =>
    -- ticks leave the population as it is, so it has been zero from the beginning
    obtain ⟨-, hpopulation, -⟩ := report_of_tick tick_eq
    rw [hpopulation, h.population_eq] at population_eq
    exact .nobody (Quantity.le_zero_of_real_beq_zero population_eq)
  | check tick_eq depth_eq check_eq =>
    rw [eq_notFinite_of_check (h.inRange.of_tick tick_eq) check_eq]
    exact .notFinite

lemma runSimulation_reported (name : String) (hsettings : ambient env = .ok settings)
    {x : Execution} (hx : runSimulation env settings values = .ok x) :
    Reported (simulation name) x ∨
      ∃ e, x.ending = .failure e ∧ EscapesSimulation settings values e := by
  obtain ⟨-, hrun⟩ | ⟨-, hrun⟩ | ⟨d, -, hd, -, hrun⟩ := runSimulation_cases hsettings values
  · cases hx.symm.trans hrun
  · cases hx.symm.trans hrun
  obtain rfl := Except.ok.inj (hx.symm.trans hrun)
  generalize headerLines _ _ _ = header
  cases hending : (simulate (planAsked settings values) (townAsked settings values d)
      (ticksAsked values).toNat).ending with
  | finished =>
    rw [Simulated.execution, hending]
    exact .inl (.completed _)
  | singular tick e =>
    obtain ⟨hfinished, -⟩ | ⟨e', hsingular, he', -⟩ :=
      (ends_of_simulate _ _ _ fun lines e hbroken => by cases hending.symm.trans hbroken).ending
    · cases hending.symm.trans hfinished
    · cases hending.symm.trans hsingular
      rw [Simulated.execution, hending]
      -- the second line of the closing
      exact .inl (.singular (List.mem_append_right _ (List.mem_cons_of_mem _ List.mem_cons_self))
        (.inr ⟨_, rfl⟩) he')
  | broken lines e =>
    have hkeeps : Keeps settings values (townAsked settings values d) :=
      ⟨inRange_townFrom (withinBounds_of_ambient hsettings).1 _ hd, hd, rfl⟩
    obtain ⟨t, ht, hbreaks⟩ := breaksOff_of_simulate (fun _ _ _ => Keeps.of_tick) hkeeps hending
    rw [Simulated.execution, hending]
    exact .inr ⟨e, rfl, ht.escapes hbreaks⟩

/-! ### All arguments -/

/-- With settings that load, both programs report how they end, whatever their arguments and
whatever solves scaled systems, or one of three errors gets out of each. A negative number of steps
that is not refused for its damping always gets out. -/
theorem executions_reported_or_escape (hsettings : ambient env = .ok settings) :
    (∀ arguments, Reported demo (executeDemo env arguments) ∨
      ∃ values e, parse demo.options arguments = .ok (.run values) ∧
        (executeDemo env arguments).ending = .failure e ∧ EscapesDemo settings values e) ∧
    (∀ arguments values, parse demo.options arguments = .ok (.run values) →
      ¬ demoDampingAsked values < 0 → stepsAsked values < 0 →
      executeDemo env arguments =
        .failed (.parameter (.negativeSteps (.whole (stepsAsked values))))) ∧
    ∀ name arguments, Reported (simulation name) (executeSimulation name env arguments) ∨
      ∃ values e, parse (simulation name).options arguments = .ok (.run values) ∧
        (executeSimulation name env arguments).ending = .failure e ∧
        EscapesSimulation settings values e := by
  refine ⟨fun arguments => ?_, fun arguments values hvalues hβ hn => ?_, fun name arguments => ?_⟩
  · obtain hreported | ⟨values, x, hvalues, hmain, hx⟩ :=
      Program.execute_cases demo (runDemo env) hsettings arguments
    · exact .inl hreported
    · rw [executeDemo, hx]
      obtain hreported | ⟨e, he, hescapes⟩ := runDemo_cases hsettings hmain
      · exact .inl hreported
      · exact .inr ⟨values, e, hvalues, he, hescapes⟩
  · refine Program.execute_of_ok hsettings hvalues ?_
    rw [runDemo, ← stepsAsked, ← demoDampingAsked]
    simp only [hβ, if_false, demoSteps_of_neg hsettings hβ hn]
  · obtain hreported | ⟨values, x, hvalues, hmain, hx⟩ :=
      Program.execute_cases (simulation name) (runSimulation env) hsettings arguments
    · exact .inl hreported
    · rw [executeSimulation, hx]
      obtain hreported | ⟨e, he, hescapes⟩ := runSimulation_reported name hsettings hmain
      · exact .inl hreported
      · exact .inr ⟨values, e, hvalues, he, hescapes⟩

end

/-- With the default settings no search is endless. -/
theorem executions_reported_or_escape_default :
    executeDemo .empty ["--steps", "-1"] = .failed (.parameter (.negativeSteps (.whole (-1)))) ∧
    ∀ arguments, Reported demo (executeDemo .empty arguments) ∨
      ∃ e, (executeDemo .empty arguments).ending = .failure e ∧ e ≠ .solve .endless := by
  have hsettings : ambient .empty = .ok .default := rfl
  obtain ⟨hdemo, hnegative, -⟩ := executions_reported_or_escape hsettings
  refine ⟨hnegative _ [("--steps", .integer (-1))] rfl (by decide +kernel) (by decide), ?_⟩
  intro arguments
  obtain hreported | ⟨values, e, -, he, hescapes⟩ := hdemo arguments
  · exact .inl hreported
  · refine .inr ⟨e, he, ?_⟩
    rintro rfl
    cases hescapes with
    | endless h => exact h ⟨by decide +kernel, .inr (by decide +kernel)⟩

/-- An error gets out of the demonstration of minus one steps. -/
theorem not_forall_reported : ¬ ∀ (env : Environment) (settings : Settings)
    (arguments : List String), ambient env = .ok settings →
      Reported demo (executeDemo env arguments) := by
  intro hreported
  have hending : (executeDemo .empty ["--steps", "-1"]).ending =
      .failure (.parameter (.negativeSteps (.whole (-1)))) := rfl
  have h := hreported .empty .default ["--steps", "-1"] rfl
  generalize executeDemo .empty ["--steps", "-1"] = x at hending h
  cases h <;> cases hending

end CommandLine

end Workforce
