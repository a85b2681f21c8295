import Workforce.CommandLine.Simulation
import Workforce.Proofs.Descent.Runs
import Workforce.Proofs.Market.Founding

/-!
# The course of a simulation

A simulation takes one tick after the other. A tick adds a block and leaves the rest to the next
one, or it is singular and ends the simulation, or an error gets out of the tick or of its block.
So the blocks of a simulation that ends without an error are about the reports of its ticks, in
order and without a gap.
-/

namespace Workforce.CommandLine

open Request

variable {plan : SimulationPlan} {t t' next report : Town} {n : ℕ}

/-! ### Programs -/

section Programs

variable {p : Program} {env : Environment} {settings : Settings} {arguments : List String}
variable {values : List (String × OptionValue)}
variable {main : Settings → List (String × OptionValue) → Except UsageError Execution}

lemma Program.execute_of_ok {x : Execution} (hsettings : ambient env = .ok settings)
    (hvalues : parse p.options arguments = .ok (.run values))
    (hmain : main settings values = .ok x) : p.execute env arguments main = x := by
  rw [Program.execute, hsettings]
  simp only [hvalues, hmain]

lemma Program.execute_of_error {e : UsageError} (hsettings : ambient env = .ok settings)
    (hvalues : parse p.options arguments = .ok (.run values))
    (hmain : main settings values = .error e) :
    p.execute env arguments main = ⟨.exit 2, "", p.refusal e⟩ := by
  rw [Program.execute, hsettings]
  simp only [hvalues, hmain]

end Programs

section Runs

variable [LinearSolver Float32]

/-! ### Ticks -/

/-- A tick leaves its plan, its number and its steps in its report. -/
lemma report_of_tick (h : t.tick = (next, .ok report)) :
    report.plan = t.plan ∧ report.population = t.population ∧ report.ticks = t.ticks ∧
      next = { report with ticks := t.ticks + 1 } :=
  Market.tickWith_report h

lemma length_lastSteps_of_tick {k : ℕ} (h : t.tick = (next, .ok report))
    (hsteps : t.plan.steps.steps = .ok k) : report.lastSteps.length = k := by
  obtain ⟨m, steps, hmoved, rfl, -⟩ := Market.tickWith_eq_ok_iff.mp h
  obtain ⟨x, factor, hsolve, -, -⟩ := Market.redistributeWith_eq_ok_iff.mp hmoved
  -- the steps are those that the descent of the plan takes
  obtain ⟨s, -, hsolve⟩ := bind_eq_ok_iff.mp hsolve
  obtain ⟨c, -, hsolve⟩ := bind_eq_ok_iff.mp hsolve
  obtain ⟨p, -, hsolve⟩ := bind_eq_ok_iff.mp hsolve
  obtain ⟨os, hos, hsolve⟩ := bind_eq_ok_iff.mp hsolve
  obtain ⟨rfl, rfl⟩ : _ ∧ os = steps := by simpa using hsolve
  rw [Market.planned, hsteps] at hos
  exact (Descent.iterate_eq_ok_iff.mp (mapError_eq_ok_iff.mp hos)).1

/-- The reports of ticks in a row are numbered in a row. -/
lemma ticks_reportsFrom (t : Town) (n : ℕ) :
    (reportsFrom Market.tick t n).1.map (·.ticks) =
      List.range' t.ticks (reportsFrom Market.tick t n).1.length := by
  induction n generalizing t with
  | zero => rfl
  | succ n ih =>
    obtain ⟨e, he⟩ | ⟨next, report, htick⟩ := tick_cases Market.tick t
    · rw [reportsFrom_of_error he]
      rfl
    · obtain ⟨-, -, hticks, rfl⟩ := report_of_tick htick
      rw [reportsFrom_of_ok htick, List.map_cons, ih, List.length_cons, List.range'_succ, hticks]

lemma length_lastSteps_reportsFrom {k : ℕ} (hsteps : t.plan.steps.steps = .ok k) (n : ℕ) :
    ∀ r ∈ (reportsFrom Market.tick t n).1, r.lastSteps.length = k := by
  refine forall_mem_reportsFrom (I := fun t => t.plan.steps.steps = .ok k) ?_ hsteps n
  intro t next report ht htick
  obtain ⟨hplan, -, -, rfl⟩ := report_of_tick htick
  exact ⟨hplan ▸ ht, length_lastSteps_of_tick htick ht⟩

/-! ### One tick of a simulation -/

/-- The ways for an error to get out of a simulation at a tick. -/
inductive BreaksOff (plan : SimulationPlan) (t : Town) : RequestError → Prop where
  /-- A matrix of the tick is not inverted, and it is not singular. -/
  | inversion {e : InversionError} (tick_eq : t.tick.2 = .error (.solve (.inversion e)))
      (not_singular : e.isSingular = false) : BreaksOff plan t (.solve (.inversion e))
  /-- The tick fails in another way. -/
  | tick {e : MarketError} (tick_eq : t.tick.2 = .error e)
      (not_inversion : ∀ e', e ≠ .solve (.inversion e')) : BreaksOff plan t (.market e)
  /-- The idle part of nobody is asked for. -/
  | idle {next report : Town} (tick_eq : t.tick = (next, .ok report))
      (population_eq : (report.population == 0) = true) :
      BreaksOff plan t (.market .divisionByZero)
  /-- The inverses are not compared. -/
  | check {next report : Town} {depth : ℤ} {e : RequestError}
      (tick_eq : t.tick = (next, .ok report)) (depth_eq : plan.checkDepth = some depth)
      (check_eq : check next depth plan.damping = .error e) : BreaksOff plan t e

lemma block_cases (plan : SimulationPlan) (htick : t.tick = (next, .ok report)) :
    (∃ lines e, block plan next report = .error (.broken lines e) ∧ BreaksOff plan t e) ∨
      ∃ b, block plan next report = .ok b ∧ b.report = report ∧
        b.check.isSome = plan.checkDepth.isSome := by
  rw [block]
  split_ifs with hzero
  · exact .inl ⟨_, _, rfl, .idle htick hzero⟩
  cases hdepth : plan.checkDepth with
  | none => exact .inr ⟨_, rfl, rfl, rfl⟩
  | some depth =>
    cases hcheck : check next depth plan.damping with
    | error e =>
      exact .inl ⟨TickBlock.lines ⟨report, none⟩, e, by simp [hcheck], .check htick hdepth hcheck⟩
    | ok c => exact .inr ⟨⟨report, some c⟩, by simp [hcheck], rfl, rfl⟩

/-- What one tick does to a simulation. -/
lemma simulate_succ_cases (plan : SimulationPlan) (t : Town) (n : ℕ) :
    (∃ lines e, simulate plan t (n + 1) = ⟨[], .broken lines e⟩ ∧ BreaksOff plan t e) ∨
    (∃ e, simulate plan t (n + 1) = ⟨[], .singular t.ticks e⟩ ∧ e.isSingular = true ∧
      t.tick.2 = .error (.solve (.inversion e))) ∨
    ∃ next b, simulate plan t (n + 1) = (simulate plan next n).cons b ∧
      t.tick = (next, .ok b.report) ∧ b.check.isSome = plan.checkDepth.isSome := by
  rw [simulate]
  split
  case h_1 m e htick =>
    split_ifs with he
    · exact .inr (.inl ⟨e, rfl, he, congrArg Prod.snd htick⟩)
    · exact .inl ⟨_, _, rfl, .inversion (congrArg Prod.snd htick) (by simpa using he)⟩
  case h_2 m e hother htick =>
    refine .inl ⟨_, _, rfl, .tick (congrArg Prod.snd htick) fun e' => ?_⟩
    rintro rfl
    exact hother e' rfl
  case h_3 next report htick =>
    obtain ⟨lines, e, hblock, hbreaks⟩ | ⟨b, hblock, rfl, hcheck⟩ := block_cases plan htick
    · exact .inl ⟨lines, e, by rw [hblock], hbreaks⟩
    · exact .inr (.inr ⟨next, b, by rw [hblock], htick, hcheck⟩)

/-! ### All ticks of a simulation -/

/-- An error that gets out of a simulation has got out at one of its ticks. -/
lemma breaksOff_of_simulate {I : Town → Prop}
    (hI : ∀ t next report, I t → t.tick = (next, .ok report) → I next) (ht : I t)
    {lines : List String} {e : RequestError} (h : (simulate plan t n).ending = .broken lines e) :
    ∃ t', I t' ∧ BreaksOff plan t' e := by
  induction n generalizing t with
  | zero => cases h
  | succ n ih =>
    obtain ⟨lines', e', hs, hbreaks⟩ | ⟨e', hs, -, -⟩ | ⟨next, b, hs, htick, -⟩ :=
      simulate_succ_cases plan t n <;> rw [hs] at h
    · cases h
      exact ⟨t, ht, hbreaks⟩
    · cases h
    · exact ih (hI t next b.report ht htick) h

/-- A simulation of some ticks that has ended without an error: there is a block for each report of
a tick, and either all ticks have run or the one after the last block was singular. -/
structure Simulated.Ends (s : Simulated) (plan : SimulationPlan) (t : Town) (n : ℕ) : Prop where
  reports_eq : s.blocks.map TickBlock.report = (reportsFrom Market.tick t n).1
  isSome_check : ∀ b ∈ s.blocks, b.check.isSome = plan.checkDepth.isSome
  ending : s.ending = .finished ∧ s.blocks.length = n ∨
    ∃ e, s.ending = .singular (t.ticks + s.blocks.length) e ∧ e.isSingular = true ∧
      s.blocks.length < n

lemma ends_of_simulate (plan : SimulationPlan) (t : Town) (n : ℕ)
    (hended : ∀ lines e, (simulate plan t n).ending ≠ .broken lines e) :
    (simulate plan t n).Ends plan t n := by
  induction n generalizing t with
  | zero => exact ⟨rfl, fun b hb => absurd hb List.not_mem_nil, .inl ⟨rfl, rfl⟩⟩
  | succ n ih =>
    -- the first tick ends the simulation, or the rest of it is one of a tick less
    obtain ⟨lines, e, hs, -⟩ | ⟨e, hs, he, htick⟩ | ⟨next, b, hs, htick, hcheck⟩ :=
      simulate_succ_cases plan t n <;> rw [hs] at hended ⊢
    · exact absurd rfl (hended lines e)
    · refine ⟨?_, fun b hb => absurd hb List.not_mem_nil, .inr ⟨e, rfl, he, n.succ_pos⟩⟩
      rw [reportsFrom_of_error htick]
      rfl
    · obtain ⟨hreports, hchecks, hending⟩ := ih next hended
      obtain ⟨-, -, -, hnext⟩ := report_of_tick htick
      have hticks : next.ticks = t.ticks + 1 := congrArg Market.ticks hnext
      refine ⟨?_, List.forall_mem_cons.mpr ⟨hcheck, hchecks⟩, ?_⟩
      · rw [reportsFrom_of_ok htick, ← hreports]
        rfl
      · obtain ⟨hfinished, hlength⟩ | ⟨e, hsingular, he, hlength⟩ := hending
        · exact .inl ⟨hfinished, congrArg Nat.succ hlength⟩
        · refine .inr ⟨e, ?_, he, Nat.succ_lt_succ hlength⟩
          rw [hticks, Nat.add_right_comm] at hsingular
          exact hsingular

end Runs

/-! ### What is asked for -/

/-- The number of ticks that is asked for. -/
def ticksAsked (values : List (String × OptionValue)) : ℤ :=
  Invocation.integerD values "--ticks" 100

/-- The population that is asked for. -/
def populationAsked (settings : Settings) (values : List (String × OptionValue)) : Float :=
  Invocation.realD values "--pop" settings.population

/-- The damping that is asked for. -/
def dampingAsked (settings : Settings) (values : List (String × OptionValue)) : Float :=
  Invocation.realD values "--beta" settings.damping

/-- Whether the inverses are to be compared. -/
def comparisonAsked (values : List (String × OptionValue)) : Bool :=
  Invocation.isGiven values "--with-inverse-check"

/-- What is asked for besides the market. -/
def planAsked (settings : Settings) (values : List (String × OptionValue)) : SimulationPlan :=
  { damping := .real (dampingAsked settings values)
    checkDepth := if comparisonAsked values then some settings.depth else none }

/-- The town that is founded from settings with the population that is asked for. -/
def townAsked (settings : Settings) (values : List (String × OptionValue))
    (d : Descent Quantity) : Town :=
  townFrom settings (populationAsked settings values) d

variable {env : Environment} {settings : Settings} {values : List (String × OptionValue)}

lemma isSome_checkDepth_planAsked (settings : Settings) (values : List (String × OptionValue)) :
    (planAsked settings values).checkDepth.isSome = comparisonAsked values := by
  cases h : comparisonAsked values <;> simp [planAsked, h]

/-- The simulation refuses a negative number of ticks and then a negative damping, or it runs what
is asked for. -/
lemma runSimulation_cases [LinearSolver Float32] (hsettings : ambient env = .ok settings)
    (values : List (String × OptionValue)) :
    (ticksAsked values < 0 ∧
      runSimulation env settings values = .error (.negative "--ticks")) ∨
    (dampingAsked settings values < 0 ∧
      runSimulation env settings values = .error (.negative "--beta")) ∨
    ∃ d, descent env { damping := some (.real (dampingAsked settings values)) } = .ok d ∧
      Parameters.descent ⟨.real (dampingAsked settings values), .real settings.start,
        .real settings.shrink, .real settings.floor⟩ = .ok d ∧
      0 ≤ ticksAsked values ∧
      runSimulation env settings values = .ok
        ((simulate (planAsked settings values) (townAsked settings values d)
            (ticksAsked values).toNat).execution
          (headerLines (.real (populationAsked settings values)) (ticksAsked values)
            (dampingAsked settings values))) := by
  by_cases hticks : ticksAsked values < 0
  · exact .inl ⟨hticks, if_pos hticks⟩
  by_cases hdamping : dampingAsked settings values < 0
  · exact .inr (.inl ⟨hdamping, (if_neg hticks).trans (if_pos hdamping)⟩)
  -- the other parameters are in bounds, as the settings have loaded
  obtain ⟨d, hd, hparameters⟩ :=
    exists_descent hsettings (mt (Quantity.real_lt_zero _).mp hdamping)
  refine .inr (.inr ⟨d, hd, hparameters, not_lt.mp hticks, ?_⟩)
  refine (if_neg hticks).trans ((if_neg hdamping).trans ?_)
  rw [← dampingAsked, hd, ok_bind, ← populationAsked, foundFromSettings_townFrom]
  rfl

end Workforce.CommandLine
