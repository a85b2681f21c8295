import Workforce.Proofs.Descent.Termination
import Workforce.Proofs.Market.Carried
import Workforce.Proofs.Market.Failures
import Workforce.Proofs.Settings.Bounds

/-!
# Towns founded in different environments

A town that is founded from settings without a descent takes the damping from these settings, and
the first scale, the factor and the floor of its line search from the environment. Nothing else of
an environment reaches the town. Where two environments search lines alike, runs are the same.
-/

namespace Workforce

namespace Request

open Answer

variable {env env' : Environment} {E E' : Settings} {β : Float} {d : Descent Quantity}
variable {settings : Settings} {population : Option Literal}
variable {laborers : Option (Table Labor Literal)}

/-! ### The line search of an environment -/

lemma withinBounds_of_ambient (hE : ambient env = .ok E) :
    E.WithinBounds ∧ ¬ E.start ≤ E.floor :=
  Settings.withinBounds_of_load (mapError_eq_ok_iff.mp hE)

/-- Settings that load complete every damping that is not negative to a descent. -/
lemma exists_descent (hE : ambient env = .ok E) (hβ : ¬ (.real β : Quantity) < 0) :
    ∃ d, descent env { damping := some (.real β) } = .ok d ∧
      Parameters.descent ⟨.real β, .real E.start, .real E.shrink, .real E.floor⟩ = .ok d := by
  obtain ⟨hbounds, hfloor⟩ := withinBounds_of_ambient hE
  have hparameters : Parameters.descent
      ⟨.real β, .real E.start, .real E.shrink, .real E.floor⟩ =
        .ok ⟨.real β, .real E.start, .real E.shrink, .real E.floor, hβ, hbounds.shrink_pos,
          hbounds.shrink_lt_one, hbounds.floor_pos, hbounds.floor_lt_start hfloor⟩ := by
    simp [Parameters.descent, checkDamping, Literal.quantityBelow, Literal.quantityAbove, hβ,
      hbounds.shrink_pos, hbounds.shrink_lt_one, hbounds.floor_pos,
      hbounds.floor_lt_start hfloor]
  refine ⟨_, ?_, hparameters⟩
  rw [descent, hE, ok_bind]
  exact congrArg ofParameter hparameters

lemma descent_eq_error (hE : ambient env = .ok E) (hβ : (.real β : Quantity) < 0) :
    descent env { damping := some (.real β) } =
      .error (.parameter (.negativeDamping (.real β))) := by
  rw [descent, hE, ok_bind]
  simp [GivenParameters.complete, orSetting, Parameters.descent, checkDamping,
    Literal.quantityBelow, hβ, ofParameter, Except.mapError]

/-- Two descents with the same damping are the same if and only if their scales are. -/
lemma descent_eq_iff {a b c a' b' c' : Float} {d' : Descent Quantity}
    (h : Parameters.descent ⟨.real β, .real a, .real b, .real c⟩ = .ok d)
    (h' : Parameters.descent ⟨.real β, .real a', .real b', .real c'⟩ = .ok d') :
    d = d' ↔ a = a' ∧ b = b' ∧ c = c' := by
  constructor
  · rintro rfl
    obtain ⟨-, hstart, hshrink, hfloor⟩ := Descent.eq_of_descent_real h
    obtain ⟨-, hstart', hshrink', hfloor'⟩ := Descent.eq_of_descent_real h'
    exact ⟨Quantity.real.inj (hstart.symm.trans hstart'),
      Quantity.real.inj (hshrink.symm.trans hshrink'),
      Quantity.real.inj (hfloor.symm.trans hfloor')⟩
  · rintro ⟨rfl, rfl, rfl⟩
    exact Except.ok.inj (h.symm.trans h')

/-! ### Towns -/

/-- The session of the town with another descent. -/
def Session.withDescent (s : Session) (d : Descent Quantity) : Session :=
  { s with town := { s.town with plan := { s.town.plan with descent := d } } }

/-- Without a descent, a town is founded with that of the environment. -/
lemma foundFromSettings_none
    (hd : descent env { damping := some (.real settings.damping) } = .ok d) :
    foundFromSettings env settings population laborers none =
      foundFromSettings env settings population laborers (some d) := by
  rw [foundFromSettings, foundFromSettings, hd]
  rfl

/-- A negative damping is refused after the laborers are. -/
lemma foundFromSettings_of_negative (hE : ambient env = .ok E)
    (hβ : (.real settings.damping : Quantity) < 0) :
    foundFromSettings env settings population laborers none =
      (realLaborers (laborers.getD oneEach) >>= fun _ =>
        .error (.parameter (.negativeDamping (.real settings.damping)))) := by
  rw [foundFromSettings, descent_eq_error hE hβ]
  rfl

/-- With a descent, a town is founded in the same way in every environment. -/
lemma foundFromSettings_some (env env' : Environment) (d d' : Descent Quantity) :
    foundFromSettings env' settings population laborers (some d') =
      (foundFromSettings env settings population laborers (some d)).map (·.withDescent d') := by
  rw [foundFromSettings, foundFromSettings]
  cases realLaborers (laborers.getD oneEach) with
  | error e => rfl
  | ok numbers => cases orSetting population settings.population <;> rfl

lemma descent_of_foundFromSettings {s : Session}
    (h : foundFromSettings env settings population laborers (some d) = .ok s) :
    s.town.plan.descent = d := by
  obtain ⟨numbers, -, h⟩ := bind_eq_ok_iff.mp h
  cases h
  cases orSetting population settings.population <;> rfl

/-- A town that is founded from settings without a descent. In two environments it is refused alike,
or it is the same up to the line search. That has the damping of the settings and the scales of the
environment, so that runs agree where the scales do. -/
theorem foundFromSettings_ambient [LinearSolver Float32] (hE : ambient env = .ok E)
    (hE' : ambient env' = .ok E') (settings : Settings) (population : Option Literal)
    (laborers : Option (Table Labor Literal)) :
    (∀ e, foundFromSettings env settings population laborers none = .error e ↔
      foundFromSettings env' settings population laborers none = .error e) ∧
    ∀ s s', foundFromSettings env settings population laborers none = .ok s →
      foundFromSettings env' settings population laborers none = .ok s' →
        s' = s.withDescent s'.town.plan.descent ∧
        s.town.plan.descent.damping = .real settings.damping ∧
        s.town.plan.descent.start = .real E.start ∧
        s.town.plan.descent.shrink = .real E.shrink ∧
        s.town.plan.descent.floor = .real E.floor ∧
        (s = s' ↔ E.start = E'.start ∧ E.shrink = E'.shrink ∧ E.floor = E'.floor) ∧
        (E.start = E'.start → E.shrink = E'.shrink → E.floor = E'.floor →
          ∀ n, reportsFrom ticked s n = reportsFrom ticked s' n) := by
  by_cases hβ : (.real settings.damping : Quantity) < 0
  · rw [foundFromSettings_of_negative hE hβ, foundFromSettings_of_negative hE' hβ]
    refine ⟨fun e => Iff.rfl, fun s s' hs => ?_⟩
    -- a negative damping of the settings is refused in every environment
    obtain ⟨numbers, -, hs⟩ := bind_eq_ok_iff.mp hs
    cases hs
  · obtain ⟨d, hd, hparameters⟩ := exists_descent hE hβ
    obtain ⟨d', hd', hparameters'⟩ := exists_descent hE' hβ
    -- with a descent that is passed on, founding does not look at the environment any more
    rw [foundFromSettings_none hd, foundFromSettings_none hd', foundFromSettings_some env env' d d']
    refine ⟨fun e => ?_, fun s s' hs hs' => ?_⟩
    · cases foundFromSettings env settings population laborers (some d) <;> simp [Except.map]
    obtain ⟨hdamping, hstart, hshrink, hfloor⟩ := Descent.eq_of_descent_real hparameters
    have hdescent := descent_of_foundFromSettings hs
    rw [hs] at hs'
    obtain rfl : s.withDescent d' = s' := Except.ok.inj hs'
    -- the towns have only their descents apart, so they are equal exactly if those are
    have hsame : s = s.withDescent d' ↔ d = d' := by
      constructor
      · exact fun h => hdescent.symm.trans (congrArg (·.town.plan.descent) h)
      · rintro rfl
        rw [← hdescent]
        rfl
    rw [descent_eq_iff hparameters hparameters'] at hsame
    rw [hdescent]
    refine ⟨rfl, hdamping, hstart, hshrink, hfloor, hsame, fun hs₁ hs₂ hs₃ n => ?_⟩
    rw [← hsame.mpr ⟨hs₁, hs₂, hs₃⟩]

/-! ### Towns with one laborer for every labor -/

/-- The town that is founded from settings with a population and a descent. -/
def townFrom (settings : Settings) (x : Float) (d : Descent Quantity) : Town where
  plan :=
    { target := .real settings.target, minAllocation := .real settings.minAllocation,
      steps := .whole settings.stepsPerTick, jacobianScale := .real settings.jacobianScale,
      descent := d }
  population := .real x
  laborers := Labor.all.map fun l => (l, .real 1.0)

lemma foundFromSettings_townFrom (env : Environment) (settings : Settings) (x : Float)
    (d : Descent Quantity) : foundFromSettings env settings (some (.real x)) none (some d) =
      .ok ⟨townFrom settings x d, none⟩ := rfl

lemma inRange_townFrom (h : settings.WithinBounds) (x : Float) {start shrink floor : Float}
    (hd : Parameters.descent ⟨.real β, .real start, .real shrink, .real floor⟩ = .ok d) :
    InRange (townFrom settings x d) where
  plan := by
    obtain ⟨hdamping, -⟩ := Descent.eq_of_descent_real hd
    have hone := h.one_le_stepsPerTick
    exact ⟨rfl, rfl, rfl, by rw [townFrom, hdamping]; rfl, Descent.hasEntries_of_real hd, _,
      Literal.steps_whole (by linarith)⟩
  population := rfl
  staffed := rfl
  laborers l := by cases l <;> rfl

/-- The town that is founded from the default settings with a descent. -/
def townOfHundred (d : Descent Quantity) : Town := townFrom .default 100.0 d

lemma ambient_empty : ambient .empty = .ok .default := rfl

lemma foundFromSettings_default (env : Environment) (d : Descent Quantity) :
    foundFromSettings env .default none none (some d) = .ok ⟨townOfHundred d, none⟩ := rfl

/-- An environment with a damping, a population and a factor of the Jacobian of its own. -/
def unrelated : Environment :=
  ⟨[("DAMPING_BETA", "7"), ("POPULATION", "12")], "JACOBIAN_SCALE=3"⟩

/-- What such an environment sets does not matter to a town founded from the default settings. -/
theorem foundFromSettings_ambient_unrelated :
    ∃ s s', foundFromSettings .empty .default none none none = .ok s ∧
      foundFromSettings unrelated .default none none none = .ok s' ∧
      ∀ n, reportsFrom ticked s n = reportsFrom ticked s' n := by
  obtain ⟨E, hE, hscales⟩ : ∃ E, ambient .empty = .ok E ∧
      (E.damping, E.start, E.shrink, E.floor) = (0.001, 1.0, 0.5, 0.001) :=
    map_eq_ok_iff.mp (by decide +kernel)
  obtain ⟨E', hE', hscales'⟩ : ∃ E, ambient unrelated = .ok E ∧
      (E.damping, E.start, E.shrink, E.floor) = (7, 1.0, 0.5, 0.001) :=
    map_eq_ok_iff.mp (by decide +kernel)
  obtain ⟨-, hstart, hshrink, hfloor⟩ : _ ∧ _ := by simpa using hscales
  obtain ⟨-, hstart', hshrink', hfloor'⟩ : _ ∧ _ := by simpa using hscales'
  have hdamping : ¬ (.real Settings.default.damping : Quantity) < 0 := by decide +kernel
  obtain ⟨d, hd, -⟩ := exists_descent hE hdamping
  obtain ⟨d', hd', -⟩ := exists_descent hE' hdamping
  have hs := (foundFromSettings_none hd).trans (foundFromSettings_default .empty d)
  have hs' := (foundFromSettings_none hd').trans (foundFromSettings_default unrelated d')
  obtain ⟨-, hsame⟩ := foundFromSettings_ambient hE hE' .default none none
  obtain ⟨-, -, -, -, -, -, hreports⟩ := hsame _ _ hs hs'
  exact ⟨_, _, hs, hs', hreports (hstart.trans hstart'.symm) (hshrink.trans hshrink'.symm)
    (hfloor.trans hfloor'.symm)⟩

/-! ### Two environments -/

/-- An environment whose line searches start at one half. -/
def startingAtHalf : Environment := ⟨[("LINE_SEARCH_INITIAL_ALPHA", "0.5")], ""⟩

/-- In the labor system of the town a full step decreases the error, and so does half a step. -/
lemma trials_townOfHundred :
    (do
      let s ← (townOfHundred .fullSteps).deriveAvailable.deriveLaborValues.system
      let p ← (checked (Problem.linear ⟨s.A⟩ ⟨s.b⟩ (narrow sqrtTwo))).mapError MarketError.solve
      let error : Quantity ← (p.errorAt ⟨s.x₀⟩).mapError MarketError.solve
      let d ← (p.direction (.real 0.001 : Quantity) ⟨s.x₀⟩).mapError MarketError.solve
      let full ← (Descent.trial p ⟨s.x₀⟩ d (.real 1.0 : Quantity)).mapError MarketError.solve
      let half ← (Descent.trial p ⟨s.x₀⟩ d (.real 0.5 : Quantity)).mapError MarketError.solve
      pure (decide (full.2 < error ∧ half.2 < error))) = .ok true := by
  decide +kernel

/-- The first tick of the town takes its first scale, be it one or one half. -/
lemma ticked_townOfHundred {d : Descent Quantity} {start shrink floor : Float}
    (h : Parameters.descent ⟨.real 0.001, .real start, .real shrink, .real floor⟩ = .ok d)
    (hstart : start = 1.0 ∨ start = 0.5) :
    ∃ s r, ticked ⟨townOfHundred d, none⟩ = (s, .ok r) ∧
      r.lastSteps.map Outcome.scale = [some (.real start)] := by
  obtain ⟨hd_damping, hd_start, -, -⟩ := Descent.eq_of_descent_real h
  have htrials := trials_townOfHundred
  simp only [bind_eq_ok_iff, mapError_eq_ok_iff, checked_eq_ok_iff, pure_eq_ok, Except.ok.injEq,
    decide_eq_true_eq] at htrials
  obtain ⟨s, hs, p, hp, error, herror, v, hv, ⟨y, errory⟩, hy, ⟨z, errorz⟩, hz, hlty, hltz⟩ :=
    htrials
  obtain ⟨x', error', htrial, hlt⟩ : ∃ x' error',
      Descent.trial p ⟨s.x₀⟩ v d.start = .ok (x', error') ∧ error' < error := by
    rw [hd_start]
    rcases hstart with rfl | rfl
    · exact ⟨y, errory, hy, hlty⟩
    · exact ⟨z, errorz, hz, hltz⟩
  have hparameters : p.parameters = 5 := by
    obtain ⟨p', hp', hparameters, -⟩ := Problem.exists_linear s.A s.b (narrow sqrtTwo)
    rwa [Except.ok.inj (hp.symm.trans hp')]
  have hiterate := Descent.iterate_one_of_trial (s := d) (by rw [hparameters]; rfl) herror
    (by rwa [hd_damping]) (.inl d.floor_lt_start) htrial hlt
  -- the labor system is the same with every descent
  have hsolve := Market.solveSystem_eq_ok (m := (townOfHundred d).deriveAvailable.deriveLaborValues)
    (Market.planned (townOfHundred d).plan) hs rfl hp
    (congrArg (Except.mapError MarketError.solve) hiterate)
  have hrange : InRange (townOfHundred d) :=
    inRange_townFrom (withinBounds_of_ambient ambient_empty).1 100.0 h
  obtain ⟨report, htick, hlastSteps, -⟩ | ⟨-, hnegative⟩ := hrange.tick_of_solveSystem hsolve
  · have hticked : ticked ⟨townOfHundred d, none⟩ = (⟨(townOfHundred d).tick.1, none⟩,
        (townOfHundred d).tick.2.mapError .market) :=
      ticked_of_supplied (s := ⟨townOfHundred d, none⟩) rfl
    have hreport : (townOfHundred d).tick.2 = .ok report := congrArg Prod.snd htick
    refine ⟨⟨(townOfHundred d).tick.1, none⟩, report, ?_, ?_⟩
    · rw [hticked, hreport]
      rfl
    · rw [hlastSteps, hd_start]
      rfl
  · have hpopulation : ¬ (.real 100.0 : Quantity) < 0 := by decide +kernel
    exact absurd hnegative hpopulation

/-- Settings that are passed do not decide a run. In an environment whose line searches start at one
half, the first tick of a town that is founded from the default settings takes another step. -/
theorem not_forall_reports_eq :
    ¬ ∀ (env env' : Environment) (E E' settings : Settings) (population : Option Literal)
        (laborers : Option (Table Labor Literal)) (s s' : Session) (n : ℕ),
      ambient env = .ok E → ambient env' = .ok E' →
      foundFromSettings env settings population laborers none = .ok s →
      foundFromSettings env' settings population laborers none = .ok s' →
        (reportsFrom ticked s n).1.map (fun t => t.lastSteps.map Outcome.scale) =
          (reportsFrom ticked s' n).1.map fun t => t.lastSteps.map Outcome.scale := by
  intro hequal
  obtain ⟨E, hE, hstart⟩ : ∃ E, ambient .empty = .ok E ∧ E.start = 1.0 :=
    map_eq_ok_iff.mp (by decide +kernel)
  obtain ⟨E', hE', hstart'⟩ : ∃ E, ambient startingAtHalf = .ok E ∧ E.start = 0.5 :=
    map_eq_ok_iff.mp (by decide +kernel)
  have hdamping : ¬ (.real Settings.default.damping : Quantity) < 0 := by decide +kernel
  obtain ⟨d, hd, h⟩ := exists_descent hE hdamping
  obtain ⟨d', hd', h'⟩ := exists_descent hE' hdamping
  -- both towns accept their first trial, at the scale that the environment starts with
  obtain ⟨s, r, htick, hscale⟩ := ticked_townOfHundred h (.inl hstart)
  obtain ⟨s', r', htick', hscale'⟩ := ticked_townOfHundred h' (.inr hstart')
  have hs := (foundFromSettings_none hd).trans (foundFromSettings_default .empty d)
  have hs' := (foundFromSettings_none hd').trans (foundFromSettings_default startingAtHalf d')
  have hscales := hequal .empty startingAtHalf E E' .default none none _ _ 1 hE hE' hs hs'
  rw [reportsFrom_of_ok htick, reportsFrom_of_ok htick'] at hscales
  have hstarts := (hscale.symm.trans (List.cons.inj hscales).1).trans hscale'
  rw [hstart, hstart'] at hstarts
  exact absurd hstarts (by decide +kernel)

end Request

end Workforce
