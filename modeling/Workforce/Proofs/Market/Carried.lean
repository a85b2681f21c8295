import Workforce.Proofs.Descent.Runs
import Workforce.Proofs.Market.Reports
import Workforce.Proofs.Market.Settling
import Workforce.Proofs.Market.Ticks
import Workforce.Request.Event

/-!
# What a tick carries forward

A tick reads the plan, the population, the laborers, the known supplies and labor values, and the
number of ticks. It writes productivities, prices, outputs, demands and the steps of the solver
before it reads them. So markets that differ in these only have the same future: the same reports
until the same tick fails, if one does, for the same reason.
-/

namespace Workforce

namespace Market

variable {σ α : Type}
variable [Zero σ] [One σ] [LT σ] [OfScientific σ]

/-- Two markets that agree on what a tick reads before it is written. The supplies and labor values
have to be the same for every good, in whatever order they are known. -/
structure CarriesSame (m m' : Market σ α) : Prop where
  plan_eq : m.plan = m'.plan
  population_eq : m.population = m'.population
  laborers_eq : m.laborers = m'.laborers
  availableOf_eq : ∀ g, m.availableOf g = m'.availableOf g
  laborValueOf_eq : ∀ g, m.laborValueOf g = m'.laborValueOf g
  ticks_eq : m.ticks = m'.ticks

variable {m m' : Market σ α}

lemma CarriesSame.refl (m : Market σ α) : m.CarriesSame m :=
  ⟨rfl, rfl, rfl, fun _ => rfl, fun _ => rfl, rfl⟩

lemma CarriesSame.laborersOf_eq (h : m.CarriesSame m') : m.laborersOf = m'.laborersOf := by
  funext l
  rw [laborersOf, laborersOf, h.laborers_eq]

lemma CarriesSame.agreeBelow (h : m.CarriesSame m') (k : ℕ) : AgreeBelow k m m' where
  laborersOf_eq := h.laborersOf_eq
  population_eq := h.population_eq
  availableOf_eq g _ := h.availableOf_eq g
  laborValueOf_eq g _ := h.laborValueOf_eq g

variable [Add σ] [Mul σ] [Div σ] [DecidableLT σ]

/-- A round of phases leaves no difference but in the steps of the solver. -/
lemma CarriesSame.round (h : m.CarriesSame m') :
    m.round = { m'.round with lastSteps := m.lastSteps } := by
  have hderived : m.round.derived = m'.round.derived := (h.agreeBelow 3).derived_round_eq
  have hplan : m.round.plan = m'.round.plan := h.plan_eq
  have hpopulation : m.round.population = m'.round.population := h.population_eq
  have hlaborers : m.round.laborers = m'.round.laborers := h.laborers_eq
  have hticks : m.round.ticks = m'.round.ticks := h.ticks_eq
  have hsteps : m.round.lastSteps = m.lastSteps := rfl
  rw [← hsteps]
  generalize m.round = r at *
  generalize m'.round = r' at *
  obtain ⟨⟩ := r
  obtain ⟨⟩ := r'
  simp only [derived, Derived.mk.injEq] at *
  simp only [*]

variable [BEq σ] [Steering σ α] [Zero α] [Add α] [Sub α] [Mul α]

/-- The solver takes no notice of the steps that were taken before. -/
lemma redistributeWith_lastSteps (solve : Solver σ α) (m : Market σ α)
    (steps : List (Outcome σ α)) :
    { m with lastSteps := steps }.redistributeWith solve =
      ({ (m.redistributeWith solve).1 with lastSteps := steps }, (m.redistributeWith solve).2) := by
  have hsolve : { m with lastSteps := steps }.solveSystem solve = m.solveSystem solve := rfl
  rw [redistributeWith, redistributeWith, hsolve]
  cases m.solveSystem solve with
  | error e => rfl
  | ok solution =>
    obtain ⟨x, os⟩ := solution
    have hfactor : ({ m with lastSteps := steps }.allocate x).workforceFactor =
      (m.allocate x).workforceFactor := rfl
    simp only [hfactor]
    cases (m.allocate x).workforceFactor with
    | error e => rfl
    | ok factor => rfl

/-- A tick answers alike, and leaves nothing to tell the markets apart when it succeeds. -/
lemma CarriesSame.tickWith (h : m.CarriesSame m') (solve : Solver σ α) :
    (m.tickWith solve).2 = (m'.tickWith solve).2 ∧
      ∀ report, (m.tickWith solve).2 = .ok report →
        (m.tickWith solve).1 = (m'.tickWith solve).1 := by
  have hround : m.deriveAvailable.deriveLaborValues =
      { m'.deriveAvailable.deriveLaborValues with lastSteps := m.lastSteps } := h.round
  rw [Market.tickWith, Market.tickWith, hround, redistributeWith_lastSteps]
  cases hmoved : m'.deriveAvailable.deriveLaborValues.redistributeWith solve with
  | mk m₁ result =>
    cases result with
    | error e => exact ⟨rfl, fun report hreport => by cases hreport⟩
    | ok steps => exact ⟨rfl, fun _ _ => rfl⟩

/-- The solver of the plan is the same, so its ticks are. -/
lemma CarriesSame.tick [LE σ] [DecidableLE σ] [One α] [Neg α] [Inverter α]
    (h : m.CarriesSame m') :
    m.tick.2 = m'.tick.2 ∧ ∀ report, m.tick.2 = .ok report → m.tick.1 = m'.tick.1 := by
  rw [Market.tick, Market.tick, h.plan_eq]
  exact h.tickWith _

/-- With any solver, markets that carry the same have the same reports and the same end. -/
theorem CarriesSame.reportsFrom_tickWith (h : m.CarriesSame m') (solve : Solver σ α) (n : ℕ) :
    reportsFrom (Market.tickWith solve) m n = reportsFrom (Market.tickWith solve) m' n := by
  refine reportsFrom_congr CarriesSame (fun s s' hs => ?_) h n
  obtain ⟨hanswer, hnext⟩ := hs.tickWith solve
  exact ⟨hanswer, fun report hreport => hnext report hreport ▸ .refl _⟩

end Market

namespace Request

/-! ### Sessions -/

/-- Two sessions whose towns carry the same and whose populations were set to the same. -/
structure Session.CarriesSame (s s' : Session) : Prop where
  town : s.town.CarriesSame s'.town
  unnumbered_eq : s.unnumbered = s'.unnumbered

variable {s s' : Session} {t t' : Town}

lemma derivedBefore?_eq (h : t.CarriesSame t') : derivedBefore? t = derivedBefore? t' := by
  unfold derivedBefore?
  simp only [h.laborersOf_eq]

/-- The first phase leaves the same numbers to the second. -/
lemma valueNumbers_deriveAvailable_eq (h : t.CarriesSame t') :
    valueNumbers t.deriveAvailable = valueNumbers t'.deriveAvailable := by
  have hscarcest : t.scarcest = t'.scarcest :=
    funext fun l => (h.agreeBelow 3).scarcest_eq l.stage_lt_three_of_mem
  have hproductivity : t.deriveAvailable.productivity = t'.deriveAvailable.productivity :=
    congrArg (Table.tabulate Labor.all) hscarcest
  have hvalue : (fun p : Good × Quantity => t.deriveAvailable.laborValue.valueD p.1 0.0) =
      fun p => t'.deriveAvailable.laborValue.valueD p.1 0.0 :=
    funext fun p => h.laborValueOf_eq p.1
  have hlaborers : t.deriveAvailable.laborers = t'.deriveAvailable.laborers := h.laborers_eq
  rw [valueNumbers, valueNumbers, productivities, productivities, hproductivity, hvalue, hlaborers]

lemma snd_supplied_eq (h : s.CarriesSame s') : (supplied s).2 = (supplied s').2 := by
  have hpopulation : s.population = s'.population := by
    rw [Session.population, Session.population, h.unnumbered_eq, h.town.population_eq]
  rw [supplied, supplied, derivedBefore?_eq h.town, hpopulation]
  cases derivedBefore? s'.town with
  | some labors => rfl
  | none => cases s'.population.mul (.real 0.5) <;> rfl

lemma supplied_cases (s : Session) : (∃ e, (supplied s).2 = .error e) ∨
    supplied s = ({ s with town := s.town.deriveAvailable }, .ok ()) := by
  rw [supplied]
  cases derivedBefore? s.town with
  | some labors => exact .inl ⟨_, rfl⟩
  | none =>
    cases s.population.mul (.real 0.5) with
    | error e => exact .inl ⟨_, rfl⟩
    | ok demand => exact .inr rfl

/-- One tick, with any solver in place of that of the plan. -/
def tickedWith (solve : Market.Solver Quantity Float32) (s : Session) : Session × Answer Town :=
  match supplied s with
  | (s₁, .error e) => (s₁, .error e)
  | (s₁, .ok ()) =>
    match valued s₁ with
    | (s₂, .error e) => (s₂, .error e)
    | (_, .ok ()) =>
      let (town, result) := s.town.tickWith solve
      ({ s with town }, result.mapError .market)

lemma tickedWith_of_error {e : RequestError} (solve : Market.Solver Quantity Float32)
    (h : (supplied s).2 = .error e) : tickedWith solve s = ((supplied s).1, .error e) := by
  have hs : supplied s = ((supplied s).1, .error e) := Prod.ext rfl h
  rw [tickedWith, hs]

/-- A tick whose first phase succeeds is refused by the second phase, or is that of the town. -/
lemma tickedWith_of_supplied (solve : Market.Solver Quantity Float32)
    (h : supplied s = ({ s with town := s.town.deriveAvailable }, .ok ())) :
    tickedWith solve s = match inRange (valueNumbers s.town.deriveAvailable) with
      | .error e => ({ s with town := s.town.deriveAvailable }, .error e)
      | .ok () => ({ s with town := (s.town.tickWith solve).1 },
          (s.town.tickWith solve).2.mapError .market) := by
  rw [tickedWith, h]
  simp only [valued]
  cases inRange (valueNumbers s.town.deriveAvailable) <;> rfl

section

variable [LinearSolver Float32]

lemma ticked_eq_tickedWith (s : Session) :
    ticked s = tickedWith (Market.planned s.town.plan) s := rfl

lemma ticked_of_error {e : RequestError} (h : (supplied s).2 = .error e) :
    (ticked s).2 = .error e :=
  congrArg Prod.snd (tickedWith_of_error _ h)

lemma ticked_of_supplied
    (h : supplied s = ({ s with town := s.town.deriveAvailable }, .ok ())) :
    ticked s = match inRange (valueNumbers s.town.deriveAvailable) with
      | .error e => ({ s with town := s.town.deriveAvailable }, .error e)
      | .ok () => ({ s with town := s.town.tick.1 }, s.town.tick.2.mapError .market) :=
  tickedWith_of_supplied _ h

/-- A tick answers sessions that carry the same alike, and they still do when it succeeds. -/
lemma ticked_congr (h : s.CarriesSame s') :
    (ticked s).2 = (ticked s').2 ∧
      ∀ report, (ticked s).2 = .ok report → (ticked s).1.CarriesSame (ticked s').1 := by
  have hanswer := snd_supplied_eq h
  obtain ⟨e, he⟩ | hs := supplied_cases s
  · rw [ticked_of_error he, ticked_of_error (hanswer ▸ he)]
    exact ⟨rfl, fun report hreport => by cases hreport⟩
  · obtain ⟨e, he⟩ | hs' := supplied_cases s'
    · rw [hs, he] at hanswer
      -- both sessions are supplied or neither is, as their answers are equal
      cases hanswer
    · rw [ticked_of_supplied hs, ticked_of_supplied hs', valueNumbers_deriveAvailable_eq h.town]
      cases inRange (valueNumbers s'.town.deriveAvailable) with
      | error e => exact ⟨rfl, fun report hreport => by cases hreport⟩
      | ok _ =>
        obtain ⟨htick, htown⟩ := h.town.tick
        refine ⟨congrArg (Except.mapError RequestError.market) htick,
          fun report hreport => ⟨?_, h.unnumbered_eq⟩⟩
        rw [mapError_eq_ok_iff] at hreport
        rw [htown report hreport]
        exact .refl _

/-- Sessions that agree on what a tick reads before it is written have the same future, whatever
else they differ in: the same reports until the same tick fails, if one does, for the same reason.
This holds for the solver of their plan, and of their towns for any other. -/
theorem reports_eq_of_carriesSame (h : s.CarriesSame s') (n : ℕ) :
    reportsFrom ticked s n = reportsFrom ticked s' n ∧
      ∀ solve : Market.Solver Quantity Float32,
        reportsFrom (Market.tickWith solve) s.town n =
          reportsFrom (Market.tickWith solve) s'.town n := by
  refine ⟨?_, fun solve => h.town.reportsFrom_tickWith solve n⟩
  exact reportsFrom_congr Session.CarriesSame (fun _ _ => ticked_congr) h n

end

/-- A town of ten, two to a labor. -/
def evenTown : Town where
  plan :=
    { target := .real 1.01, minAllocation := .real 0.01, steps := .whole 2,
      jacobianScale := .whole 1, descent := Descent.fullSteps }
  population := .whole 10
  laborers := Table.tabulate Labor.all fun _ => .whole 2

/-- The same town, after records that do not belong to it. -/
def misrecordedTown : Town :=
  { evenTown with
    productivity := [(.cook, (.whole (-7), some .food))]
    price := [(.meat, .real (0 / 0))]
    output := Table.tabulate Good.all fun _ => .whole 3
    demand := [(.log, .whole 0)]
    lastSteps := [⟨.ofColumn [1, 2], .whole 5, .whole 9, none, 4⟩] }

/-- Three ticks of the town with wrong records are those of the town without records. -/
theorem reports_eq_of_carriesSame_misrecordedTown :
    Session.CarriesSame ⟨evenTown, none⟩ ⟨misrecordedTown, none⟩ ∧
      reportsFrom ticked ⟨evenTown, none⟩ 3 = reportsFrom ticked ⟨misrecordedTown, none⟩ 3 := by
  have h : Session.CarriesSame ⟨evenTown, none⟩ ⟨misrecordedTown, none⟩ :=
    ⟨⟨rfl, rfl, rfl, fun _ => rfl, fun _ => rfl, rfl⟩, rfl⟩
  exact ⟨h, (reports_eq_of_carriesSame h 3).1⟩

end Request

end Workforce
