import Workforce.Market.Tick
import Workforce.Proofs.Failure
import Workforce.Proofs.Market.Reports
import Workforce.Proofs.Market.Table

/-!
# Runs of ticks

What one tick that succeeds has done to its market, and what a run of ticks keeps. A market is
staffed when every labor has a number of laborers, in order. Ticks keep it so, and leave its plan
and its population as they are.
-/

namespace Workforce

variable {σ α : Type}

namespace Labor

lemma nodup_all : all.Nodup := by decide

lemma ofFin_injective : ofFin.Injective := by decide

end Labor

namespace Market

variable [Zero σ] [One σ] [LT σ]

/-! ### Staffed markets -/

/-- Every labor has a number of laborers, in order. -/
def IsStaffed (m : Market σ α) : Prop := m.laborers.keys = Labor.all

variable {m m' report : Market σ α} {x : Grid α} {steps : List (Outcome σ α)}

/-- Every labor has a number of laborers, in whatever order. -/
def HasEveryLabor (m : Market σ α) : Prop := ∀ l, l ∈ m.laborers.keys

lemma IsStaffed.hasEveryLabor (h : m.IsStaffed) : m.HasEveryLabor := fun l => h ▸ Labor.mem_all l

lemma HasEveryLabor.value?_eq [OfScientific σ] (h : m.HasEveryLabor) (l : Labor) :
    m.laborers.value? l = some (m.laborersOf l) := by
  obtain ⟨n, hn⟩ := Option.isSome_iff_exists.mp (Table.isSome_value?_iff.mpr (h l))
  simp [laborersOf, Table.valueD, hn]

lemma IsStaffed.values_eq_map [OfScientific σ] (h : m.IsStaffed) :
    m.laborers.values = Labor.all.map m.laborersOf := by
  have hnodup : m.laborers.keys.Nodup := h ▸ Labor.nodup_all
  rw [Table.values_eq_map hnodup 0.0, h]
  rfl

/-! ### Moving laborers -/

lemma IsStaffed.allocate [Steering σ α] (h : m.IsStaffed) (x : Grid α) :
    (m.allocate x).IsStaffed := by
  refine (Table.keys_foldl (f := Labor.ofFin) (fun t i hi => ?_) fun i _ => ?_).trans h
  · cases x.get? i 0 with
    | none => rfl
    | some a => exact Table.keys_put hi _
  · rw [h]
    exact Labor.mem_all _

/-- A solution gives a labor its entry, and leaves the laborers of a labor without one. -/
lemma laborersOf_allocate [OfScientific σ] [Steering σ α] (m : Market σ α) (x : Grid α)
    (i : Fin 5) : (m.allocate x).laborersOf (Labor.ofFin i) =
      ((x.get? i 0).map Steering.ofEntry).getD (m.laborersOf (Labor.ofFin i)) := by
  have hvalue : (m.allocate x).laborers.value? (Labor.ofFin i) =
      ((x.get? i 0).map Steering.ofEntry).or (m.laborers.value? (Labor.ofFin i)) := by
    unfold Market.allocate
    dsimp only
    rw [Table.value?_foldl (u := fun (i : Fin 5) v => ((x.get? i 0).map Steering.ofEntry).or v)
      Labor.ofFin_injective _ (List.nodup_finRange 5), if_pos (List.mem_finRange i)]
    intro t i l
    cases x.get? i 0 with
    | none => simp
    | some a => simp [Table.value?_put]
  rw [laborersOf, Table.valueD, hvalue]
  cases x.get? i 0 <;> rfl

variable [Mul σ] [DecidableLT σ]

lemma IsStaffed.rescale (h : m.IsStaffed) (factor : σ) : (m.rescale factor).IsStaffed := by
  refine (Table.keys_foldl (f := id) (fun t l hl => ?_) fun l _ => ?_).trans h
  · cases t.value? l with
    | none => rfl
    | some n => exact Table.keys_put hl _
  · rw [h]
    exact Labor.mem_all l

/-- Rescaling multiplies the laborers of every labor and raises them to the least allocation. -/
lemma IsStaffed.laborersOf_rescale [OfScientific σ] (h : m.IsStaffed) (factor : σ) (l : Labor) :
    (m.rescale factor).laborersOf l =
      larger (m.laborersOf l * factor) m.plan.minAllocation := by
  have hvalue : (m.rescale factor).laborers.value? l =
      (m.laborers.value? l).map fun n => larger (n * factor) m.plan.minAllocation := by
    unfold Market.rescale
    dsimp only
    rw [← id_eq l, Table.value?_foldl (f := id)
      (u := fun _ v => v.map fun n => larger (n * factor) m.plan.minAllocation)
      Function.injective_id _ Labor.nodup_all, if_pos (Labor.mem_all _)]
    intro t l k
    split_ifs with hk
    · rw [show k = l from hk]
      cases hn : t.value? l <;> simp [hn, Table.value?_put]
    · cases t.value? l <;> simp [Table.value?_put, show k ≠ l from hk]
  rw [laborersOf, Table.valueD, hvalue, h.hasEveryLabor.value?_eq]
  rfl

/-! ### One tick -/

variable [Add σ] [Div σ] [BEq σ] [OfScientific σ] [Steering σ α]
variable [Zero α] [Add α] [Sub α] [Mul α] {solve : Solver σ α}

/-- What moving laborers has done when it succeeds. -/
lemma redistributeWith_eq_ok_iff : m.redistributeWith solve = (m', .ok steps) ↔
    ∃ x factor, m.solveSystem solve = .ok (x, steps) ∧
      (m.allocate x).workforceFactor = .ok factor ∧ (m.allocate x).rescale factor = m' := by
  rw [redistributeWith]
  cases m.solveSystem solve with
  | error e => simp
  | ok solution =>
    obtain ⟨x, steps'⟩ := solution
    cases hfactor : (m.allocate x).workforceFactor with
    | error e => simp [hfactor]
    | ok factor =>
      simp only [hfactor]
      constructor
      · intro h
        cases h
        exact ⟨x, factor, rfl, hfactor, rfl⟩
      · rintro ⟨_, factor', hsolution, hfactor', rfl⟩
        cases hsolution
        rw [hfactor, Except.ok.injEq] at hfactor'
        rw [hfactor']

/-- What a tick has done when it succeeds. -/
lemma tickWith_eq_ok_iff : m.tickWith solve = (m', .ok report) ↔
    ∃ m₁ steps, m.deriveAvailable.deriveLaborValues.redistributeWith solve = (m₁, .ok steps) ∧
      { m₁ with lastSteps := steps } = report ∧ { report with ticks := report.ticks + 1 } = m' := by
  rw [tickWith]
  cases hmoved : m.deriveAvailable.deriveLaborValues.redistributeWith solve with
  | mk m₁ result =>
    cases result with
    | error e => simp
    | ok steps =>
      simp only [Prod.mk.injEq, Except.ok.injEq]
      constructor
      · rintro ⟨rfl, rfl⟩
        exact ⟨m₁, steps, ⟨rfl, rfl⟩, rfl, rfl⟩
      · rintro ⟨_, _, ⟨rfl, rfl⟩, rfl, rfl⟩
        exact ⟨rfl, rfl⟩

/-- A tick reports its own number, and leaves the market as reported to the next one. -/
lemma tickWith_report (h : m.tickWith solve = (m', .ok report)) :
    report.plan = m.plan ∧ report.population = m.population ∧ report.ticks = m.ticks ∧
      m' = { report with ticks := m.ticks + 1 } := by
  obtain ⟨m₁, steps, hmoved, rfl, rfl⟩ := tickWith_eq_ok_iff.mp h
  obtain ⟨x, factor, -, -, rfl⟩ := redistributeWith_eq_ok_iff.mp hmoved
  exact ⟨rfl, rfl, rfl, rfl⟩

/-- A tick fails where its solver does. -/
lemma tickWith_eq_error {e : MarketError}
    (h : m.deriveAvailable.deriveLaborValues.solveSystem solve = .error e) :
    (m.tickWith solve).2 = .error e := by
  simp [tickWith, redistributeWith, h]

lemma population_of_tickWith (h : m.tickWith solve = (m', .ok report)) :
    m'.population = m.population := by
  obtain ⟨-, hpopulation, -, rfl⟩ := tickWith_report h
  exact hpopulation

/-! ### Runs -/

/-- The reports of some ticks, if all of them succeed. -/
def ticksWith (solve : Solver σ α) : Market σ α → ℕ → Except MarketError (List (Market σ α))
  | _, 0 => .ok []
  | m, n + 1 =>
    match m.tickWith solve with
    | (_, .error e) => .error e
    | (m', .ok report) => (report :: ·) <$> ticksWith solve m' n

lemma reportsFrom_of_ticksWith {n : ℕ} {reports : List (Market σ α)}
    (h : m.ticksWith solve n = .ok reports) :
    reportsFrom (tickWith solve) m n = (reports, none) := by
  induction n generalizing m reports with
  | zero =>
    cases h
    rfl
  | succ n ih =>
    rw [ticksWith] at h
    cases ht : m.tickWith solve with
    | mk m' result =>
      cases result with
      | error e => simp [ht] at h
      | ok report =>
        simp only [ht] at h
        obtain ⟨rest, hrest, rfl⟩ := map_eq_ok_iff.mp h
        rw [reportsFrom_of_ok ht, ih hrest]

/-- What every tick keeps holds along a run, and what every tick then reports is in all reports. -/
lemma forall_mem_of_ticksWith {I P : Market σ α → Prop}
    (htick : ∀ m m' report, I m → m.tickWith solve = (m', .ok report) → I m' ∧ P report)
    (hm : I m) {n : ℕ} {reports : List (Market σ α)} (h : m.ticksWith solve n = .ok reports) :
    ∀ r ∈ reports, P r := by
  have hreports := forall_mem_reportsFrom htick hm n
  rwa [reportsFrom_of_ticksWith h] at hreports

end Market

end Workforce
