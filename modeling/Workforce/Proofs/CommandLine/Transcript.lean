import Workforce.Proofs.CommandLine.Simulation

/-!
# The transcript of a simulation

A simulation prints a header, a block for every tick that succeeds, and a closing. The closing says
whether all ticks have run or which tick was singular, and so decides the exit code.
-/

namespace Workforce.CommandLine

open Request

/-! ### Lines -/

/-- A line that begins with a text. -/
def Begins (start line : String) : Prop := ∃ rest, line = start ++ rest

lemma begins_append (start rest : String) : Begins start (start ++ rest) := ⟨rest, rfl⟩

lemma Begins.append {start line : String} (h : Begins start line) (rest : String) :
    Begins start (line ++ rest) := by
  obtain ⟨rest', rfl⟩ := h
  exact ⟨rest' ++ rest, String.append_assoc⟩

/-- A line of a table begins with the name that it is about. -/
lemma begins_tableLine (w : ℕ) (name : String) (columns : List (ℕ × String)) :
    Begins ("  " ++ name) (tableLine w name columns) := by
  rw [tableLine, Decimal.padRight, String.intercalate_cons_append, ← String.append_assoc]
  exact begins_append _ _

/-- The line of a step gives the error before and after it. -/
def IsStepLine (o : Outcome Quantity Float32) (line : String) : Prop :=
  Begins s!"  Solver: error {inText o.errorBefore} -> {inText o.errorAfter} (" line

lemma isStepLine_stepLine (o : Outcome Quantity Float32) : IsStepLine o (stepLine o) := by
  unfold IsStepLine stepLine
  extract_lets status
  exact (begins_append _ _).append _

/-- The line of a comparison of the inverses, or of one that is skipped. -/
def IsCheckLine (line : String) : Prop :=
  Begins "  Flow inverse (depth " line ∨ Begins "  Flow inverse check skipped: " line

lemma isCheckLine_line (c : Check) : IsCheckLine c.line := by
  cases c with
  | compared depth deviation defect =>
    refine .inl ?_
    unfold Check.line
    exact ((((begins_append _ _).append _).append _).append _).append _
  | skipped e =>
    refine .inr ?_
    unfold Check.line
    exact begins_append _ _

/-! ### Blocks -/

/-- The head of the table of labors. -/
def laborHead : List String :=
  [tableLine 12 "Labor" [(10, "Laborers"), (13, "Productivity"), (11, "Limited by")],
    ruleLine 12 [10, 13, 11]]

/-- The head of the table of goods. -/
def goodHead : List String :=
  [tableLine 6 "Good"
      [(10, "Available"), (10, "Labor val"), (10, "Price"), (10, "Demand"), (10, "Output")],
    ruleLine 6 [10, 10, 10, 10, 10]]

/-- The lines of the block of a tick: its number, a row for each labor and for each good in order, a
line for each step of the solver, and, if the inverses are compared, one line for that. -/
def IsBlock (compared : Bool) (report : Town) (lines : List String) : Prop :=
  ∃ (labors goods steps checks : List String) (idle : String),
    lines = ["", s!"--- Tick {report.ticks} ---"] ++ laborHead ++ labors ++ [idle] ++
      ([""] ++ goodHead ++ goods) ++ steps ++ checks ∧
    List.Forall₂ (fun l row => Begins ("  " ++ l.text) row) Labor.all labors ∧
    List.Forall₂ (fun g row => Begins ("  " ++ g.text) row) Good.all goods ∧
    List.Forall₂ IsStepLine report.lastSteps steps ∧
    checks.length = (if compared then 1 else 0) ∧ ∀ line ∈ checks, IsCheckLine line

lemma forall₂_map {β γ : Type} {R : β → γ → Prop} {f : β → γ} (h : ∀ b, R b (f b)) (bs : List β) :
    List.Forall₂ R bs (bs.map f) :=
  List.forall₂_map_right_iff.mpr (List.forall₂_same.mpr fun b _ => h b)

lemma TickBlock.isBlock_lines (b : TickBlock) : IsBlock b.check.isSome b.report b.lines := by
  refine ⟨Labor.all.map (laborLine b.report), Good.all.map (goodLine b.report),
    b.report.lastSteps.map stepLine, b.check.toList.map Check.line, idleLine b.report, rfl,
    forall₂_map (fun l => begins_tableLine _ _ _) _,
    forall₂_map (fun g => begins_tableLine _ _ _) _, forall₂_map isStepLine_stepLine _, ?_, ?_⟩
  · cases b.check <;> rfl
  · intro line hline
    obtain ⟨c, -, rfl⟩ := List.mem_map.mp hline
    exact isCheckLine_line c

/-! ### Transcripts -/

/-- The last lines after some blocks, and the exit code: all ticks have run, or the one after the
blocks was singular. -/
inductive Closes (ticks : ℤ) (blocks : ℕ) : List String → ℕ → Prop
  | finished (h : blocks = ticks) : Closes ticks blocks ["", doubleRule] 0
  | singular (e : InversionError) (he : e.isSingular = true) (h : blocks < ticks) :
    Closes ticks blocks ["", s!"  ERROR at tick {blocks}: {e.message}",
      "  Increase --beta to regularize the normal equations."] 1

variable {env : Environment} {settings : Settings} {values : List (String × OptionValue)}
variable {arguments : List String} {name : String} {code : ℕ}

namespace Simulated.Ends

variable [LinearSolver Float32] {s : Simulated} {plan : SimulationPlan} {t : Town} {n : ℕ}

lemma length_eq (h : s.Ends plan t n) :
    (reportsFrom Market.tick t n).1.length = s.blocks.length := by
  rw [← h.reports_eq, List.length_map]

/-- The lines of each block are about the report of its tick. -/
lemma isBlock (h : s.Ends plan t n) : List.Forall₂ (IsBlock plan.checkDepth.isSome)
    (reportsFrom Market.tick t n).1 (s.blocks.map TickBlock.lines) := by
  rw [← h.reports_eq, List.forall₂_map_left_iff, List.forall₂_map_right_iff, List.forall₂_same]
  intro b hb
  rw [← h.isSome_check b hb]
  exact b.isBlock_lines

lemma execution (h : s.Ends plan t n) (ht : t.ticks = 0) (header : List String) :
    ∃ (closing : List String) (code : ℕ), Closes n s.blocks.length closing code ∧
      s.execution header = .ofLines (.exit code)
        (header ++ (s.blocks.map TickBlock.lines).flatten ++ closing) := by
  obtain ⟨hending, hlength⟩ | ⟨e, hending, he, hlength⟩ := h.ending
  · refine ⟨_, _, .finished (congrArg Nat.cast hlength), ?_⟩
    rw [Simulated.execution, hending, List.flatMap_def]
    rfl
  · rw [ht, Nat.zero_add] at hending
    refine ⟨_, _, .singular e he (Nat.cast_lt.mpr hlength), ?_⟩
    rw [Simulated.execution, hending, List.flatMap_def]
    rfl

end Simulated.Ends

/-- A simulation that is neither refused nor broken off prints its header, a block for every report
of its ticks and a closing, whatever solves scaled systems. The reports are numbered from zero on
without a gap, each has as many steps as a tick has by the settings, and the closing tells whether
all ticks have run or which one was singular. -/
theorem executeSimulation_transcript [LinearSolver Float32] (hsettings : ambient env = .ok settings)
    (hvalues : parse (simulation name).options arguments = .ok (.run values))
    (hending : (executeSimulation name env arguments).ending = .exit code) (hcode : code ≠ 2) :
    ∃ (d : Descent Quantity) (reports : List Town) (blocks : List (List String))
      (closing : List String),
      descent env { damping := some (.real (dampingAsked settings values)) } = .ok d ∧
      reports =
        (reportsFrom Market.tick (townAsked settings values d) (ticksAsked values).toNat).1 ∧
      executeSimulation name env arguments = .ofLines (.exit code)
        (headerLines (.real (populationAsked settings values)) (ticksAsked values)
          (dampingAsked settings values) ++ blocks.flatten ++ closing) ∧
      List.Forall₂ (IsBlock (comparisonAsked values)) reports blocks ∧
      reports.map (·.ticks) = List.range blocks.length ∧
      (∀ r ∈ reports, (r.lastSteps.length : ℤ) = settings.stepsPerTick) ∧
      Closes (ticksAsked values) blocks.length closing code := by
  obtain ⟨-, hrun⟩ | ⟨-, hrun⟩ | ⟨d, hd, -, hticks, hrun⟩ := runSimulation_cases hsettings values
  -- what is refused ends with another exit code
  · rw [executeSimulation, Program.execute_of_error hsettings hvalues hrun] at hending
    cases hending
    exact absurd rfl hcode
  · rw [executeSimulation, Program.execute_of_error hsettings hvalues hrun] at hending
    cases hending
    exact absurd rfl hcode
  · have hexecution : executeSimulation name env arguments = _ :=
      Program.execute_of_ok hsettings hvalues hrun
    have hends := ends_of_simulate (planAsked settings values) (townAsked settings values d)
      (ticksAsked values).toNat fun lines e hbroken => by
        rw [hexecution, Simulated.execution, hbroken] at hending
        cases hending
    obtain ⟨closing, code', hcloses, hlines⟩ := hends.execution rfl
      (headerLines (.real (populationAsked settings values)) (ticksAsked values)
          (dampingAsked settings values))
    rw [hlines] at hexecution
    -- the code that the closing belongs to is the one that the program has ended with
    obtain rfl : code' = code := by
      rw [hexecution] at hending
      exact Ending.exit.inj hending
    rw [Int.toNat_of_nonneg hticks] at hcloses
    -- settings in bounds have at least one step, so the number is a natural one
    have hone := (withinBounds_of_ambient hsettings).1.one_le_stepsPerTick
    have hsteps : (townAsked settings values d).plan.steps.steps =
        .ok settings.stepsPerTick.toNat := Literal.steps_whole (by linarith)
    refine ⟨d, _, _, closing, hd, rfl, hexecution, ?_, ?_, ?_, by rwa [List.length_map]⟩
    · rw [← isSome_checkDepth_planAsked settings values]
      exact hends.isBlock
    · rw [ticks_reportsFrom, hends.length_eq, List.length_map, List.range_eq_range']
      rfl
    · intro r hr
      rw [length_lastSteps_reportsFrom hsteps _ r hr, Int.toNat_of_nonneg (by linarith)]

lemma parse_oneTick : parse (simulation "run_economy.py").options ["--ticks", "1"] =
    .ok (.run [("--ticks", .integer 1)]) := rfl

/-- One tick of the default settings does not break off. -/
lemma ending_oneTick :
    (executeSimulation "run_economy.py" .empty ["--ticks", "1"]).ending = .exit 0 := by
  obtain ⟨hnegative, -⟩ | ⟨hnegative, -⟩ | ⟨d, hd, hparameters, -, hrun⟩ :=
    runSimulation_cases ambient_empty [("--ticks", .integer 1)]
  · exact absurd hnegative (by decide)
  · exact absurd hnegative (by decide +kernel)
  obtain ⟨s, r, hticked, -⟩ := ticked_townOfHundred hparameters (.inl rfl)
  have hanswer : (townOfHundred d).tick.2 = .ok r := by
    have hsupplied := ticked_of_supplied (s := ⟨townOfHundred d, none⟩) rfl
    exact mapError_eq_ok_iff.mp (congrArg Prod.snd (hsupplied.symm.trans hticked))
  have htick : (townOfHundred d).tick = ((townOfHundred d).tick.1, .ok r) := Prod.ext rfl hanswer
  have hblock : block ⟨.real 0.001, none⟩ (townOfHundred d).tick.1 r = .ok ⟨r, none⟩ := by
    obtain ⟨-, hpopulation, -⟩ := report_of_tick htick
    rw [block, hpopulation]
    rfl
  rw [executeSimulation, Program.execute_of_ok ambient_empty rfl hrun]
  change ((simulate ⟨.real 0.001, none⟩ (townOfHundred d) 1).execution _).ending = _
  rw [simulate, htick]
  simp only [hblock]
  rfl

/-- One tick of the default settings is printed in one block. -/
theorem executeSimulation_transcript_oneTick : ∃ (report : Town) (block : List String),
    report.ticks = 0 ∧ report.lastSteps.length = 1 ∧ IsBlock false report block ∧
    executeSimulation "run_economy.py" .empty ["--ticks", "1"] = .ofLines (.exit 0)
      (headerLines (.real 100.0) 1 0.001 ++ block ++ ["", doubleRule]) := by
  obtain ⟨d, reports, blocks, closing, -, -, hlines, hblocks, hticks, hsteps, hcloses⟩ :=
    executeSimulation_transcript ambient_empty parse_oneTick ending_oneTick (by decide)
  cases hcloses with
  | finished hlength =>
    obtain ⟨block, rfl⟩ := List.length_eq_one_iff.mp (Nat.cast_injective (R := ℤ) hlength)
    obtain ⟨report, hreport, rfl⟩ : ∃ report, IsBlock false report block ∧ reports = [report] := by
      obtain - | ⟨hblock, hrest⟩ := hblocks
      cases hrest
      exact ⟨_, hblock, rfl⟩
    refine ⟨report, block, ?_, ?_, hreport, ?_⟩
    · exact List.singleton_inj.mp hticks
    · exact Nat.cast_injective (R := ℤ) (hsteps report (List.mem_singleton_self _))
    · rw [hlines, List.flatten_singleton]
      rfl

end Workforce.CommandLine
