import Workforce.Proofs.Workspace.Evaluation

/-!
# Programs

A program is a list of statements. Statements that fail are passed over; the others lead from one
well-formed workspace to the next. So every workspace that a program leads to is well-formed, and
what an object is never changes.
-/

namespace Workforce.Workspace

variable {w w' : Workspace} {s : Statement} {effect : Effect} {id : ℕ} {v : Value}

/-- The workspace after a program. -/
def runAll (w : Workspace) : List Statement → Workspace
  | [] => w
  | s :: program => (w.run s).2.runAll program

@[simp] lemma runAll_nil (w : Workspace) : w.runAll [] = w := rfl

@[simp] lemma runAll_cons (w : Workspace) (s : Statement) (program : List Statement) :
    w.runAll (s :: program) = (w.run s).2.runAll program := rfl

lemma runAll_append (w : Workspace) (program later : List Statement) :
    w.runAll (program ++ later) = (w.runAll program).runAll later := by
  induction program generalizing w with
  | nil => rfl
  | cons s program ih => simp [ih]

/-! ### The answer and its name -/

/-- A value gets a name, if one is given. -/
def named (w : Workspace) (v : Value) : Option String → Workspace
  | some name => w.bind name v
  | none => w

@[simp] lemma objects_named (w : Workspace) (v : Value) (target : Option String) :
    (w.named v target).objects = w.objects := by
  cases target <;> rfl

lemma lookup_named_of_ne {target : Option String} {name : String} (h : target ≠ some name) :
    (w.named v target).lookup name = w.lookup name := by
  cases target with
  | none => rfl
  | some other => exact lookup_bind_of_ne w v fun heq => h (congrArg some heq)

lemma retains_of_objects_eq (h : w'.objects = w.objects) : w.Retains w' := by
  intro id o ho
  exact ⟨o, h ▸ ho, .refl o⟩

lemma WellFormed.named (hw : w.WellFormed) (hv : v.IsIn w) (target : Option String) :
    (w.named v target).WellFormed where
  objects id o ho := by
    rw [objects_named] at ho
    exact (retains_of_objects_eq (objects_named w v target)).object (hw.objects id o ho)
  names p hp := by
    refine (retains_of_objects_eq (objects_named w v target)).isIn ?_
    cases target with
    | none => exact hw.names p hp
    | some name =>
      rcases List.mem_cons.mp hp with rfl | hp
      · exact hv
      · exact hw.names p (List.mem_of_mem_filter hp)

/-! ### Steps -/

lemma run_of_ok (h : (eval s.command).run w = .ok (effect, w')) :
    w.run s =
      (.ok (w'.apply effect).1, (w'.apply effect).2.named (w'.apply effect).1 s.target) := by
  rw [run, h]
  cases s.target <;> rfl

/-- A statement fails and changes nothing, or its effect is applied. -/
lemma run_cases (w : Workspace) (s : Statement) :
    (∃ e, w.run s = (.error e, w)) ∨
      ∃ effect w', (eval s.command).run w = .ok (effect, w') ∧
        w.run s =
          (.ok (w'.apply effect).1, (w'.apply effect).2.named (w'.apply effect).1 s.target) := by
  cases h : (eval s.command).run w with
  | error e => exact .inl ⟨e, run_of_error h⟩
  | ok p => exact .inr ⟨p.1, p.2, rfl, run_of_ok h⟩

/-- A step keeps a workspace well-formed and what the objects in it are. -/
lemma WellFormed.run (hw : w.WellFormed) (s : Statement) :
    (w.run s).2.WellFormed ∧ w.Retains (w.run s).2 := by
  rcases run_cases w s with ⟨e, h⟩ | ⟨effect, w', heval, h⟩
  · rw [h]
    exact ⟨hw, Retains.refl w⟩
  · obtain ⟨hext, hw', hsound, -⟩ := ensures_eval hw s.command effect w' heval
    obtain ⟨happly, hv⟩ := hw'.apply hsound
    rw [h]
    exact ⟨happly.named hv s.target, hext.retains.trans <| (retains_apply w' effect).trans <|
      retains_of_objects_eq (objects_named ..)⟩

/-- What a statement answers with is there. -/
lemma isIn_of_run (hw : w.WellFormed) (h : (w.run s).1 = .ok v) : v.IsIn (w.run s).2 := by
  rcases run_cases w s with ⟨e, hrun⟩ | ⟨effect, w', heval, hrun⟩
  · rw [hrun] at h
    cases h
  · obtain ⟨-, hw', hsound, -⟩ := ensures_eval hw s.command effect w' heval
    rw [hrun] at h ⊢
    cases h
    exact (retains_of_objects_eq (objects_named ..)).isIn (hw'.apply hsound).2

lemma WellFormed.runAll (hw : w.WellFormed) (program : List Statement) :
    (w.runAll program).WellFormed ∧ w.Retains (w.runAll program) := by
  induction program generalizing w with
  | nil => exact ⟨hw, Retains.refl w⟩
  | cons s program ih =>
    obtain ⟨hw', hretains⟩ := hw.run s
    obtain ⟨hw'', hretains'⟩ := ih hw'
    exact ⟨hw'', hretains.trans hretains'⟩

/-- Every workspace that a program leads to is well-formed. -/
lemma wellFormed_runAll (program : List Statement) : (empty.runAll program).WellFormed :=
  (wellFormed_empty.runAll program).1

/-! ### Programs that fail -/

/-- All statements of a program succeed. -/
def Succeeds (w : Workspace) : List Statement → Prop
  | [] => True
  | s :: program => (∃ v, (w.run s).1 = .ok v) ∧ (w.run s).2.Succeeds program

/-- The first statement of a program that fails is the one after `k` others. -/
def FailsAt (w : Workspace) (program : List Statement) (k : ℕ) (e : CommandError) : Prop :=
  ∃ before s after, program = before ++ s :: after ∧ before.length = k ∧ w.Succeeds before ∧
    ((w.runAll before).run s).1 = .error e

variable {p q : List Statement} {k : ℕ} {e : CommandError}

lemma succeeds_append : w.Succeeds (p ++ q) ↔ w.Succeeds p ∧ (w.runAll p).Succeeds q := by
  induction p generalizing w with
  | nil => simp [Succeeds]
  | cons s p ih => simp [Succeeds, ih, and_assoc]

lemma FailsAt.not_succeeds (h : w.FailsAt p k e) : ¬ w.Succeeds p := by
  obtain ⟨before, s, after, rfl, -, -, hfails⟩ := h
  rw [succeeds_append]
  rintro ⟨-, ⟨v, hv⟩, -⟩
  cases hfails.symm.trans hv

lemma FailsAt.append (h : w.FailsAt p k e) (q : List Statement) : w.FailsAt (p ++ q) k e := by
  obtain ⟨before, s, after, rfl, hlength, hbefore, hfails⟩ := h
  exact ⟨before, s, after ++ q, by simp, hlength, hbefore, hfails⟩

lemma FailsAt.after (hp : w.Succeeds p) (h : (w.runAll p).FailsAt q k e) :
    w.FailsAt (p ++ q) (p.length + k) e := by
  obtain ⟨before, s, after, rfl, rfl, hbefore, hfails⟩ := h
  refine ⟨p ++ before, s, after, by simp, by simp, succeeds_append.mpr ⟨hp, hbefore⟩, ?_⟩
  rwa [runAll_append]

end Workforce.Workspace
