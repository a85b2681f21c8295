import Workforce.Descent.Direction
import Workforce.Number.Order

/-!
# Damped descent with a backtracking line search

One step moves from parameters `x` to `x + a d`, where `d` is the damped direction. The scale `a`
runs through `a₁`, `a₁ s`, `a₁ s s`, …, as long as it is not below a floor, and the first scale
that strictly decreases the error is taken. If none does, the step stays at `x`. Every step puts
one entry on record.
-/

namespace Workforce

variable {σ α : Type}

/-- Damping and line search. The scales start above their floor and shrink. -/
structure Descent (σ : Type) [Zero σ] [One σ] [LT σ] where
  damping : σ
  start : σ
  shrink : σ
  floor : σ
  not_damping_neg : ¬ damping < 0
  shrink_pos : 0 < shrink
  shrink_lt_one : shrink < 1
  floor_pos : 0 < floor
  floor_lt_start : floor < start

/-- The outcome of one step. -/
structure Outcome (σ α : Type) where
  /-- The parameters after the step. -/
  x : Grid α
  errorBefore : σ
  errorAfter : σ
  /-- The accepted scale. -/
  scale : Option σ
  trials : Nat

namespace Outcome

/-- Whether the step has moved. -/
def accepted (o : Outcome σ α) : Bool := o.scale.isSome

/-- Where steps from `x` end. -/
def lastPoint (x : Grid α) (steps : List (Outcome σ α)) : Grid α :=
  match steps.getLast? with
  | some o => o.x
  | none => x

end Outcome

/-- What a step puts on record. -/
inductive Entry (σ : Type) where
  | accepted (scale : σ) (trials : Nat) (before after : σ)
  | solved
  | exhausted (trials : Nat) (error : σ)

/-- How urgent an entry is. -/
inductive Level where
  | debug
  | warning
deriving DecidableEq, Repr

def Level.text : Level → String
  | debug => "DEBUG"
  | warning => "WARNING"

namespace Entry

def level : Entry σ → Level
  | accepted .. => .debug
  | solved => .debug
  | exhausted .. => .warning

/-- The text of an entry, with places for its numbers. -/
def template : Entry σ → String
  | accepted .. => "step accepted: alpha=%g trials=%d error %.6g -> %.6g"
  | solved => "residual already zero; keeping x0"
  | exhausted .. => "line search exhausted after %d trials at error %.6g; keeping x0"

end Entry

/-- The outcome of a step and what the step puts on record. -/
structure Recorded (σ α : Type) where
  outcome : Outcome σ α
  record : List (Entry σ)

namespace Descent

variable [Zero σ] [One σ] [Mul σ] [LT σ] [LE σ] [BEq σ] [DecidableLT σ] [DecidableLE σ]

/-- The scale of trial number `k`, counted from zero. -/
def scaleAt (s : Descent σ) : Nat → σ
  | 0 => s.start
  | k + 1 => s.scaleAt k * s.shrink

variable [Zero α] [One α] [Add α] [Mul α] [Neg α] [Inverter α] [Steering σ α]

/-- The parameters and the error of a trial. -/
def trial (p : Problem α) (x d : Grid α) (a : σ) : Except SolveError (Grid α × σ) := do
  let x' ← checked (x.add (d.scale (← entryOf a)))
  pure (x', ← p.errorAt x')

/-- Try the scales from `a` on, `trials` of them having failed; `none` if that never ends. -/
def search? (s : Descent σ) (p : Problem α) (x d : Grid α) (error a : σ) (trials : Nat) :
    Option (Except SolveError (Recorded σ α)) :=
  if s.floor ≤ a then
    match trial p x d a with
    | .error e => some (.error e)
    | .ok (x', error') =>
      if error' < error then
        some (.ok
          ⟨⟨x', error, error', some a, trials + 1⟩, [.accepted a (trials + 1) error error']⟩)
      else s |>.search? p x d error (a * s.shrink) (trials + 1)
  else
    -- no scale decreases an error of zero, which is nothing to warn of
    let entry := if error == 0 then .solved else .exhausted trials error
    some (.ok ⟨⟨x, error, error, none, trials⟩, [entry]⟩)
partial_fixpoint

/-- The search from the first scale on. -/
def search (s : Descent σ) (p : Problem α) (x d : Grid α) (error : σ) :
    Except SolveError (Recorded σ α) :=
  (s.search? p x d error s.start 0).getD (.error .endless)

/-- One step from `x`. -/
def step (s : Descent σ) (p : Problem α) (x : Grid α) : Except SolveError (Recorded σ α) := do
  if x.shape ≠ ⟨p.parameters, 1⟩ then .error (.shape (.parameters p.parameters x.shape))
  else
    let error : σ ← p.errorAt x
    let d ← p.direction s.damping x
    s.search p x d error

/-- The steps of a run, up to the first that fails, and what they put on record. -/
structure Run (σ α : Type) where
  outcomes : List (Outcome σ α)
  record : List (Entry σ)
  failure : Option SolveError

/-- Put a step in front of a run. -/
def Run.cons (r : Recorded σ α) (run : Run σ α) : Run σ α :=
  ⟨r.outcome :: run.outcomes, r.record ++ run.record, run.failure⟩

/-- Successive steps, each from where the one before it ended. -/
def run (s : Descent σ) (p : Problem α) : (x : Grid α) → (steps : Nat) → Run σ α
  | _, 0 => ⟨[], [], none⟩
  | x, steps + 1 =>
    match s.step p x with
    | .error e => ⟨[], [], some e⟩
    | .ok r => Run.cons r (run s p r.outcome.x steps)

/-- Successive steps, if all of them succeed. -/
def iterate (s : Descent σ) (p : Problem α) (x : Grid α) (steps : Nat) :
    Except SolveError (List (Outcome σ α)) :=
  let r := s.run p x steps
  match r.failure with
  | some e => .error e
  | none => .ok r.outcomes

end Descent

end Workforce
