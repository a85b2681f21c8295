import Workforce.Descent.Parameters
import Workforce.Proofs.Descent.LineSearch
import Workforce.Proofs.Number.RealQuantity

/-!
# Line searches without end

A line search has no end exactly where no scale is below the floor and no trial decreases the error.
The scales are rounded, so they need not come below the floor: they fall until the factor leaves
one of them as it is. An infinite scale stays infinite, and a scale with few bits may round to
itself. Finite scales above the least normal number fall, and so do all finite scales with a factor
of at most one half.
-/

namespace Workforce

instance instFiniteFloat : Finite Float := by
  refine Finite.of_injective (fun x : Float => x.toModel.toBits.toFin) fun x y h => ?_
  obtain ⟨⟨⟨⟨a⟩⟩, ha⟩⟩ := x
  obtain ⟨⟨⟨⟨b⟩⟩, hb⟩⟩ := y
  cases h
  rfl

namespace Descent

section

variable {σ α : Type} [Zero α] [Add α] [Mul α] [Steering σ α]
variable [Zero σ] [One σ] [Mul σ] [LT σ] [LE σ]
variable {s : Descent σ} {p : Problem α} {x d : Grid α} {error a : σ} {trials : ℕ}

/-- A search that is not in vain has a first scale that is below the floor or does not fail. -/
lemma exists_failsUpTo_of_not_forall
    (h : ¬ ∀ k, s.floor ≤ s.scaleAt k ∧ TrialFails p x d error (s.scaleAt k)) :
    ∃ k, ¬ (s.floor ≤ s.scaleAt k ∧ TrialFails p x d error (s.scaleAt k)) ∧
      s.FailsUpTo p x d error k := by
  classical
  have hex := not_forall.mp h
  exact ⟨Nat.find hex, Nat.find_spec hex, fun i hi => not_not.mp (Nat.find_min hex hi)⟩

variable [BEq σ] [DecidableLT σ] [DecidableLE σ] {q : Except SolveError (Recorded σ α)}

/-- A search that ends has come to a scale below the floor, or to a trial that does not fail. -/
lemma exists_of_search?_eq_some (h : s.search? p x d error a trials = some q)
    (ha : a = s.scaleAt trials) :
    ∃ k, ¬ (s.floor ≤ s.scaleAt k ∧ TrialFails p x d error (s.scaleAt k)) := by
  refine search?.partial_correctness s p x d error
    (fun a trials _ => a = s.scaleAt trials →
      ∃ k, ¬ (s.floor ≤ s.scaleAt k ∧ TrialFails p x d error (s.scaleAt k))) ?_ a trials q h ha
  rintro search ih _ k q hstep rfl
  by_cases hfails : s.floor ≤ s.scaleAt k ∧ TrialFails p x d error (s.scaleAt k)
  · obtain ⟨hle, x', error', hmoved, herror, hlt⟩ := hfails
    rw [if_pos hle] at hstep
    simp only [trial_eq_ok_iff.mpr ⟨hmoved, herror⟩] at hstep
    rw [if_neg hlt] at hstep
    exact ih _ _ _ hstep rfl
  · exact ⟨k, hfails⟩

/-- A search has no end where every scale is tried and fails. -/
lemma search?_eq_none_iff_forall : s.search? p x d error s.start 0 = none ↔
    ∀ k, s.floor ≤ s.scaleAt k ∧ TrialFails p x d error (s.scaleAt k) := by
  constructor
  · intro hnone
    by_contra hsome
    -- up to the first scale that is not tried in vain the search goes on, and there it ends
    obtain ⟨k, hk, hfirst⟩ := exists_failsUpTo_of_not_forall hsome
    rw [search?_of_failsUpTo hfirst, search?] at hnone
    split_ifs at hnone with hle
    cases ht : (trial p x d (s.scaleAt k) : Except SolveError (Grid α × σ)) with
    | error e => simp [ht] at hnone
    | ok y =>
      obtain ⟨x', error'⟩ := y
      simp only [ht] at hnone
      obtain ⟨hmoved, herror⟩ := trial_eq_ok_iff.mp ht
      split_ifs at hnone with hlt
      exact hk ⟨hle, x', error', hmoved, herror, hlt⟩
  · intro hall
    by_contra hsome
    obtain ⟨q, hq⟩ := Option.ne_none_iff_exists'.mp hsome
    obtain ⟨k, hk⟩ := exists_of_search?_eq_some hq rfl
    exact hk (hall k)

end

/-! ### Rounded scales -/

section

variable {s : Descent Quantity} {damping start shrink floor : Float} {k : ℕ}

/-- The scales of a line search with binary64 parameters. -/
def realScaleAt (start shrink : Float) : ℕ → Float
  | 0 => start
  | k + 1 => realScaleAt start shrink k * shrink

lemma eq_of_descent_real (h : Parameters.descent ⟨.real damping, .real start, .real shrink,
    .real floor⟩ = .ok s) :
    s.damping = .real damping ∧ s.start = .real start ∧ s.shrink = .real shrink ∧
      s.floor = .real floor := by
  obtain ⟨⟨damping', hdamping⟩, hcheck, h⟩ := bind_eq_ok_iff.mp h
  obtain ⟨damping'', hquantity, hcheck⟩ := bind_eq_ok_iff.mp hcheck
  -- a real parameter is itself as a quantity, and each check either fails or passes it on
  cases hquantity
  split_ifs at hcheck
  cases hcheck
  obtain ⟨shrink', hshrink, h⟩ := bind_eq_ok_iff.mp h
  cases hshrink
  split_ifs at h with hone
  obtain ⟨floor', hfloor, h⟩ := bind_eq_ok_iff.mp h
  cases hfloor
  split_ifs at h with hpos
  obtain ⟨start', hstart, h⟩ := bind_eq_ok_iff.mp h
  cases hstart
  split_ifs at h
  cases h
  exact ⟨rfl, rfl, rfl, rfl⟩

lemma scaleAt_eq_real (hstart : s.start = .real start) (hshrink : s.shrink = .real shrink) (k : ℕ) :
    s.scaleAt k = .real (realScaleAt start shrink k) := by
  induction k with
  | zero => exact hstart
  | succ k ih => rw [scaleAt, ih, hshrink, Quantity.real_mul_real, realScaleAt]

variable (hshrink : IsShrinking shrink)
include hshrink

lemma notNegative_realScaleAt (hstart : NotNegative start) (k : ℕ) :
    NotNegative (realScaleAt start shrink k) := by
  induction k with
  | zero => exact hstart
  | succ k ih => exact (hshrink.size_mul_le ih).1

lemma size_realScaleAt_le (hstart : NotNegative start) (k : ℕ) :
    size (realScaleAt start shrink k) ≤ size start := by
  induction k with
  | zero => exact le_rfl
  | succ k ih =>
    exact (hshrink.size_mul_le (notNegative_realScaleAt hshrink hstart k)).2.trans ih

/-- Among finitely many numbers the scales cannot fall for ever. -/
lemma exists_mul_eq (hstart : NotNegative start) :
    ∃ k, realScaleAt start shrink k * shrink = realScaleAt start shrink k := by
  by_contra! hne
  have hanti : StrictAnti fun k => size (realScaleAt start shrink k) := by
    refine strictAnti_nat_of_succ_lt fun k => ?_
    have hk := notNegative_realScaleAt hshrink hstart k
    obtain ⟨hk', hle⟩ := hshrink.size_mul_le hk
    exact lt_of_le_of_ne hle fun heq => hne k (hk'.eq_of_size_eq hk heq)
  exact not_injective_infinite_finite (realScaleAt start shrink)
    (Function.Injective.of_comp (f := size) hanti.injective)

/-- No scale falls below a number that the factor leaves as it is. -/
lemma le_realScaleAt {a : Float} (ha : NotNegative a) (hstart : NotNegative start)
    (hle : a ≤ start) (hfixed : a * shrink = a) (k : ℕ) :
    size a ≤ size (realScaleAt start shrink k) := by
  induction k with
  | zero => exact (ha.le_iff hstart).mp hle
  | succ k ih =>
    rw [← hfixed]
    exact hshrink.size_mul_mono ha (notNegative_realScaleAt hshrink hstart k) ih

/-- The scales stay above the floor exactly if the factor leaves a number as it is on the way. -/
lemma forall_floor_le_iff (hfloor : NotNegative floor) (hpos : 0 < size floor)
    (hstart : NotNegative start) :
    (∀ k, floor ≤ realScaleAt start shrink k) ↔
      ∃ a, floor ≤ a ∧ a ≤ start ∧ a * shrink = a := by
  constructor
  · intro hall
    obtain ⟨k, hk⟩ := exists_mul_eq hshrink hstart
    have hk' := notNegative_realScaleAt hshrink hstart k
    exact ⟨realScaleAt start shrink k, hall k,
      (hk'.le_iff hstart).mpr (size_realScaleAt_le hshrink hstart k), hk⟩
  · rintro ⟨a, hle, hstart', hfixed⟩ k
    have ha := hfloor.of_le hpos hle
    rw [hfloor.le_iff (notNegative_realScaleAt hshrink hstart k)]
    exact ((hfloor.le_iff ha).mp hle).trans (le_realScaleAt hshrink ha hstart hstart' hfixed k)

end

variable {s : Descent Quantity} {damping start shrink floor : Float}
variable {α : Type} [Zero α] [Add α] [Mul α] [Steering Quantity α]

/-- A line search with binary64 parameters has no end exactly if the factor leaves a number between
the floor and the first scale as it is, and no trial decreases the error. So it ends if the first
scale is finite and the floor is above the least normal number, or the factor at most one half. -/
theorem search?_eq_none_iff (h : Parameters.descent ⟨.real damping, .real start, .real shrink,
    .real floor⟩ = .ok s) (p : Problem α) (x d : Grid α) (error : Quantity) :
    (s.search? p x d error s.start 0 = none ↔
      (∃ a, floor ≤ a ∧ a ≤ start ∧ a * shrink = a) ∧ ∀ k, TrialFails p x d error (s.scaleAt k)) ∧
      (start.isFinite = true → leastNormal < floor ∨ shrink ≤ 0.5 →
        (s.search? p x d error s.start 0).isSome = true) := by
  obtain ⟨-, hs_start, hs_shrink, hs_floor⟩ := eq_of_descent_real h
  obtain ⟨hfloor, hpos⟩ := Quantity.pos_of_lt_real (hs_floor ▸ s.floor_pos)
  have hshrink : IsShrinking shrink :=
    Quantity.isShrinking_of_lt (hs_shrink ▸ s.shrink_pos) (hs_shrink ▸ s.shrink_lt_one)
  have hlt : floor < start := by
    rw [← Quantity.lt_real, ← hs_floor, ← hs_start]
    exact s.floor_lt_start
  have hstart := hfloor.of_le hpos (float_le_of_lt hlt)
  have hiff : s.search? p x d error s.start 0 = none ↔
      (∃ a, floor ≤ a ∧ a ≤ start ∧ a * shrink = a) ∧
        ∀ k, TrialFails p x d error (s.scaleAt k) := by
    rw [search?_eq_none_iff_forall, forall_and, ← forall_floor_le_iff hshrink hfloor hpos hstart]
    simp only [scaleAt_eq_real hs_start hs_shrink, hs_floor, Quantity.le_real]
  refine ⟨hiff, fun hfinite hdecreases => ?_⟩
  -- a scale that the factor leaves as it is cannot be: in either case the product is less
  rw [Option.isSome_iff_ne_none, ne_eq, hiff]
  rintro ⟨⟨a, hle, hle', hfixed⟩, -⟩
  have ha := hfloor.of_le hpos hle
  have hsize := (hfloor.le_iff ha).mp hle
  have htop : size a ≠ ⊤ :=
    ne_top_of_le_ne_top (size_ne_top hfinite) ((ha.le_iff hstart).mp hle')
  have hfall : size (a * shrink) < size a := by
    refine hshrink.size_mul_lt ha (hpos.trans_le hsize) htop ?_
    rcases hdecreases with hnormal | hhalf
    · exact .inl (((notNegative_leastNormal.lt_iff hfloor).mp hnormal).trans_le hsize)
    · exact .inr ((hshrink.notNegative.le_iff notNegative_half).mp hhalf)
  rw [hfixed] at hfall
  exact lt_irrefl _ hfall

/-- With the default parameters every line search ends. -/
theorem search?_isSome_default : ∃ s : Descent Quantity,
    Parameters.descent ⟨.real 0.001, .real 1, .real 0.5, .real 0.001⟩ = .ok s ∧
      ∀ (p : Problem Float32) (x d : Grid Float32) (error : Quantity),
        (s.search? p x d error s.start 0).isSome = true := by
  obtain ⟨s, hs, -⟩ : ∃ s, Parameters.descent ⟨.real 0.001, .real 1, .real 0.5, .real 0.001⟩ =
      .ok s ∧ () = () := map_eq_ok_iff.mp (by decide +kernel)
  refine ⟨s, hs, fun p x d error => ?_⟩
  obtain ⟨-, hends⟩ := search?_eq_none_iff hs p x d error
  exact hends (by decide +kernel) (.inr (by decide +kernel))

/-! ### An infinite first scale -/

/-- Zero, as a point and as a right hand side. -/
def origin : Grid Float32 := ⟨(.zero : Mat Float32 1 1)⟩

/-- One, as a matrix. -/
def unit : Grid Float32 := ⟨(.identity : Mat Float32 1 1)⟩

/-- The linear problem `x = 0`. -/
def atOrigin : Problem Float32 where
  equations := 1
  parameters := 1
  residual := Problem.linearResidual unit origin
  jacobian _ := .ok (unit.scale 1)

lemma realScaleAt_infinite (k : ℕ) : realScaleAt (1 / 0) 0.5 k = 1 / 0 := by
  induction k with
  | zero => rfl
  | succ k ih =>
    rw [realScaleAt, ih]
    decide +kernel

/-- An infinite first scale is accepted, and a step with it need not end: the scale stays infinite,
and where it is tried the error is undefined. -/
theorem step_endless_of_infinite_start : ∃ (s : Descent Quantity) (p : Problem Float32),
    Parameters.descent ⟨.real 0, .real (1 / 0), .real 0.5, .real 0.001⟩ = .ok s ∧
      Problem.linear unit origin 1 = .ok p ∧ s.step p origin = .error .endless := by
  obtain ⟨s, hs, -⟩ : ∃ s, Parameters.descent ⟨.real 0, .real (1 / 0), .real 0.5, .real 0.001⟩ =
      .ok s ∧ () = () := map_eq_ok_iff.mp (by decide +kernel)
  obtain ⟨hdamping, hstart, hshrink, hfloor⟩ := eq_of_descent_real hs
  have herror : (atOrigin.errorAt origin : Except SolveError Quantity) = .ok (.real 0) := by
    decide +kernel
  -- the direction need not be named: of its trial only the error matters
  have htrial : (atOrigin.direction (.real 0 : Quantity) origin >>= fun d =>
      (trial atOrigin origin d (.real (1 / 0) : Quantity)).map
        fun y => decide (y.2 < (.real 0 : Quantity))) = .ok false := by
    decide +kernel
  obtain ⟨d, hd, htrial⟩ := bind_eq_ok_iff.mp htrial
  obtain ⟨⟨x', error'⟩, htrial, hlt⟩ := map_eq_ok_iff.mp htrial
  obtain ⟨hmoved, herror'⟩ := trial_eq_ok_iff.mp htrial
  have hfails : TrialFails atOrigin origin d (.real 0 : Quantity) (.real (1 / 0)) :=
    ⟨x', error', hmoved, herror', of_decide_eq_false hlt⟩
  have hnone : s.search? atOrigin origin d (.real 0) s.start 0 = none := by
    rw [search?_eq_none_iff_forall]
    intro k
    rw [scaleAt_eq_real hstart hshrink, realScaleAt_infinite, hfloor]
    exact ⟨by decide +kernel, hfails⟩
  refine ⟨s, atOrigin, hs, rfl, ?_⟩
  rw [step, if_neg (by decide), herror, ok_bind, hdamping, hd, ok_bind, search, hnone]
  rfl

end Descent

end Workforce
