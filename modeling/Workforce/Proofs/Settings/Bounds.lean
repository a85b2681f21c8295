import Workforce.Proofs.Failure
import Workforce.Proofs.Number.RealQuantity
import Workforce.Settings.Load

/-!
# Settings within their bounds

A setting is a value that was converted and checked or a default, so all settings are within their
bounds whether or not others are refused. Settings that load also have the floor of the line search
below its start, and so their line search is one that a descent can have.
-/

namespace Workforce

namespace Quantity

variable {n : ℤ} {x : Float}

/-- A number that compares with an integer from one side compares with it from the other. -/
lemma not_lt_of_whole_le (h : whole n ≤ real x) : ¬ real x < whole n := by
  have hcompare : (Parts.of x).compareInt n = some .lt ∨ (Parts.of x).compareInt n = some .eq := h
  intro hlt
  have hswapped : ((Parts.of x).compareInt n).map Ordering.swap = some .lt := hlt
  rcases hcompare with hcompare | hcompare <;> rw [hcompare] at hswapped <;> cases hswapped

end Quantity

namespace Settings

variable {τ : Type} {given : String → Option Literal} {name : String} {bounds : List Bound}
variable {convert : Literal → Except ValueError τ} {fallback : τ} {toQuantity : τ → Quantity}
variable {l : Literal} {x y : τ}

lemma holds_of_bounded (h : bounded toQuantity bounds x = .ok y) :
    ∀ b ∈ bounds, b.holds (toQuantity y) = true := by
  rw [bounded] at h
  split at h
  case h_1 => cases h
  case h_2 hnone =>
    cases h
    simpa [Bound.firstViolated?, List.find?_eq_none] using hnone

/-- What the default and all converted values have in common, a setting has. -/
lemma field_mem {P : τ → Prop} (hfallback : P fallback) (hconvert : ∀ l x, convert l = .ok x → P x)
    (errors : List FieldError) : P ((field given name convert fallback).run errors).1 := by
  rw [field]
  cases given name with
  | none => exact hfallback
  | some l =>
    cases h : convert l with
    | ok x =>
      simp only [h]
      exact hconvert l x h
    | error e =>
      simp only [h]
      exact hfallback

lemma field_holds (hfallback : ∀ b ∈ bounds, b.holds (toQuantity fallback) = true)
    {read : Literal → Except ValueError τ} (errors : List FieldError) :
    ∀ b ∈ bounds, b.holds (toQuantity ((field given name
      (fun l => read l >>= bounded toQuantity bounds) fallback).run errors).1) = true := by
  refine field_mem (P := fun x => ∀ b ∈ bounds, b.holds (toQuantity x) = true) hfallback ?_ errors
  intro l x hx
  obtain ⟨y, -, hy⟩ := bind_eq_ok_iff.mp hx
  exact holds_of_bounded hy

/-- All settings are within their bounds. -/
structure WithinBounds (s : Settings) : Prop where
  damping : ∀ b ∈ [Bound.atLeast 0], b.holds (.real s.damping) = true
  jacobianScale : ∀ b ∈ [Bound.above 0], b.holds (.real s.jacobianScale) = true
  start : ∀ b ∈ [Bound.above 0], b.holds (.real s.start) = true
  shrink : ∀ b ∈ [Bound.below 1, .above 0], b.holds (.real s.shrink) = true
  floor : ∀ b ∈ [Bound.above 0], b.holds (.real s.floor) = true
  depth : ∀ b ∈ [Bound.atLeast 0], b.holds (.whole s.depth) = true
  population : ∀ b ∈ [Bound.above 0], b.holds (.real s.population) = true
  target : ∀ b ∈ [Bound.above 0], b.holds (.real s.target) = true
  minAllocation : ∀ b ∈ [Bound.atLeast 0], b.holds (.real s.minAllocation) = true
  stepsPerTick : ∀ b ∈ [Bound.atLeast 1], b.holds (.whole s.stepsPerTick) = true

lemma withinBounds_fields (errors : List FieldError) :
    WithinBounds ((fields given).run errors).1 where
  damping := field_holds (by decide +kernel) _
  jacobianScale := field_holds (by decide +kernel) _
  start := field_holds (by decide +kernel) _
  shrink := field_holds (by decide +kernel) _
  floor := field_holds (by decide +kernel) _
  depth := field_holds (by decide +kernel) _
  population := field_holds (by decide +kernel) _
  target := field_holds (by decide +kernel) _
  minAllocation := field_holds (by decide +kernel) _
  stepsPerTick := field_holds (by decide +kernel) _

variable {s : Settings} {explicit : List (String × Literal)} {env : Environment}

/-- Settings that load are within their bounds, and the floor is below the start. -/
lemma withinBounds_of_load (h : load explicit env = .ok s) :
    s.WithinBounds ∧ ¬ s.start ≤ s.floor := by
  have hbounds : WithinBounds ((fields (given? explicit env)).run []).1 := withinBounds_fields []
  rw [load] at h
  generalize (fields (given? explicit env)).run [] = result at h hbounds
  obtain ⟨loaded, errors⟩ := result
  dsimp only at h hbounds
  split_ifs at h with herrors hfloor
  cases h
  exact ⟨hbounds, hfloor⟩

namespace WithinBounds

variable (h : s.WithinBounds)
include h

lemma start_pos : (0 : Quantity) < .real s.start :=
  of_decide_eq_true (h.start _ (List.mem_singleton_self _))

lemma shrink_lt_one : (.real s.shrink : Quantity) < 1 :=
  of_decide_eq_true (h.shrink (.below 1) (by decide))

lemma shrink_pos : (0 : Quantity) < .real s.shrink :=
  of_decide_eq_true (h.shrink (.above 0) (by decide))

lemma floor_pos : (0 : Quantity) < .real s.floor :=
  of_decide_eq_true (h.floor _ (List.mem_singleton_self _))

/-- Two positive numbers compare, so the floor is below the start if the start is not at or below
it. -/
lemma floor_lt_start (hfloor : ¬ s.start ≤ s.floor) :
    (.real s.floor : Quantity) < .real s.start := by
  obtain ⟨hf, -⟩ := Quantity.pos_of_lt_real h.floor_pos
  obtain ⟨hs, -⟩ := Quantity.pos_of_lt_real h.start_pos
  rw [hs.le_iff hf, not_le] at hfloor
  exact (Quantity.lt_real _ _).mpr ((hf.lt_iff hs).mpr hfloor)

lemma one_le_stepsPerTick : 1 ≤ s.stepsPerTick :=
  (Quantity.le_whole _ _).mp
    (of_decide_eq_true (h.stepsPerTick _ (List.mem_singleton_self _)))

end WithinBounds

end Settings

end Workforce
