import Mathlib
import Workforce.Descent.Problem

/-!
# Computations that may fail

A chain of computations succeeds when each of them does.
-/

namespace Workforce

variable {ε ε' β γ : Type}

@[simp] lemma ok_bind (b : β) (f : β → Except ε γ) : (Except.ok b >>= f) = f b := rfl

@[simp] lemma error_bind (e : ε) (f : β → Except ε γ) : (Except.error e >>= f) = .error e := rfl

@[simp] lemma pure_eq_ok (b : β) : (pure b : Except ε β) = .ok b := rfl

/-- Whether a computation succeeds with a given result is decided by its result alone. -/
instance decidableEqOk [DecidableEq β] (x : Except ε β) (b : β) : Decidable (x = .ok b) :=
  match x with
  | .ok c => decidable_of_iff (c = b) (by simp)
  | .error _ => isFalse (by simp)

lemma bind_eq_ok_iff {x : Except ε β} {f : β → Except ε γ} {c : γ} :
    x >>= f = .ok c ↔ ∃ b, x = .ok b ∧ f b = .ok c := by
  cases x <;> simp

lemma bind_eq_error_iff {x : Except ε β} {f : β → Except ε γ} {e : ε} :
    x >>= f = .error e ↔ x = .error e ∨ ∃ b, x = .ok b ∧ f b = .error e := by
  cases x <;> simp

lemma map_eq_ok_iff {x : Except ε β} {f : β → γ} {c : γ} :
    x.map f = .ok c ↔ ∃ b, x = .ok b ∧ f b = c := by
  cases x <;> simp [Except.map]

lemma resultMap_eq_ok_iff {σ : Type} {x : EStateM.Result ε σ β} {f : β → γ} {c : γ} {s : σ} :
    x.map f = .ok c s ↔ ∃ b, x = .ok b s ∧ f b = c := by
  cases x <;> simp [EStateM.Result.map, and_comm]

lemma mapM_eq_ok {f : β → Except ε γ} {g : β → γ} (h : ∀ b, f b = .ok (g b)) (bs : List β) :
    bs.mapM f = .ok (bs.map g) := by
  obtain rfl : f = fun b => pure (g b) := funext h
  exact List.mapM_pure

lemma mapM_eq_ok_iff {f : β → Except ε γ} {bs : List β} {cs : List γ} :
    bs.mapM f = .ok cs ↔ List.Forall₂ (fun b c => f b = .ok c) bs cs := by
  induction bs generalizing cs with
  | nil => simp [eq_comm]
  | cons b bs ih =>
    rw [List.mapM_cons]
    constructor
    · intro h
      obtain ⟨c, hc, h⟩ := bind_eq_ok_iff.mp h
      obtain ⟨cs, hcs, h⟩ := bind_eq_ok_iff.mp h
      cases h
      exact .cons hc (ih.mp hcs)
    · intro h
      cases h with
      | cons hc hcs => rw [hc, ok_bind, ih.mpr hcs, ok_bind, pure_eq_ok]

/-- A traversal fails as the first element does for which it fails. -/
lemma mapM_eq_error_iff {f : β → Except ε γ} {bs : List β} {e : ε} : bs.mapM f = .error e ↔
    ∃ before b after, bs = before ++ b :: after ∧ (∀ a ∈ before, ∃ c, f a = .ok c) ∧
      f b = .error e := by
  induction bs with
  | nil => exact iff_of_false nofun (by simp)
  | cons b bs ih =>
    rw [List.mapM_cons, bind_eq_error_iff]
    constructor
    · rintro (hb | ⟨c, hc, h⟩)
      · exact ⟨[], b, bs, rfl, by simp, hb⟩
      · rcases bind_eq_error_iff.mp h with hbs | ⟨_, -, h⟩
        · obtain ⟨before, b', after, rfl, hbefore, hb'⟩ := ih.mp hbs
          exact ⟨b :: before, b', after, rfl, List.forall_mem_cons.mpr ⟨⟨c, hc⟩, hbefore⟩, hb'⟩
        · cases h
    · rintro ⟨before, b', after, hbs, hbefore, hb'⟩
      cases before with
      | nil =>
        cases hbs
        exact .inl hb'
      | cons a before =>
        cases hbs
        obtain ⟨⟨c, hc⟩, hbefore⟩ := List.forall_mem_cons.mp hbefore
        refine .inr ⟨c, hc, bind_eq_error_iff.mpr (.inl ?_)⟩
        exact ih.mpr ⟨before, b', after, rfl, hbefore, hb'⟩

lemma exists_mem_of_mapM_eq_error {f : β → Except ε γ} {bs : List β} {e : ε}
    (h : bs.mapM f = .error e) : ∃ b ∈ bs, f b = .error e := by
  obtain ⟨before, b, after, rfl, -, hb⟩ := mapM_eq_error_iff.mp h
  exact ⟨b, by simp, hb⟩

/-- The matrix of an action that never fails. -/
lemma Mat.ofFnM_eq_ok {m n : ℕ} {f : Fin m → Fin n → Except ε γ} {g : Fin m → Fin n → γ}
    (h : ∀ i j, f i j = .ok (g i j)) : Mat.ofFnM f = .ok (Mat.ofFn g) := by
  obtain rfl : f = fun i j => pure (g i j) := funext₂ h
  simp only [ofFnM, Vector.ofFnM_pure, map_pure]
  rfl

lemma get_push_last {n : ℕ} (v : Vector β n) (b : β) : (v.push b).get (Fin.last n) = b :=
  Vector.getElem_push_eq

lemma get_push_castSucc {n : ℕ} (v : Vector β n) (b : β) (i : Fin n) :
    (v.push b).get i.castSucc = v.get i := Vector.getElem_push_lt i.isLt

lemma eq_ok_of_vectorOfFnM {n : ℕ} {f : Fin n → Except ε γ} {v : Vector γ n}
    (h : Vector.ofFnM f = .ok v) (i : Fin n) : f i = .ok (v.get i) := by
  induction n with
  | zero => exact i.elim0
  | succ n ih =>
    rw [Vector.ofFnM_succ, bind_eq_ok_iff] at h
    obtain ⟨w, hw, h⟩ := h
    obtain ⟨c, hc, h⟩ := bind_eq_ok_iff.mp h
    obtain rfl : w.push c = v := Except.ok.inj h
    induction i using Fin.lastCases with
    | last => rw [hc, get_push_last]
    | cast i => rw [ih hw i, get_push_castSucc]

/-- The entries of a matrix are the answers of the action that made it. -/
lemma Mat.eq_ok_of_ofFnM {m n : ℕ} {f : Fin m → Fin n → Except ε γ} {A : Mat γ m n}
    (h : Mat.ofFnM f = .ok A) (i : Fin m) (j : Fin n) : f i j = .ok (A.get i j) := by
  obtain ⟨rows, hrows, rfl⟩ := map_eq_ok_iff.mp h
  exact eq_ok_of_vectorOfFnM (eq_ok_of_vectorOfFnM hrows i) j

@[simp] lemma mapError_eq_ok_iff {x : Except ε β} {f : ε → ε'} {b : β} :
    x.mapError f = .ok b ↔ x = .ok b := by
  cases x <;> simp [Except.mapError]

@[simp] lemma checked_eq_ok_iff {x : Except ShapeError β} {b : β} : checked x = .ok b ↔ x = .ok b :=
  mapError_eq_ok_iff

end Workforce
