import Mathlib
import Workforce.Market.Table

/-!
# Laws of tables

A table is known by its keys and by the values that they have. Giving a value to a key that is
there keeps the keys, and changes the value of that key only; a pass over distinct keys changes
each of them once.
-/

namespace Workforce.Table

variable {κ τ ι : Type} {t : Table κ τ} {k : κ}

/-- A pass that keeps the keys it meets keeps all keys. -/
lemma keys_foldl {step : Table κ τ → ι → Table κ τ} {f : ι → κ}
    (hstep : ∀ t i, f i ∈ keys t → (step t i).keys = keys t) {is : List ι}
    (h : ∀ i ∈ is, f i ∈ t.keys) : (is.foldl step t).keys = t.keys := by
  induction is generalizing t with
  | nil => rfl
  | cons i is ih =>
    have hkeys := hstep t i (h i List.mem_cons_self)
    rw [List.foldl_cons, ih fun j hj => hkeys ▸ h j (List.mem_cons_of_mem i hj), hkeys]

variable [DecidableEq κ]

@[simp] lemma value?_nil (k : κ) : value? ([] : Table κ τ) k = none := rfl

lemma value?_cons (p : κ × τ) (t : Table κ τ) (k : κ) :
    value? (p :: t) k = if p.1 = k then some p.2 else value? t k := by
  by_cases h : p.1 = k <;> simp [value?, h]

lemma value?_put (t : Table κ τ) (k k' : κ) (v : τ) :
    (put t k v).value? k' = if k' = k then some v else t.value? k' := by
  split_ifs with h
  · rw [h, value?_put_self]
  · exact value?_put_of_ne t v (Ne.symm h)

lemma isSome_value?_iff : (t.value? k).isSome ↔ k ∈ t.keys := by
  induction t with
  | nil => simp [keys]
  | cons p t ih =>
    rw [value?_cons, keys, List.map_cons, List.mem_cons, ← keys, ← ih]
    split_ifs with h
    · simp [h]
    · simp [Ne.symm h]

/-- A key that is there keeps its place. -/
lemma keys_put (h : k ∈ t.keys) (v : τ) : (put t k v).keys = t.keys := by
  induction t with
  | nil => exact absurd h List.not_mem_nil
  | cons p t ih =>
    by_cases hp : p.1 = k
    · simp [put, keys, hp]
    · have hk : k ∈ keys t := by
        simpa [keys, Ne.symm hp] using h
      simpa [put, keys, hp] using ih hk

/-- The values of distinct keys, one by one. -/
lemma values_eq_map (h : t.keys.Nodup) (d : τ) : t.values = t.keys.map fun k => t.valueD k d := by
  induction t with
  | nil => rfl
  | cons p t ih =>
    rw [keys, List.map_cons, List.nodup_cons] at h
    rw [values, keys, List.map_cons, List.map_cons, List.map_cons, ← values, ← keys, ih h.2]
    congr 1
    · simp [valueD, value?_cons]
    · refine List.map_congr_left fun k hk => ?_
      have hne : p.1 ≠ k := fun hp => h.1 (hp ▸ hk)
      simp [valueD, value?_cons, hne]

lemma value?_tabulate {ks : List κ} (h : k ∈ ks) (f : κ → τ) :
    (tabulate ks f).value? k = some (f k) := by
  induction ks with
  | nil => exact absurd h List.not_mem_nil
  | cons k' ks ih =>
    rw [tabulate, List.map_cons, ← tabulate, value?_cons]
    split_ifs with hk
    · rw [← hk]
    · exact ih (List.mem_of_ne_of_mem (Ne.symm hk) h)

lemma valueD_tabulate {ks : List κ} (h : k ∈ ks) (f : κ → τ) (d : τ) :
    (tabulate ks f).valueD k d = f k := by
  rw [valueD, value?_tabulate h, Option.getD_some]

/-- A pass that changes the value of one key at a time changes each of them once. -/
lemma value?_foldl [DecidableEq ι] {step : Table κ τ → ι → Table κ τ} {f : ι → κ}
    {u : ι → Option τ → Option τ} (hf : f.Injective)
    (hstep : ∀ t i k, (step t i).value? k = if k = f i then u i (t.value? k) else t.value? k)
    {is : List ι} (his : is.Nodup) (t : Table κ τ) (i : ι) :
    (is.foldl step t).value? (f i) = if i ∈ is then u i (t.value? (f i)) else t.value? (f i) := by
  induction is generalizing t with
  | nil => rfl
  | cons j is ih =>
    rw [List.nodup_cons] at his
    rw [List.foldl_cons, ih his.2, hstep]
    by_cases hij : i = j
    · subst hij
      simp [his.1]
    · simp [hij, hf.ne hij]

end Workforce.Table
