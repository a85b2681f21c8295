/-!
# Tables

A table assigns values to some keys and remembers the order in which the keys were added. A new
value for an old key keeps the key in its place.
-/

namespace Workforce

/-- Values of some keys, in the order in which the keys were added. -/
abbrev Table (κ τ : Type) : Type := List (κ × τ)

namespace Table

variable {κ τ : Type} [DecidableEq κ]

/-- The value of a key. -/
def value? (t : Table κ τ) (k : κ) : Option τ := (t.find? fun p => p.1 = k).map Prod.snd

/-- The value of a key, or a default. -/
def valueD (t : Table κ τ) (k : κ) (d : τ) : τ := (t.value? k).getD d

/-- Give a key a value. -/
def put (t : Table κ τ) (k : κ) (v : τ) : Table κ τ :=
  match t with
  | [] => [(k, v)]
  | (k', v') :: t => if k' = k then (k, v) :: t else (k', v') :: put t k v

/-- The table that assignments in a row lead to. -/
def ofList (ps : List (κ × τ)) : Table κ τ := ps.foldl (fun t p => put t p.1 p.2) []

/-- The table of a function on some keys. -/
def tabulate (ks : List κ) (f : κ → τ) : Table κ τ := ks.map fun k => (k, f k)

/-- The keys, in order. -/
def keys (t : Table κ τ) : List κ := t.map Prod.fst

/-- The values, in order. -/
def values (t : Table κ τ) : List τ := t.map Prod.snd

theorem value?_put_self (t : Table κ τ) (k : κ) (v : τ) : (put t k v).value? k = some v := by
  induction t with
  | nil => simp [put, value?]
  | cons p t ih =>
    by_cases h : p.1 = k
    · simp [put, value?, h]
    · simp only [put, h, if_false, value?, List.find?_cons, decide_false] at ih ⊢
      exact ih

theorem value?_put_of_ne (t : Table κ τ) {k k' : κ} (v : τ) (h : k ≠ k') :
    (put t k v).value? k' = t.value? k' := by
  induction t with
  | nil => simp [put, value?, h]
  | cons p t ih =>
    by_cases hp : p.1 = k
    · subst hp
      simp [put, value?, h]
    · by_cases hq : p.1 = k'
      · subst hq
        simp [put, value?, hp]
      · simp only [put, hp, if_false, value?, List.find?_cons, hq, decide_false] at ih ⊢
        exact ih

end Table

end Workforce
