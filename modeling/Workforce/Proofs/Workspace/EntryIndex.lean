import Workforce.Proofs.Workspace.Answers

/-!
# Indices of entries

A pair of integers selects one entry of a matrix, and a single integer one entry of a vector.
Integers that are negative count from the end. A number that is assigned to the entry is rounded.
-/

namespace Workforce

/-- An integer names a line of `size`: from the first, or from the end when it is negative. -/
structure LineNamed (size : ℕ) (i : ℤ) (k : ℕ) : Prop where
  isPlace : Quantity.isPlace i
  lt : k < size
  eq : i = k ∨ i = k - size

/-- Integers as an index: a pair of them, or for a vector the first alone. -/
inductive Indexes : Kind → Literal → ℤ → ℤ → Prop where
  | pair (kind : Kind) (i j : ℤ) : Indexes kind (.list [.whole i, .whole j]) i j
  | single (i : ℤ) : Indexes .vector (.whole i) i 0

variable {i j : ℤ} {k r c : ℕ} {s : Shape} {kind : Kind} {index : Literal}

lemma resolve_eq_ok_iff {axis size : ℕ} :
    resolve axis size i = .ok k ↔ k < size ∧ (i = k ∨ i = k - size) := by
  rw [resolve]
  split_ifs with hneg hin hin
  · rw [Except.ok.injEq]
    omega
  · rw [false_iff]
    omega
  · rw [Except.ok.injEq]
    omega
  · rw [false_iff]
    omega

lemma Selector.ofLiteral_whole_eq_ok_iff {x : Selector} :
    ofLiteral (.whole i) = .ok x ↔ Quantity.isPlace i ∧ x = .line i := by
  rw [Literal.whole, ofLiteral]
  split_ifs with hplace hunsigned
  · simp [hplace, eq_comm]
  · simp [hplace]
  · simp [hplace]

lemma Selection.ofSelectors_line (s : Shape) (i j : ℤ) :
    ofSelectors s (.line i) (.line j) =
      resolve 0 s.rows i >>= fun r => resolve 1 s.cols j >>= fun c => .ok (.one r c) := rfl

lemma Selection.ofPair_whole_eq_ok_iff {x : Selection} :
    ofPair s (.whole i) (.whole j) = .ok x ↔
      ∃ r c, LineNamed s.rows i r ∧ LineNamed s.cols j c ∧ x = .one r c := by
  rw [ofPair]
  constructor
  · intro h
    obtain ⟨_, hrow, h⟩ := bind_eq_ok_iff.mp h
    obtain ⟨_, hcol, h⟩ := bind_eq_ok_iff.mp h
    obtain ⟨hi, rfl⟩ := Selector.ofLiteral_whole_eq_ok_iff.mp hrow
    obtain ⟨hj, rfl⟩ := Selector.ofLiteral_whole_eq_ok_iff.mp hcol
    rw [ofSelectors_line] at h
    obtain ⟨r, hr, h⟩ := bind_eq_ok_iff.mp h
    obtain ⟨c, hc, h⟩ := bind_eq_ok_iff.mp h
    obtain ⟨hr, hir⟩ := resolve_eq_ok_iff.mp hr
    obtain ⟨hc, hjc⟩ := resolve_eq_ok_iff.mp hc
    exact ⟨r, c, ⟨hi, hr, hir⟩, ⟨hj, hc, hjc⟩, (Except.ok.inj h).symm⟩
  · rintro ⟨r, c, hr, hc, rfl⟩
    rw [Selector.ofLiteral_whole_eq_ok_iff.mpr ⟨hr.isPlace, rfl⟩, ok_bind,
      Selector.ofLiteral_whole_eq_ok_iff.mpr ⟨hc.isPlace, rfl⟩, ok_bind, ofSelectors_line,
      resolve_eq_ok_iff.mpr ⟨hr.lt, hr.eq⟩, ok_bind, resolve_eq_ok_iff.mpr ⟨hc.lt, hc.eq⟩, ok_bind]

namespace Workspace

variable {A : Grid Float32} {value : Literal}

lemma select_eq_ofPair (h : Indexes kind index i j) (A : Grid Float32) :
    select kind A index = Selection.ofPair A.shape (.whole i) (.whole j) := by
  cases h with
  | pair => cases kind <;> rfl
  | single => rfl

/-- An assignment to one entry changes that one, to a number that is rounded. -/
lemma changes_eq_ok_iff (h : Indexes kind index i j) {changed : List Change} :
    changes kind A index value = .ok changed ↔ ∃ r c x, LineNamed A.rows i r ∧
      LineNamed A.cols j c ∧ value.toElement = .ok x ∧ changed = [((r, c), narrow x)] := by
  rw [changes, select_eq_ofPair h]
  constructor
  · intro hchanged
    obtain ⟨selection, hselect, hchanged⟩ := bind_eq_ok_iff.mp hchanged
    obtain ⟨r, c, hr, hc, rfl⟩ :=
      Selection.ofPair_whole_eq_ok_iff.mp (mapError_eq_ok_iff.mp hselect)
    obtain ⟨x, hx, hchanged⟩ := bind_eq_ok_iff.mp hchanged
    exact ⟨r, c, x, hr, hc, mapError_eq_ok_iff.mp hx, (Except.ok.inj hchanged).symm⟩
  · rintro ⟨r, c, x, hr, hc, hx, rfl⟩
    rw [Selection.ofPair_whole_eq_ok_iff.mpr ⟨r, c, hr, hc, rfl⟩]
    refine bind_eq_ok_iff.mpr ⟨.one r c, rfl, ?_⟩
    rw [Selection.assign, hx]
    rfl

end Workspace

end Workforce
