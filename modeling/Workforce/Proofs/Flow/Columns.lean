import Workforce.Proofs.Flow.Trace
import Workforce.Proofs.Number.RoundedArithmetic

/-!
# Columns without positive entries

A row is split by its positive entries, but it gives to every column in which its entry does not
compare as at most zero. The two tests disagree on undefined entries only. So a column without
positive entries receives nothing where all entries compare, but it does receive from a row that has
an undefined entry in it and a positive one elsewhere.
-/

namespace Workforce.Flow

variable {m n : ℕ}

/-! ### Splitting a row -/

/-- A row is split if it has a positive entry: rounding makes no sum of positive numbers zero. -/
lemma not_positiveSum_le_zero_iff {as : List Float32} :
    ¬ positiveSum as ≤ 0 ↔ ∃ a ∈ as, 0 < a := by
  have hmem : ∀ a, a ∈ as.filter (0 < ·) ↔ a ∈ as ∧ 0 < a := by simp
  have hpositive : ∀ a ∈ as.filter (0 < ·), 0 ≤ a := fun a ha =>
    Single.le_of_lt ((hmem a).mp ha).2
  obtain ⟨hsum, hzero⟩ := Single.beq_zero_iff_of_addsUp (addsUp_positiveSum as) hpositive
  rw [Single.le_zero_iff hsum, hzero]
  constructor
  · intro h
    by_contra hnone
    exact h fun a ha => absurd ⟨a, (hmem a).mp ha⟩ hnone
  · rintro ⟨a, ha, hpos⟩ hall
    have ha' := (hmem a).mpr ⟨ha, hpos⟩
    obtain ⟨-, hnot⟩ := Single.pos_iff_not_le_zero.mp hpos
    exact hnot ((Single.le_zero_iff (hpositive a ha')).mpr (hall a ha'))

variable {A : Mat Float32 m n} {r : Fin m} {c : Fin n}

lemma not_total_le_zero_iff : ¬ positiveSum (A.row r) ≤ 0 ↔ ∃ d, 0 < A.get r d := by
  simp [not_positiveSum_le_zero_iff, Mat.row_eq_map]

lemma not_entry_le_zero_iff (h : ¬ 0 < A.get r c) :
    ¬ A.get r c ≤ 0 ↔ isProper (A.get r c) = false := by
  rw [Single.pos_iff_not_le_zero, not_and_not_right] at h
  constructor
  · exact fun hentry => Bool.eq_false_iff.mpr fun hproper => hentry (h hproper)
  · intro hproper hle
    rw [(Single.isProper_of_le hle).1] at hproper
    cases hproper

/-! ### Columns -/

variable {levels : ℕ}

/-- What adds to a column without positive entries. -/
lemma isUndefined_of_mem_additionsTo {a : Addition Float32 m n} (hc : ∀ r, ¬ 0 < A.get r c)
    (ha : a ∈ additionsTo A levels c r) :
    isProper (A.get a.row c) = false ∧ ∃ d, 0 < A.get a.row d := by
  obtain ⟨hmem, hcolumn⟩ := List.mem_filter.mp ha
  obtain ⟨htotal, hentry, -⟩ := isMadeIn_of_mem_trace hmem
  rw [of_decide_eq_true hcolumn] at hentry
  exact ⟨(not_entry_le_zero_iff (hc a.row)).mp hentry, not_total_le_zero_iff.mp htotal⟩

/-- The unit that enters a row reaches all columns that the row gives to. -/
lemma additionsTo_ne_nil (htotal : ¬ positiveSum (A.row r) ≤ 0) (hentry : ¬ A.get r c ≤ 0) :
    additionsTo A levels c r ≠ [] := by
  have hfirst : ⟨0, r, c, 1, 1 / positiveSum (A.row r)⟩ ∈ trace A 0 0 r 1 := by
    rw [trace, mem_enter_iff]
    exact ⟨htotal, c, hentry, .inl rfl⟩
  rw [← filter_trace (Nat.zero_le levels)] at hfirst
  refine List.ne_nil_of_mem (List.mem_filter.mpr ⟨List.mem_of_mem_filter hfirst, ?_⟩)
  exact decide_eq_true rfl

/-- A column without positive entries receives nothing exactly if every row that is undefined in it
has no positive entries at all. -/
theorem nothing_received_iff (A : Mat Float32 m n) (c : Fin n) (hc : ∀ r, ¬ 0 < A.get r c)
    (levels : ℕ) :
    ((∀ r, additionsTo A levels c r = []) ↔
      ∀ r, isProper (A.get r c) = false → ∀ d, ¬ 0 < A.get r d) ∧
    ((∀ r, isProper (A.get r c) = false → ∀ d, ¬ 0 < A.get r d) →
      ∀ r, (A.flowInverse levels).get c r = 0) := by
  have hnothing : (∀ r, additionsTo A levels c r = []) ↔
      ∀ r, isProper (A.get r c) = false → ∀ d, ¬ 0 < A.get r d := by
    constructor
    · intro hnone r hundefined d hpos
      exact additionsTo_ne_nil (not_total_le_zero_iff.mpr ⟨d, hpos⟩)
        ((not_entry_le_zero_iff (hc r)).mpr hundefined) (hnone r)
    · intro hrows r
      refine List.eq_nil_iff_forall_not_mem.mpr fun a ha => ?_
      obtain ⟨hundefined, d, hd⟩ := isUndefined_of_mem_additionsTo hc ha
      exact hrows a.row hundefined d hd
  refine ⟨hnothing, fun hrows r => ?_⟩
  rw [get_flowInverse_eq_foldl, hnothing.mpr hrows r, List.foldl_nil]

/-- The second column has no positive entry, and neither has the row that is undefined in it. -/
theorem nothing_received_beside_loss :
    ((⟨#v[#v[2, -1], #v[-1, 0 / 0]]⟩ : Mat Float32 2 2).flowInverse 3).get 1 0 = 0 ∧
      ((⟨#v[#v[2, -1], #v[-1, 0 / 0]]⟩ : Mat Float32 2 2).flowInverse 3).get 1 1 = 0 := by
  obtain ⟨-, hzero⟩ :=
    nothing_received_iff ⟨#v[#v[2, -1], #v[-1, 0 / 0]]⟩ 1 (by decide +kernel) 3
  exact ⟨hzero (by decide +kernel) 0, hzero (by decide +kernel) 1⟩

/-- A row with an undefined entry and a positive one passes a whole unit to the undefined one. -/
theorem undefined_entry_receives :
    ¬ ∀ (m n : ℕ) (A : Mat Float32 m n) (c : Fin n), (∀ r, ¬ 0 < A.get r c) →
      ∀ levels r, (A.flowInverse levels).get c r = 0 := by
  intro h
  have hzero := h 1 2 ⟨#v[#v[0 / 0, 1]]⟩ 0 (by decide +kernel) 0 0
  have hone : ((⟨#v[#v[0 / 0, 1]]⟩ : Mat Float32 1 2).flowInverse 0).get 0 0 = 1 := by
    decide +kernel
  exact absurd (hone.symm.trans hzero) (by decide +kernel)

end Workforce.Flow
