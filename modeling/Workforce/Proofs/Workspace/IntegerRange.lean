import Workforce.Proofs.Workspace.Comparison
import Workforce.Proofs.Workspace.ShapeTyping

/-!
# Comparing with integers out of range

A matrix is compared with any literal. What cannot be converted is unequal to it, with one
exception: an integer that is out of the range of binary64 is an error, if lists form an array and
the integer is the first atom that does not convert.
-/

namespace Workforce

open Literal (Converts)

/-- Among lists that form an array, an integer out of range is the first atom that does not
convert. -/
structure Literal.Overflows (l : Literal) : Prop where
  isArray : ∃ lengths, l.shape? = some lengths ∧ lengths.length ≤ Literal.maxDimensions
  exists_first : ∃ before n after, l.atoms = before ++ .whole n :: after ∧
    (∀ a ∈ before, ∃ x, a.Converts x) ∧ (Quantity.whole n).fits = false

namespace Grid

variable {l : Literal} {uneven : ShapeError} {A : Grid Float32} {kind : Kind}

lemma readAtom_eq_tooLarge_iff : readAtom uneven l = .error (.element .tooLarge) ↔
    ∃ n : ℤ, l = .whole n ∧ (Quantity.whole n).fits = false := by
  constructor
  · intro h
    rw [readAtom] at h
    split at h
    case h_4 e _ _ helement =>
      cases h
      exact Literal.exists_of_toElement_eq_tooLarge helement
    all_goals cases h
  · rintro ⟨n, rfl, hn⟩
    have helement : (Literal.whole n).toElement = .error .tooLarge := by
      rw [Literal.whole, Literal.toElement, Quantity.toFloat?, hn]
      rfl
    rw [readAtom, helement]

/-- The lengths of an array are checked before its atoms are converted, in order. -/
lemma readArray_eq_tooLarge_iff : readArray uneven l = .error (.element .tooLarge) ↔
    l.Overflows := by
  rw [readArray_eq_bind, bind_eq_error_iff]
  constructor
  · rintro (hlengths | ⟨lengths, hlengths, h⟩)
    · cases hl : l.lengths Literal.maxDimensions <;> rw [hl] at hlengths <;> cases hlengths
    · rcases bind_eq_error_iff.mp h with hatoms | ⟨_, -, h⟩
      · obtain ⟨before, atom, after, hl, hbefore, hatom⟩ := mapM_eq_error_iff.mp hatoms
        obtain ⟨n, rfl, hn⟩ := readAtom_eq_tooLarge_iff.mp hatom
        simp only [readAtom_eq_ok_iff] at hbefore
        exact ⟨⟨lengths, Literal.lengths_eq_ok_iff.mp (mapError_eq_ok_iff.mp hlengths)⟩,
          before, n, after, hl, hbefore, hn⟩
      · cases h
  · rintro ⟨⟨lengths, hlengths⟩, before, n, after, hl, hbefore, hn⟩
    refine .inr ⟨lengths, mapError_eq_ok_iff.mpr (Literal.lengths_eq_ok_iff.mpr hlengths), ?_⟩
    refine bind_eq_error_iff.mpr (.inl ?_)
    refine mapM_eq_error_iff.mpr ⟨before, .whole n, after, hl, ?_, ?_⟩
    · simpa only [readAtom_eq_ok_iff] using hbefore
    · exact readAtom_eq_tooLarge_iff.mpr ⟨n, rfl, hn⟩

lemma equalsLiteral_of_overflows (column : Bool) (h : l.Overflows) :
    A.equalsLiteral column l = .error .tooLarge := by
  rw [equalsLiteral, readArray_eq_tooLarge_iff.mpr h]

end Grid

/-- All atoms of what a literal writes convert. -/
lemma Literal.Writes.converts {l : Literal} {kind : Kind} {A : Grid Float32} (h : l.Writes kind A) :
    ∀ a ∈ l.atoms, ∃ x, a.Converts x := by
  have hread : ∃ lengths entries, Grid.readArray .unevenRows l = .ok (lengths, entries) := by
    cases kind with
    | matrix => exact ⟨_, _, h.readArray_rows _⟩
    | vector => exact (h.readArray_column .unevenRows).elim (⟨_, _, ·⟩) (⟨_, _, ·⟩)
  obtain ⟨lengths, entries, hread⟩ := hread
  exact exists_forall₂_iff.mp ⟨_, (Grid.readArray_eq_ok_iff.mp hread).2.2⟩

namespace Workspace

variable {w : Workspace} {s : String} {id : ℕ} {kind : Kind} {A : Grid Float32} {l : Literal}

/-- A comparison that is an error leaves nothing behind. -/
lemma run_equal_literal_of_overflows (hs : w.lookup s = some (.object id))
    (hA : w.grid? id = some (kind, A)) (h : l.Overflows) (negated : Bool)
    (target : Option String) :
    w.run ⟨.equal negated (.name s) (.literal l), target⟩ =
      (.error (.conversion .tooLarge), w) := by
  refine run_of_error ?_
  rw [eval, run_bind_of_ok (operand_name_of_grid hs hA),
    run_bind_of_ok (run_operand_literal w l), evalEqual,
    contentsEqual_grid id (contentOf_store_ne_grid w l), literal_contentOf_store,
    Grid.equalsLiteral_of_overflows _ h]
  rfl

/-- Comparing with a literal answers with a truth value, which says whether the literal builds a
matrix or vector of the same numbers, and so not if one of its atoms does not convert. Only an
integer out of range that is met first is an error, for equality and inequality alike. -/
theorem equal_literal_ends (hs : w.lookup s = some (.object id))
    (hA : w.grid? id = some (kind, A)) (hfits : A.Fits kind) (l : Literal) :
    (l.Overflows ∧ ∀ negated target, w.run ⟨.equal negated (.name s) (.literal l), target⟩ =
      (.error (.conversion .tooLarge), w)) ∨
    ¬ l.Overflows ∧ ∃ b,
      (b = true ↔ ∃ B, evalBuild kind l none = .ok (.answer (.grid kind B)) ∧
        B.shape = A.shape ∧ List.Forall₂ Single.SameNumber A.entries B.entries) ∧
      ((∃ a ∈ l.atoms, ∀ x, ¬ a.Converts x) → b = false) ∧
      ∀ negated target, (w.run ⟨.equal negated (.name s) (.literal l), target⟩).1 =
        .ok (.atom (.number (.flag (b != negated)))) := by
  by_cases h : l.Overflows
  · exact .inl ⟨h, run_equal_literal_of_overflows hs hA h⟩
  · refine .inr ⟨h, ?_⟩
    -- no integer out of range is met, so the comparison comes to an answer
    have hread : Grid.readArray .unevenRows l ≠ .error (.element .tooLarge) :=
      fun hread => h (Grid.readArray_eq_tooLarge_iff.mp hread)
    obtain ⟨b, hb, hiff⟩ := Grid.equalsLiteral_eq_ok_of_ne hfits hread
    refine ⟨b, ?_, ?_, fun negated target => run_equal_literal hs hA hb⟩
    · simp only [hiff, evalBuild_grid_iff, Grid.beq_iff, eq_comm (a := A.shape)]
    · rintro ⟨a, ha, hnone⟩
      rw [Bool.eq_false_iff, ne_eq, hiff]
      rintro ⟨B, hB, -⟩
      obtain ⟨x, hx⟩ := hB.converts a ha
      exact hnone x hx

/-- A matrix of one entry. -/
def oneEntry : List Statement := [⟨.build .matrix (.list [.list [.real 1]]) none, some "m"⟩]

/-- An integer that is out of range. -/
def outOfRange : ℤ := 10 ^ 400

lemma fits_outOfRange : (Quantity.whole outOfRange).fits = false := by decide +kernel

/-- The integer is an error behind an atom that converts, and not behind a table. -/
theorem equal_literal_ends_oneEntry :
    let w := empty.runAll oneEntry
    (w.run ⟨.equal true (.name "m") (.literal (.list [.null, .whole outOfRange])), none⟩).1 =
        .error (.conversion .tooLarge) ∧
      (w.run ⟨.equal true (.name "m") (.literal (.list [.table [], .whole outOfRange])), none⟩).1 =
        .ok (.atom (.number (.flag true))) := by
  intro w
  have hm : w.lookup "m" = some (.object 0) := rfl
  have hA : w.grid? 0 = some (.matrix, Grid.ofEntries 1 1 #[narrow 1]) := rfl
  -- the first atom converts, so the integer after it is met
  have hnull : (Literal.list [.null, .whole outOfRange]).Overflows :=
    ⟨⟨[2], rfl, by decide⟩, [.null], outOfRange, [], rfl, by simpa using ⟨_, Converts.null⟩,
      fits_outOfRange⟩
  have hunconverted : ∀ x, ¬ (Literal.table []).Converts x := fun x h => nomatch h
  have htable : ¬ (Literal.list [.table [], .whole outOfRange]).Overflows := by
    rintro ⟨-, before, n, after, hatoms, hbefore, -⟩
    cases before with
    | nil => cases hatoms
    | cons a before =>
      have hfirst : Literal.table [] = a := (List.cons.inj hatoms).1
      obtain ⟨x, hx⟩ := hbefore a List.mem_cons_self
      exact hunconverted x (hfirst ▸ hx)
  rcases equal_literal_ends hm hA (fun h => nomatch h) (.list [.null, .whole outOfRange]) with
    ⟨-, hfails⟩ | ⟨hnot, -⟩
  · rcases equal_literal_ends hm hA (fun h => nomatch h) (.list [.table [], .whole outOfRange]) with
      ⟨hoverflows, -⟩ | ⟨-, b, -, hfalse, hanswers⟩
    · exact absurd hoverflows htable
    · have hatom : .table [] ∈ (Literal.list [.table [], .whole outOfRange]).atoms :=
        List.mem_cons_self
      obtain rfl : b = false := hfalse ⟨.table [], hatom, hunconverted⟩
      exact ⟨congrArg Prod.fst (hfails true none), hanswers true none⟩
  · exact absurd hnull hnot

/-- Not every comparison answers with a truth value. -/
theorem not_forall_equal_literal_answers :
    ¬ ∀ (w : Workspace) (s : String) (id : ℕ) (kind : Kind) (A : Grid Float32) (l : Literal),
      w.lookup s = some (.object id) → w.grid? id = some (kind, A) → A.Fits kind →
        ∃ b, (w.run ⟨.equal false (.name s) (.literal l), none⟩).1 =
          .ok (.atom (.number (.flag b))) := by
  intro h
  have hm : (empty.runAll oneEntry).lookup "m" = some (.object 0) := rfl
  have hA : (empty.runAll oneEntry).grid? 0 =
      some (.matrix, Grid.ofEntries 1 1 #[narrow 1]) := rfl
  have hoverflows : (Literal.whole outOfRange).Overflows :=
    ⟨⟨[], rfl, by decide⟩, [], outOfRange, [], rfl, by simp, fits_outOfRange⟩
  obtain ⟨b, hb⟩ := h _ _ _ _ _ (.whole outOfRange) hm hA fun h => nomatch h
  rw [run_equal_literal_of_overflows hm hA hoverflows] at hb
  cases hb

end Workspace

end Workforce
