import Workforce.Proofs.Failure
import Workforce.Proofs.Number.RealQuantity
import Workforce.Workspace.Eval

/-!
# The calls of a generator

A generator is called once for every place of its matrix, row by row, and what it answers may depend
on the calls before. So each call is made with exactly the earlier places on record. The calls end
with the last place or with the first failure, and then there is no matrix
(`Grid.generate_rowByRow`).
-/

namespace Workforce

/-! ### Actions in a row -/

section Runs

variable {ε σ β : Type} {n : ℕ} {f : Fin n → EStateM ε σ β} {s : ℕ → σ}

/-- How actions end that are run one after the other, where action `i` leads from state `s i` to
state `s (i + 1)` if it returns: all of them return, or one fails after those before it have
returned. -/
inductive Runs (f : Fin n → EStateM ε σ β) (s : ℕ → σ) :
    EStateM.Result ε σ (Vector β n) → Prop where
  | completed {v : Vector β n} (returns : ∀ i, (f i).run (s i) = .ok (v.get i) (s (i + 1))) :
      Runs f s (.ok v (s n))
  | stopped {i : Fin n} {e : ε} {s' : σ}
      (returns : ∀ j < i, ∃ b, (f j).run (s j) = .ok b (s (j + 1)))
      (fails : (f i).run (s i) = .error e s') : Runs f s (.error e s')

namespace Runs

lemma of_ok {v : Vector β n} {s' : σ} (h : Runs f s (.ok v s')) :
    s' = s n ∧ ∀ i, (f i).run (s i) = .ok (v.get i) (s (i + 1)) := by
  cases h with
  | completed returns => exact ⟨rfl, returns⟩

lemma of_error {e : ε} {s' : σ} (h : Runs f s (.error e s')) :
    ∃ i, (∀ j < i, ∃ b, (f j).run (s j) = .ok b (s (j + 1))) ∧
      (f i).run (s i) = .error e s' := by
  cases h with
  | stopped returns fails => exact ⟨_, returns, fails⟩

end Runs

/-- The actions of a vector are run one after the other, by induction on their number. -/
lemma runs_vectorOfFnM (h : ∀ i b s', (f i).run (s i) = .ok b s' → s' = s (i + 1)) :
    Runs f s ((Vector.ofFnM f).run (s 0)) := by
  induction n with
  | zero =>
    rw [Vector.ofFnM_zero]
    exact .completed fun i => i.elim0
  | succ n ih =>
    rw [Vector.ofFnM_succ, EStateM.run_bind]
    -- the last action runs only if all of those before it have returned
    have hinit := ih fun i => h i.castSucc
    generalize (Vector.ofFnM fun i => f i.castSucc).run (s 0) = result at hinit
    cases hinit with
    | stopped returns fails =>
      refine .stopped (fun j hj => ?_) fails
      exact returns (j.castLT (lt_trans hj (Fin.castSucc_lt_last _))) hj
    | @completed v returns =>
      have hreturns (i : Fin n) : ∃ b, (f i.castSucc).run (s i) = .ok b (s (i + 1)) :=
        ⟨_, returns i⟩
      cases hlast : (f (Fin.last n)).run (s n) with
      | error e s' =>
        simp only [EStateM.run_bind, hlast]
        exact .stopped (fun j hj => hreturns (j.castLT hj)) hlast
      | ok b s' =>
        obtain rfl := h (Fin.last n) b s' hlast
        simp only [EStateM.run_bind, hlast]
        refine .completed fun i => ?_
        induction i using Fin.lastCases with
        | last => rwa [get_push_last]
        | cast i =>
          rw [get_push_castSucc]
          exact returns i

end Runs

namespace Grid

/-! ### Places row by row -/

/-- The places of a matrix, row by row. -/
def places (rows cols : ℕ) : List (ℕ × ℕ) := List.range rows ×ˢ List.range cols

/-- The places that come before row `i` and column `j` in a matrix with `cols` columns. -/
def placesBefore (cols i j : ℕ) : List (ℕ × ℕ) := places i cols ++ (List.range j).map (i, ·)

variable {rows cols n i j r c : ℕ}

lemma mem_places : (r, c) ∈ places rows cols ↔ r < rows ∧ c < cols := by simp [places]

lemma mem_placesBefore :
    (r, c) ∈ placesBefore cols i j ↔ r < i ∧ c < cols ∨ r = i ∧ c < j := by
  simp [placesBefore, mem_places, and_comm, eq_comm]

lemma places_one : places n 1 = (List.range n).map (·, 0) := List.flatMap_pure_eq_map (·, 0) _

lemma places_succ : places (i + 1) cols = places i cols ++ (List.range cols).map (i, ·) := by
  simp [places, SProd.sprod, List.product, List.range_succ]

@[simp] lemma placesBefore_zero : placesBefore cols i 0 = places i cols := by simp [placesBefore]

lemma placesBefore_cols : placesBefore cols i cols = places (i + 1) cols := places_succ.symm

lemma placesBefore_succ : placesBefore cols i (j + 1) = placesBefore cols i j ++ [(i, j)] := by
  simp [placesBefore, List.range_succ]

/-- Each place comes once, after those in rows above and those to its left. -/
lemma pairwise_places : (places rows cols).Pairwise (toLex · < toLex ·) := by
  refine List.pairwise_flatMap.mpr ⟨fun i _ => ?_, ?_⟩
  · refine List.pairwise_map.mpr (List.pairwise_lt_range.imp fun hlt => ?_)
    exact Prod.Lex.toLex_lt_toLex.mpr (.inr ⟨rfl, hlt⟩)
  · refine List.pairwise_lt_range.imp fun hlt p hp q hq => ?_
    obtain ⟨_, -, rfl⟩ := List.mem_map.mp hp
    obtain ⟨_, -, rfl⟩ := List.mem_map.mp hq
    exact Prod.Lex.toLex_lt_toLex.mpr (.inl hlt)

/-! ### One call -/

variable {ε : Type} {f : Callback ε} {calls calls' : Array (ℕ × ℕ)} {x : Float32} {e : ε}

lemma narrow_call_eq_ok_iff : (narrow <$> f.call r c).run calls = .ok x calls' ↔
    ∃ y, f calls r c = .ok y ∧ narrow y = x ∧ calls' = calls.push (r, c) := by
  rw [EStateM.run_map, resultMap_eq_ok_iff]
  simp only [Callback.call, EStateM.run]
  cases f calls r c <;> simp [and_comm, eq_comm]

lemma narrow_call_eq_error_iff : (narrow <$> f.call r c).run calls = .error e calls' ↔
    f calls r c = .error e ∧ calls' = calls.push (r, c) := by
  rw [EStateM.run_map]
  simp only [Callback.call, EStateM.run]
  cases f calls r c <;> simp [EStateM.Result.map, eq_comm]

/-! ### One row -/

/-- The actions that make row `i`. -/
abbrev rowActions (f : Callback ε) (cols i : ℕ) (j : Fin cols) :
    EStateM ε (Array (ℕ × ℕ)) Float32 :=
  narrow <$> f.call i j

lemma push_placesBefore :
    (placesBefore cols i j).toArray.push (i, j) = (placesBefore cols i (j + 1)).toArray := by
  rw [placesBefore_succ, List.push_toArray]

lemma runs_row (f : Callback ε) (cols i : ℕ) :
    Runs (rowActions f cols i) (fun j => (placesBefore cols i j).toArray)
      ((Vector.ofFnM (rowActions f cols i)).run (places i cols).toArray) := by
  rw [← placesBefore_zero]
  refine runs_vectorOfFnM fun j x calls h => ?_
  obtain ⟨-, -, -, rfl⟩ := narrow_call_eq_ok_iff.mp h
  exact push_placesBefore

/-- A row that returns has been called from left to right. -/
lemma answers_of_row {row : Vector Float32 cols}
    (h : (Vector.ofFnM (rowActions f cols i)).run (places i cols).toArray = .ok row calls) :
    calls = (places (i + 1) cols).toArray ∧ ∀ j : Fin cols,
      ∃ y, f (placesBefore cols i j).toArray i j = .ok y ∧ row.get j = narrow y := by
  have hrow := runs_row f cols i
  rw [h] at hrow
  obtain ⟨rfl, hreturns⟩ := hrow.of_ok
  refine ⟨by rw [placesBefore_cols], fun j => ?_⟩
  obtain ⟨y, hy, hx, -⟩ := narrow_call_eq_ok_iff.mp (hreturns j)
  exact ⟨y, hy, hx.symm⟩

/-- A row that fails has been called from left to right up to a call that fails. -/
lemma fails_of_row
    (h : (Vector.ofFnM (rowActions f cols i)).run (places i cols).toArray = .error e calls) :
    ∃ j < cols, (∀ c < j, ∃ y, f (placesBefore cols i c).toArray i c = .ok y) ∧
      f (placesBefore cols i j).toArray i j = .error e ∧
      calls = (placesBefore cols i j ++ [(i, j)]).toArray := by
  have hrow := runs_row f cols i
  rw [h] at hrow
  obtain ⟨j, hreturns, hfails⟩ := hrow.of_error
  obtain ⟨he, rfl⟩ := narrow_call_eq_error_iff.mp hfails
  refine ⟨j, j.isLt, fun c hc => ?_, he, by rw [List.push_toArray]⟩
  obtain ⟨x, hx⟩ := hreturns ⟨c, hc.trans j.isLt⟩ hc
  obtain ⟨y, hy, -⟩ := narrow_call_eq_ok_iff.mp hx
  exact ⟨y, hy⟩

/-! ### All rows -/

/-- How the generation of a matrix ends when nothing has been called before: every place has been
called with the places before it on record, and the entries are the answers as binary32 numbers, or
a call has failed and is the last one. -/
inductive Generates (f : Callback ε) (rows cols : ℕ) :
    EStateM.Result ε (Array (ℕ × ℕ)) (Grid Float32) → Prop where
  | completed {A : Mat Float32 rows cols}
      (answers : ∀ (i : Fin rows) (j : Fin cols),
        ∃ y, f (placesBefore cols i j).toArray i j = .ok y ∧ A.get i j = narrow y) :
      Generates f rows cols (.ok ⟨A⟩ (places rows cols).toArray)
  | stopped {i j : ℕ} {e : ε} (hi : i < rows) (hj : j < cols)
      (answered : ∀ r c, (r, c) ∈ placesBefore cols i j →
        ∃ y, f (placesBefore cols r c).toArray r c = .ok y)
      (fails : f (placesBefore cols i j).toArray i j = .error e) :
      Generates f rows cols (.error e (placesBefore cols i j ++ [(i, j)]).toArray)

/-- Rows that are run one after the other generate a matrix. -/
lemma generates_of_runs
    {result : EStateM.Result ε (Array (ℕ × ℕ)) (Vector (Vector Float32 cols) rows)}
    (h : Runs (fun i : Fin rows => Vector.ofFnM (rowActions f cols i))
      (fun i => (places i cols).toArray) result) :
    Generates f rows cols ((result.map Mat.mk).map Grid.mk) := by
  cases h with
  | completed returns => exact .completed fun i j => (answers_of_row (returns i)).2 j
  | @stopped i _ _ returns fails =>
    obtain ⟨j, hj, hanswered, he, rfl⟩ := fails_of_row fails
    refine .stopped i.isLt hj (fun r c hmem => ?_) he
    -- a place before is in a row above, which has returned, or in the row that has failed
    rcases mem_placesBefore.mp hmem with ⟨hr, hc⟩ | ⟨rfl, hc⟩
    · obtain ⟨row, hrow⟩ := returns ⟨r, hr.trans i.isLt⟩ hr
      obtain ⟨y, hy, -⟩ := (answers_of_row hrow).2 ⟨c, hc⟩
      exact ⟨y, hy⟩
    · exact hanswered c hc

lemma checkDims_natCast (rows cols : ℕ) : checkDims rows cols = .ok (rows, cols) := by
  simp [checkDims]

lemma checkDims_of_neg {rows cols : ℤ} (h : rows < 0 ∨ cols < 0) :
    checkDims rows cols = .error (.negative (.whole rows) (.whole cols)) := if_pos h

/-- A matrix is generated from its first row to its last. -/
lemma exists_generate_eq_ok (f : Callback ε) (rows cols : ℕ) :
    ∃ action, generate rows cols f.call = .ok action ∧
      Generates f rows cols (action.run #[]) := by
  refine ⟨Grid.mk <$> Mat.ofFnM fun i : Fin rows => rowActions f cols i, ?_, ?_⟩
  · rw [generate, checkDims_natCast, ok_bind]
    rfl
  · rw [EStateM.run_map, Mat.ofFnM, EStateM.run_map]
    exact generates_of_runs (runs_vectorOfFnM fun i row calls h => (answers_of_row h).1)

/-- A matrix of any shape is generated by calls for its places one after the other, in the order of
rows and then of columns, each place once, and a vector by calls for its rows in column `0`. Entries
are the answers as binary32 numbers; a call that fails is the last one, and then there is no matrix.
A negative shape is refused before any call. -/
theorem generate_rowByRow (f : Callback ε) :
    (∀ rows cols : ℕ, ∃ action, generate rows cols f.call = .ok action ∧
      Generates f rows cols (action.run #[])) ∧
    (∀ rows cols : ℕ, (places rows cols).Pairwise (toLex · < toLex ·) ∧
      ∀ r c, (r, c) ∈ places rows cols ↔ r < rows ∧ c < cols) ∧
    (∀ n : ℕ, places n 1 = (List.range n).map (·, 0)) ∧
    ∀ rows cols : ℤ, rows < 0 ∨ cols < 0 →
      generate rows cols f.call = .error (.negative (.whole rows) (.whole cols)) := by
  refine ⟨exists_generate_eq_ok f, fun _ _ => ⟨pairwise_places, fun _ _ => mem_places⟩,
    fun _ => places_one, fun rows cols h => ?_⟩
  rw [generate, checkDims_of_neg h, error_bind]

/-- A function that gives two answers. -/
def answersTwice : Callback String := fun calls _ _ =>
  if calls.size < 2 then .ok 1 else .error "no more"

/-- The third of four calls fails. -/
theorem generate_rowByRow_answersTwice :
    (∃ action, generate 2 2 answersTwice.call = .ok action ∧
      action.run #[] = .error "no more" #[(0, 0), (0, 1), (1, 0)]) ∧
    generate (-1) 2 answersTwice.call = .error (.negative (.whole (-1)) (.whole 2)) := by
  obtain ⟨hgenerates, -, -, hnegative⟩ := generate_rowByRow answersTwice
  obtain ⟨action, haction, hruns⟩ := hgenerates 2 2
  refine ⟨⟨action, haction, ?_⟩, hnegative (-1) 2 (.inl (by decide))⟩
  generalize action.run #[] = result at hruns
  cases hruns with
  | completed answers =>
    obtain ⟨y, hy, -⟩ := answers 1 0
    cases hy
  | @stopped i j e hi hj answered fails =>
    interval_cases i <;> interval_cases j
    case «1».«0» =>
      cases fails
      rfl
    case «1».«1» =>
      obtain ⟨y, hy⟩ := answered 1 0 (by decide)
      cases hy
    all_goals cases fails

end Grid

namespace Workspace

variable {rows cols : Literal} {lengths : Dimensions} {p : ℤ × ℤ} {q : Quantity} {n : ℤ}

/-! ### The lengths of a workspace -/

lemma lengthOf_eq_ok_iff : lengthOf q = .ok n ↔ q = .whole n ∧ Quantity.isPlace n := by
  cases q with
  | flag | real => simp [lengthOf]
  | whole m =>
    rw [lengthOf]
    split_ifs with hm <;> grind

lemma eq_number_of_comparedLength {l : Literal} (h : comparedLength l = .ok q) : l = .number q := by
  cases l with
  | number => exact congrArg Literal.number (Except.ok.inj h)
  | null | text | list | table => cases h

/-- Lengths that are accepted are integers that are not negative. -/
lemma exists_natCast_of_dimensions (h : dimensions rows cols = .ok p) :
    ∃ r c : ℕ, rows = .whole r ∧ cols = .whole c ∧ p = (↑r, ↑c) := by
  obtain ⟨q, hq, h⟩ := bind_eq_ok_iff.mp h
  split_ifs at h with hrows
  obtain ⟨q', hq', h⟩ := bind_eq_ok_iff.mp h
  split_ifs at h with hcols
  obtain ⟨r, hr, h⟩ := bind_eq_ok_iff.mp h
  obtain ⟨c, hc, h⟩ := bind_eq_ok_iff.mp h
  obtain ⟨-, -, h⟩ := bind_eq_ok_iff.mp h
  cases h
  obtain ⟨rfl, -⟩ := lengthOf_eq_ok_iff.mp hr
  obtain ⟨rfl, -⟩ := lengthOf_eq_ok_iff.mp hc
  obtain ⟨r, rfl⟩ := Int.eq_ofNat_of_zero_le (not_lt.mp (mt (Quantity.lt_whole r 0).mpr hrows))
  obtain ⟨c, rfl⟩ := Int.eq_ofNat_of_zero_le (not_lt.mp (mt (Quantity.lt_whole c 0).mpr hcols))
  exact ⟨r, c, eq_number_of_comparedLength hq, eq_number_of_comparedLength hq', rfl⟩

/-- The workspace generates in this way, with nothing on record. The calls are kept for when they
are asked for. -/
theorem evalGenerate_generates {rows cols : ℕ} (f : Grid.Callback CommandError)
    (h : dimensions lengths.rows lengths.cols = .ok (rows, cols)) :
    ∃ result, Grid.Generates f rows cols result ∧
      evalGenerate lengths f = match result with
        | .ok A calls => .ok (.generated (.grid lengths.kind A) calls.toList)
        | .error e _ => .error e := by
  obtain ⟨action, haction, hgenerates⟩ := Grid.exists_generate_eq_ok f rows cols
  refine ⟨_, hgenerates, ?_⟩
  rw [evalGenerate, h, ok_bind]
  simp only [haction]
  cases action.run #[] <;> rfl

end Workspace

end Workforce
