import Workforce.Proofs.Workspace.Contents
import Workforce.Proofs.Workspace.Generation

/-!
# What commands answer

In a well-formed workspace every command answers with something sound. Apart from assignments, and
from the commands that hand out a value that is there or a view of it, an answer is made anew
(`Makes`).
-/

namespace Workforce

/-- An effect that adds a draft and changes no object. -/
def Effect.Answers (P : Draft → Prop) : Effect → Prop
  | .answer d => P d
  | .generated d _ => P d
  | _ => False

namespace Workspace

variable {w w' : Workspace} {id : ℕ} {v : Value} {c t u : Content} {d : Draft} {l : Literal}
variable {kind : Kind} {A B : Grid Float32}

/-- A command answers with a sound draft, if it answers. -/
def Hands (w : Workspace) (x : Except CommandError Effect) : Prop :=
  ∀ effect, x = .ok effect → effect.Answers (·.Sound w)

/-- A command answers with a sound draft that is new, if it answers. -/
def Makes (w : Workspace) (x : Except CommandError Effect) : Prop :=
  ∀ effect, x = .ok effect → effect.Answers fun d => d.Sound w ∧ IsNew d

lemma makes_error (e : CommandError) : Makes w (.error e) := fun _ h => nomatch h

lemma makes_answer (hd : d.Sound w) (hnew : IsNew d) : Makes w (.ok (.answer d)) := by
  intro effect h
  cases h
  exact ⟨hd, hnew⟩

lemma makes_answered (l : Literal) : Makes w (.ok (answered l)) :=
  makes_answer (.value trivial) trivial

lemma makes_literal (l : Literal) : Makes w (.ok (.answer (.ofLiteral l))) :=
  makes_answer (sound_ofLiteral w l) (isNew_ofLiteral l)

lemma makes_grid (hA : A.Fits kind) : Makes w (.ok (.answer (.grid kind A))) :=
  makes_answer (.grid hA) trivial

lemma makes_matrix (A : Grid Float32) : Makes w (.ok (.answer (.grid .matrix A))) :=
  makes_grid fun h => nomatch h

lemma makes_list {items : List Draft} (h : ∀ d ∈ items, d.Sound w) :
    Makes w (.ok (.answer (.list items))) :=
  makes_answer (.list h) trivial

lemma makes_bind {τ : Type} {x : Except CommandError τ} {f : τ → Except CommandError Effect}
    (hf : ∀ a, x = .ok a → Makes w (f a)) : Makes w (x >>= f) := by
  intro effect h
  obtain ⟨a, ha, h⟩ := bind_eq_ok_iff.mp h
  exact hf a ha effect h

lemma makes_created {x : Except ShapeError (Grid Float32)}
    (h : ∀ A, x = .ok A → A.Fits kind) : Makes w (created kind x) := by
  cases x with
  | error e => exact makes_error _
  | ok A => exact makes_grid (h A rfl)

/-! ### Construction -/

lemma fits_of_gridOf (h : gridOf kind l = .ok A) : A.Fits kind := by
  rintro rfl
  obtain ⟨⟨lengths, entries⟩, -, h⟩ := bind_eq_ok_iff.mp (mapError_eq_ok_iff.mp h)
  dsimp only at h
  split at h
  case h_3 => cases h
  all_goals
    cases h
    rfl

lemma makes_build (kind : Kind) (data : Literal) (expected : Option Literal) :
    Makes w (evalBuild kind data expected) :=
  makes_bind fun _ hbody => makes_bind fun _ _ => makes_grid (fits_of_gridOf hbody)

lemma makes_rebuild (hA : A.Fits kind) (target : Kind) :
    Makes w (evalRebuild target kind A) := by
  cases target <;> cases kind
  case matrix.matrix => exact makes_grid hA
  case matrix.vector => exact makes_error _
  case vector.vector => exact makes_grid hA
  case vector.matrix =>
    rw [evalRebuild]
    split_ifs with hcols
    · exact makes_grid fun _ => hcols
    · exact makes_error _

/-- The lengths of a vector are those of a single column. -/
lemma eq_one_of_dimensions {lengths : Dimensions} {rows cols : ℕ}
    (h : dimensions lengths.rows lengths.cols = .ok (rows, cols)) (hkind : lengths.kind = .vector) :
    cols = 1 := by
  obtain ⟨_, _, -, hcols, hp⟩ := exists_natCast_of_dimensions h
  cases lengths with
  | matrix rows cols => cases hkind
  | vector length =>
    cases hp
    cases hcols
    rfl

lemma makes_zeros (lengths : Dimensions) : Makes w (evalZeros lengths) := by
  refine makes_bind fun p hp => makes_created fun A hA => ?_
  obtain ⟨rows, cols, -, -, rfl⟩ := exists_natCast_of_dimensions hp
  rw [Grid.zeros, Grid.checkDims_natCast, ok_bind] at hA
  cases hA
  exact eq_one_of_dimensions hp

lemma makes_identity (n : Literal) : Makes w (evalIdentity n) :=
  makes_bind fun _ _ => makes_matrix _

lemma makes_generate (lengths : Dimensions) (f : Grid.Callback CommandError) :
    Makes w (evalGenerate lengths f) := by
  intro effect heffect
  -- the lengths were accepted, so they are natural and the generation is one that is known
  obtain ⟨p, hp, -⟩ := bind_eq_ok_iff.mp heffect
  obtain ⟨rows, cols, -, -, rfl⟩ := exists_natCast_of_dimensions hp
  obtain ⟨result, hgenerates, heval⟩ := evalGenerate_generates f hp
  rw [heval] at heffect
  cases hgenerates with
  | stopped => cases heffect
  | completed =>
    cases heffect
    exact ⟨.grid (eq_one_of_dimensions hp), trivial⟩

lemma makes_calls (w w' : Workspace) : Makes w' w.evalCalls := by
  rw [evalCalls]
  split
  · exact makes_literal _
  · exact makes_error _

/-! ### Access -/

lemma sound_drafts {items : List Content} (h : ∀ c ∈ items, c.Held w) :
    ∀ d ∈ items.map Content.draft, d.Sound w := by
  intro d hd
  obtain ⟨c, hc, rfl⟩ := List.mem_map.mp hd
  exact sound_draft (h c hc)

/-- What a collection holds, as drafts. -/
lemma sound_items (hc : c.Held w) {items : List Draft} (h : c.items? = some items) :
    ∀ d ∈ items, d.Sound w := by
  cases hc with
  | grid | line => cases h
  | list _ held =>
    cases h
    exact sound_drafts held
  | table _ _ =>
    cases h
    intro d hd
    obtain ⟨p, -, rfl⟩ := List.mem_map.mp hd
    exact sound_ofLiteral w p.1
  | atom l =>
    cases l with
    | null | number | list | table => cases h
    | text s =>
      cases h
      intro d hd
      obtain ⟨ch, -, rfl⟩ := List.mem_map.mp hd
      exact .value trivial

lemma sound_getItem (hc : c.Held w) {index : Literal} (h : c.getItem index = .ok d) :
    d.Sound w := by
  cases hc with
  | grid | line => cases h
  -- what a list or table holds is there already, and a character is a text of its own
  | list _ held =>
    obtain ⟨k, -, h⟩ := bind_eq_ok_iff.mp h
    split at h
    case h_1 c hk =>
      cases h
      exact sound_draft (held c (List.mem_of_getElem? hk))
    case h_2 => cases h
  | table _ held =>
    obtain ⟨key, -, h⟩ := bind_eq_ok_iff.mp h
    split at h
    case h_1 c hfield =>
      cases h
      obtain ⟨p, hp, rfl⟩ := Option.map_eq_some_iff.mp hfield
      exact sound_draft (held p (List.mem_of_find?_eq_some hp))
    case h_2 => cases h
  | atom l =>
    cases l with
    | null | number | list | table => cases h
    | text s =>
      obtain ⟨k, -, h⟩ := bind_eq_ok_iff.mp h
      split at h
      case h_1 ch hk =>
        cases h
        exact .value trivial
      case h_2 => cases h

lemma hands_get (hc : c.Held w) (index : Literal) : Hands w (evalGet index c) := by
  intro effect h
  cases c with
  | grid | line =>
    obtain ⟨x, -, h⟩ := bind_eq_ok_iff.mp h
    cases h
    exact .value trivial
  | atom | list | table =>
    obtain ⟨d, hd, h⟩ := bind_eq_ok_iff.mp h
    cases h
    exact sound_getItem hc hd

lemma makes_copy (hw : w.WellFormed) (hc : c.Held w) : Makes w (evalCopy c) := by
  cases hc with
  | grid hA => exact makes_grid (hw.fits hA)
  | atom | line => exact makes_error _
  | list _ held => exact makes_list (sound_drafts held)
  | table _ held =>
    refine makes_answer (.table fun p hp => ?_) trivial
    obtain ⟨q, hq, rfl⟩ := List.mem_map.mp hp
    exact sound_draft (held q hq)

/-- A view is of a line that its source has. -/
lemma hands_view (hA : w.grid? id = some (kind, A)) (axis : Axis) (index : ℤ) :
    Hands w (evalView axis id A index) := by
  intro effect h
  rw [evalView] at h
  split_ifs at h with hindex
  cases h
  refine .line ⟨kind, A, hA, ?_⟩
  dsimp only
  omega

lemma makes_entries (xs : List Float32) : Makes w (.ok (entriesAnswered xs)) := makes_literal _

lemma makes_elements (hc : c.Held w) : Makes w (evalElements c) := by
  cases c with
  | atom | list | table =>
    rw [evalElements.eq_def]
    dsimp only
    split
    case h_1 items h => exact makes_list (sound_items hc h)
    case h_2 => exact makes_error _
  | line => exact makes_entries _
  | grid id kind A =>
    cases kind with
    | vector => exact makes_entries _
    | matrix =>
      cases hc with
      | grid hA =>
        refine makes_list fun d hd => ?_
        obtain ⟨i, hi, rfl⟩ := List.mem_map.mp hd
        exact .line ⟨.matrix, A, hA, List.mem_range.mp hi⟩

lemma makes_reversed (hc : c.Held w) : Makes w (evalReversed c) := by
  cases c with
  | atom | list | table =>
    rw [evalReversed.eq_def]
    dsimp only
    split
    case h_1 items h =>
      exact makes_list fun d hd => sound_items hc h d (List.mem_reverse.mp hd)
    case h_2 => exact makes_error _
  | line => exact makes_entries _
  | grid id kind A =>
    cases kind with
    | vector => exact makes_entries _
    | matrix =>
      rw [evalReversed]
      split_ifs
      · exact makes_list (by simp)
      · exact makes_error _

lemma makes_contains (value c : Content) : Makes w (evalContains value c) := by
  rw [evalContains.eq_def]
  split
  case h_1 | h_2 | h_3 => exact makes_answered _
  case h_4 => exact makes_bind fun _ _ => makes_answered _

lemma makes_count (value c : Content) : Makes w (evalCount value c) := by
  rw [evalCount.eq_def]
  split
  case h_1 => exact makes_answered _
  case h_2 => exact makes_bind fun _ _ => makes_answered _

lemma makes_find (value c : Content) : Makes w (evalFind value c) := by
  rw [evalFind.eq_def]
  split
  case h_1 => exact makes_error _
  case h_2 => exact makes_bind fun _ _ => makes_answered _

lemma makes_length (c : Content) : Makes w (evalLength c) := by
  rw [evalLength.eq_def]
  split
  case h_1 | h_2 => exact makes_answered _
  case h_3 =>
    split
    · exact makes_answered _
    · exact makes_error _

lemma makes_shape (A : Grid Float32) : Makes w (.ok (evalShape A)) := makes_literal _

/-! ### Operations -/

lemma cols_of_mul {C : Grid Float32} (h : A.mul B = .ok C) : C.cols = B.cols := by
  rw [Grid.mul] at h
  split_ifs at h
  cases h
  rfl

lemma makes_combine (hA : A.Fits kind) (op : EntrywiseOp) (f : Float32 → Float32 → Float32)
    (B : Grid Float32) : Makes w (created kind (Grid.combine op f A B)) :=
  makes_created fun _ h hkind =>
    (Grid.cols_eq_of_shape_eq (Grid.shape_of_combine h)).trans (hA hkind)

lemma makes_scale (hA : A.Fits kind) (q : Quantity) : Makes w (evalScale kind A q) := by
  rw [evalScale]
  split
  case h_1 k => exact makes_grid hA
  case h_2 => exact makes_error _

lemma mem_of_mem_repeatList {α : Type} {as bs : List α} {q : Quantity}
    (h : Literal.repeatList as q = .ok bs) {b : α} (hb : b ∈ bs) : b ∈ as := by
  obtain ⟨n, -, h⟩ := bind_eq_ok_iff.mp h
  split_ifs at h
  · cases h
    cases hb
  · cases h
    obtain ⟨l, hl, hb⟩ := List.mem_flatten.mp hb
    rwa [List.eq_of_mem_replicate hl] at hb

lemma makes_repeat {items : List Content} (h : ∀ c ∈ items, c.Held w) (q : Quantity) :
    Makes w (evalRepeat items q) :=
  makes_bind fun _ hbs => makes_list fun d hd =>
    sound_drafts h d (mem_of_mem_repeatList (mapError_eq_ok_iff.mp hbs) hd)

lemma makes_binary (hw : w.WellFormed) (op : BinaryOp) (ht : t.Held w) (hu : u.Held w) :
    Makes w (evalBinary op t u) := by
  rw [evalBinary.eq_def]
  split
  -- sums and differences take the shape of their operands, and a vector keeps its one column
  case h_1 | h_2 =>
    cases ht with
    | grid hA => exact makes_combine (hw.fits hA) _ _ _
  case h_3 =>
    cases hu with
    | grid hB => exact makes_created fun _ h hkind => (cols_of_mul h).trans (hw.fits hB hkind)
  case h_4 =>
    cases ht with
    | grid hA => exact makes_scale (hw.fits hA) _
  case h_5 =>
    cases hu with
    | grid hB => exact makes_scale (hw.fits hB) _
  case h_6 =>
    cases ht with
    | list _ ht =>
      cases hu with
      | list _ hu =>
        exact makes_list fun d hd =>
          (List.mem_append.mp hd).elim (sound_drafts ht d) (sound_drafts hu d)
  case h_7 =>
    cases ht with
    | list _ ht => exact makes_repeat ht _
  case h_8 =>
    cases hu with
    | list _ hu => exact makes_repeat hu _
  case h_9 => exact makes_bind fun _ _ => makes_answered _
  case h_10 => exact makes_error _

lemma makes_neg (hw : w.WellFormed) (hc : c.Held w) : Makes w (evalNeg c) := by
  rw [evalNeg.eq_def]
  split
  case h_1 =>
    cases hc with
    | grid hA =>
      have hfits := hw.fits hA
      exact makes_grid hfits
  case h_2 => exact makes_answered _
  case h_3 => exact makes_error _

lemma makes_equal (negated : Bool) (t u : Content) : Makes w (evalEqual negated t u) :=
  makes_bind fun _ _ => makes_answered _

lemma makes_zipMap (hA : A.Fits .vector) (f : Float → Float → Except CommandError Float)
    (c : Content) : Makes w (evalZipMap f A c) := by
  rw [evalZipMap.eq_def]
  split
  case h_1 =>
    refine makes_bind fun C hC => makes_grid fun _ => ?_
    rw [Grid.zipColumns] at hC
    split_ifs at hC
    obtain ⟨xs, -, hC⟩ := bind_eq_ok_iff.mp hC
    cases hC
    rfl
  case h_2 =>
    split_ifs
    · exact makes_error _
    · exact makes_grid hA
    · exact makes_error _
  case h_3 => exact makes_error _

lemma makes_entrywiseMul (hA : A.Fits .vector) (c : Content) : Makes w (evalEntrywiseMul A c) := by
  rw [evalEntrywiseMul.eq_def]
  split
  case h_1 => exact makes_combine hA _ _ _
  case h_2 => exact makes_error _

end Workspace

end Workforce
