import Workforce.Proofs.Number.DoubleRounding
import Workforce.Proofs.Workspace.Comparison
import Workforce.Proofs.Workspace.ShapeTyping

/-!
# Vectors combined entry by entry

A function of two numbers combines vectors in binary64, and its values are rounded to entries. As
rounding twice is rounding once, the product and the difference of numbers give the entry by entry
product and the difference of vectors.
-/

namespace Workforce

namespace Grid

variable {n : ℕ} {f : Float → Float → Except CommandError Float} {op : Float → Float → Float}
variable {g : Float32 → Float32 → Float32}

/-- A function that never fails and is rounded to one of entries is that one, entry by entry. -/
lemma zipColumns_eq_zipWith (hf : ∀ x y, f x y = .ok (op x y))
    (hg : ∀ a b, narrow (op (widen a) (widen b)) = g a b) (A B : Mat Float32 n 1) :
    zipColumns f ⟨A⟩ ⟨B⟩ = .ok ⟨Mat.zipWith g A B⟩ := by
  let value (p : Float32 × Float32) : Float := op (widen p.1) (widen p.2)
  have hrounded : (((A.column 0).zip (B.column 0)).map value).map narrow =
      (Mat.zipWith g A B).column 0 := by
    rw [Mat.column_zipWith, List.map_map]
    exact List.map_congr_left fun p _ => hg p.1 p.2
  have hshape : (Grid.mk A).shape = (Grid.mk B).shape := rfl
  rw [zipColumns, if_pos hshape, entries, entries, Mat.entries_eq_column, Mat.entries_eq_column,
    mapM_eq_ok (g := value), ok_bind, pure_eq_ok, hrounded, ofColumn_column]
  exact fun p => hf (widen p.1) (widen p.2)

end Grid

namespace Workspace

variable {w : Workspace} {s t : String} {id id' n : ℕ} {A B : Mat Float32 n 1}

/-- Two vectors of one length, combined by the product of numbers, give their entry by entry
product, and combined by the difference their difference: the numbers that are computed in binary64
are rounded to the entries that are computed in binary32. -/
theorem zipMap_eq_entrywise (hs : w.lookup s = some (.object id))
    (hA : w.grid? id = some (.vector, ⟨A⟩)) (ht : w.lookup t = some (.object id'))
    (hB : w.grid? id' = some (.vector, ⟨B⟩)) :
    let x := Operand.name s
    let y := Operand.name t
    let zipMul := Command.zipMap (fun a b => .ok (a * b)) x y
    let zipSub := Command.zipMap (fun a b => .ok (a - b)) x y
    let product := Effect.answer (.grid .vector ⟨Mat.zipWith (· * ·) A B⟩)
    let difference := Effect.answer (.grid .vector ⟨Mat.zipWith (· - ·) A B⟩)
    (eval zipMul).run w = .ok (product, w) ∧
      (eval (.entrywiseMul x y)).run w = .ok (product, w) ∧
      (eval zipSub).run w = .ok (difference, w) ∧
      (eval (.binary .sub x y)).run w = .ok (difference, w) ∧
      ∀ target, w.run ⟨zipMul, target⟩ = w.run ⟨.entrywiseMul x y, target⟩ ∧
        w.run ⟨zipSub, target⟩ = w.run ⟨.binary .sub x y, target⟩ := by
  intro x y zipMul zipSub product difference
  have hx := operand_name_of_grid hs hA
  have hy := operand_name_of_grid ht hB
  have hproduct : (eval zipMul).run w = .ok (product, w) := by
    rw [eval, run_bind_of_ok hx, run_bind_of_ok hy, run_liftM_eq_ok_iff, evalZipMap,
      Grid.zipColumns_eq_zipWith (fun _ _ => rfl) narrow_mul_widen]
    exact ⟨rfl, rfl⟩
  have hproduct' : (eval (.entrywiseMul x y)).run w = .ok (product, w) := by
    rw [eval, run_bind_of_ok hx, run_bind_of_ok hy, run_liftM_eq_ok_iff, evalEntrywiseMul,
      Grid.entrywiseMul, Grid.combine_mk]
    exact ⟨rfl, rfl⟩
  have hdifference : (eval zipSub).run w = .ok (difference, w) := by
    rw [eval, run_bind_of_ok hx, run_bind_of_ok hy, run_liftM_eq_ok_iff, evalZipMap,
      Grid.zipColumns_eq_zipWith (fun _ _ => rfl) narrow_sub_widen]
    exact ⟨rfl, rfl⟩
  have hdifference' : (eval (.binary .sub x y)).run w = .ok (difference, w) := by
    rw [eval, run_bind_of_ok hx, run_bind_of_ok hy, run_liftM_eq_ok_iff, evalBinary, Grid.sub,
      Grid.combine_mk]
    exact ⟨rfl, rfl⟩
  -- commands with one effect in one workspace have the same run
  refine ⟨hproduct, hproduct', hdifference, hdifference', fun target => ⟨?_, ?_⟩⟩
  · rw [run_of_ok (s := ⟨_, target⟩) hproduct, run_of_ok (s := ⟨_, target⟩) hproduct']
  · rw [run_of_ok (s := ⟨_, target⟩) hdifference, run_of_ok (s := ⟨_, target⟩) hdifference']

/-- Two vectors. Their products are subnormal and an infinity in binary32. -/
def twoVectors : List Statement :=
  [⟨.build .vector (.list [.real 1e-20, .real 1e30]) none, some "u"⟩,
    ⟨.build .vector (.list [.real 1e-20, .real 1e10]) none, some "v"⟩]

theorem zipMap_eq_entrywise_twoVectors :
    let w := empty.runAll twoVectors
    w.lookup "u" = some (.object 0) ∧ w.lookup "v" = some (.object 1) ∧
      ∀ target,
        w.run ⟨.zipMap (fun a b => .ok (a * b)) (.name "u") (.name "v"), target⟩ =
          w.run ⟨.entrywiseMul (.name "u") (.name "v"), target⟩ ∧
        w.run ⟨.zipMap (fun a b => .ok (a - b)) (.name "u") (.name "v"), target⟩ =
          w.run ⟨.binary .sub (.name "u") (.name "v"), target⟩ := by
  intro w
  have hu : w.lookup "u" = some (.object 0) := rfl
  have hv : w.lookup "v" = some (.object 1) := rfl
  have hA : w.grid? 0 = some (.vector, Grid.ofEntries 2 1 #[narrow 1e-20, narrow 1e30]) := rfl
  have hB : w.grid? 1 = some (.vector, Grid.ofEntries 2 1 #[narrow 1e-20, narrow 1e10]) := rfl
  obtain ⟨-, -, -, -, hruns⟩ := zipMap_eq_entrywise hu hA hv hB
  exact ⟨hu, hv, hruns⟩

end Workspace

end Workforce
