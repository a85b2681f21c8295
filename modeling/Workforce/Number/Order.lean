/-!
# Order on numbers that may fail to compare

Floating point numbers have values that compare with nothing, so `max` and `min` have to say
which argument such a value falls back to. Here the first argument stays unless the second one
is strictly better. On a linear order these are the usual `max`, `min` and absolute value.
-/

namespace Workforce

variable {α : Type} [LT α] [DecidableLT α]

/-- The second number if it is strictly greater, otherwise the first. -/
def larger (a b : α) : α := if a < b then b else a

/-- The second number if it is strictly smaller, otherwise the first. -/
def smaller (a b : α) : α := if b < a then b else a

/-- A number without its sign. -/
def magnitude [Zero α] [Neg α] (a : α) : α := if a < 0 then -a else a

/-- A number that equals itself; the values that do not compare fail this. -/
def isProper [BEq α] (a : α) : Bool := a == a

/-- The greatest of a list of non-negative numbers, `0` for none; a value that does not compare
outranks every number. -/
def peak [Zero α] [BEq α] (as : List α) : α :=
  as.foldl (fun m a => if !isProper m then m else if !isProper a then a else larger m a) 0

@[simp] theorem larger_of_lt {a b : α} (h : a < b) : larger a b = b := by simp [larger, h]

@[simp] theorem larger_of_not_lt {a b : α} (h : ¬ a < b) : larger a b = a := by simp [larger, h]

@[simp] theorem smaller_of_lt {a b : α} (h : b < a) : smaller a b = b := by simp [smaller, h]

@[simp] theorem smaller_of_not_lt {a b : α} (h : ¬ b < a) : smaller a b = a := by
  simp [smaller, h]

@[simp] theorem peak_nil [Zero α] [BEq α] : peak ([] : List α) = 0 := rfl

end Workforce
