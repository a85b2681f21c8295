/-!
# Goods, labors and recipes

Every labor follows a recipe: per head and tick it uses up some goods and produces others. Later
labors use what earlier ones produce, so the goods form a supply chain.
-/

namespace Workforce

/-- Goods, in the order of the rows of the labor system. -/
inductive Good where
  | log
  | wood
  | meat
  | food
deriving DecidableEq, Repr

/-- Labors, in the order of the columns of the labor system. -/
inductive Labor where
  | lumberjack
  | carpenter
  | fisher
  | hunter
  | cook
deriving DecidableEq, Repr

namespace Good

/-- The good with a number. -/
def ofFin : Fin 4 → Good
  | 0 => log
  | 1 => wood
  | 2 => meat
  | 3 => food

def all : List Good := [log, wood, meat, food]

def text : Good → String
  | log => "LOG"
  | wood => "WOOD"
  | meat => "MEAT"
  | food => "FOOD"

/-- The good with a name. -/
def ofText? (s : String) : Option Good := all.find? fun g => g.text == s

theorem mem_all (g : Good) : g ∈ all := by cases g <;> decide

theorem ofText?_text (g : Good) : ofText? g.text = some g := by cases g <;> decide

end Good

namespace Labor

/-- The labor with a number. -/
def ofFin : Fin 5 → Labor
  | 0 => lumberjack
  | 1 => carpenter
  | 2 => fisher
  | 3 => hunter
  | 4 => cook

def all : List Labor := [lumberjack, carpenter, fisher, hunter, cook]

def text : Labor → String
  | lumberjack => "LUMBERJACK"
  | carpenter => "CARPENTER"
  | fisher => "FISHER"
  | hunter => "HUNTER"
  | cook => "COOK"

/-- The labor with a name. -/
def ofText? (s : String) : Option Labor := all.find? fun l => l.text == s

theorem all_eq_map : all = (List.finRange 5).map ofFin := by decide

theorem mem_all (l : Labor) : l ∈ all := by cases l <;> decide

theorem ofText?_text (l : Labor) : ofText? l.text = some l := by cases l <;> decide

end Labor

/-- What one laborer uses up and produces in a tick. -/
structure Recipe (σ : Type) where
  inputs : List (Good × σ)
  outputs : List (Good × σ)

/-- The recipe of a labor. -/
def Labor.recipe {σ : Type} [OfScientific σ] : Labor → Recipe σ
  | lumberjack => ⟨[], [(.log, 10.0)]⟩
  | carpenter => ⟨[(.log, 10.0)], [(.wood, 10.0)]⟩
  | fisher => ⟨[(.wood, 0.1)], [(.meat, 1.0)]⟩
  | hunter => ⟨[], [(.meat, 1.0)]⟩
  | cook => ⟨[(.wood, 0.2), (.meat, 1.0)], [(.food, 1.0)]⟩

end Workforce
