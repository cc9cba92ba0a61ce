/-
# Standard macros

Three macros need no definition.  The standard table adds those of a list of definitions, and is
frozen: whoever wants more copies it first.
-/
import Dice.Macro.Table

namespace Dice

/-- One throw of the higher of two twenty-sided dice. -/
def advantage : Roll := ⟨20, 2, none, some ⟨.high, 1⟩, none, by decide⟩

/-- One throw of the lower of two twenty-sided dice. -/
def disadvantage : Roll := ⟨20, 2, none, some ⟨.low, 1⟩, none, by decide⟩

/-- The best three of four dice. -/
def abilityScore : Roll := ⟨6, 4, none, some ⟨.high, 3⟩, none, by decide⟩

/-- The macros that need no definition. -/
def coreMacros : Macros :=
  Macros.ofList
    [("adv", [advantage]), ("dis", [disadvantage]), ("stats", List.replicate 6 abilityScore)]

/-- The definitions of the standard table. -/
def standardDefinitions : List String :=
  ["# <name> <token> [<token> ...]",
   "# Tokens are dice notation or the name of a macro defined above them.",
   "init d20",
   "fireball 8d6",
   "heroic 4d6r1h3 4d6r1h3 4d6r1h3 4d6r1h3 4d6r1h3 4d6r1h3"]

/-- The macros of the standard table. -/
def standardMacros : Macros :=
  match (Macros.addLines "macros" 1 coreMacros standardDefinitions).result with
  | .ok m => m
  | .error _ => coreMacros

/-- The table that every command starts from. -/
def standardTable : Macros.Table := ⟨standardMacros, true⟩

end Dice
