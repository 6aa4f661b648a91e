import CodeSurvey.Toml.Value

namespace CodeSurvey.Toml

def text? : Toml → Option String
  | string s => some s
  | _ => none

def texts? : Toml → Option (List String)
  | array items => items.mapM text?
  | _ => none

def truth? : Toml → Option Bool
  | boolean b => some b
  | _ => none

def nat? : Toml → Option Nat
  | integer n => if 0 ≤ n then some n.toNat else none
  | _ => none

/-- The values of some keys. An array gives them in order, as far as it goes. A date is a table that
has none of them. -/
def fields? (keys : List String) : Toml → Option (List (Option Toml))
  | table entries => some (keys.map (get? entries))
  | array items => some ((List.range keys.length).map (items[·]?))
  | date => some (keys.map fun _ => none)
  | _ => none

def optional? {α : Type} (decode : Toml → Option α) : Option Toml → Option (Option α)
  | none => some none
  | some v => (decode v).map some

end CodeSurvey.Toml
