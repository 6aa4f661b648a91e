namespace CodeSurvey

inductive Toml where
  | string (s : String)
  | integer (n : Int)
  | float
  | boolean (b : Bool)
  | date
  | array (items : List Toml)
  | table (entries : List (String × Toml))
deriving Inhabited, BEq, Repr

namespace Toml

def get? (entries : List (String × Toml)) (key : String) : Option Toml :=
  (entries.find? (·.1 = key)).map (·.2)

end Toml

end CodeSurvey
