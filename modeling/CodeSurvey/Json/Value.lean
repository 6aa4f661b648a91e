import CodeSurvey.Collection.SortedMap
import CodeSurvey.Decimal.Binary64

namespace CodeSurvey

inductive JsonNumber where
  | integer (n : Int)
  | double (x : Binary64)
deriving DecidableEq, Repr, Inhabited

inductive Json where
  | null
  | bool (b : Bool)
  | number (n : JsonNumber)
  | string (s : String)
  | array (items : List Json)
  | object (members : List (String × Json))
deriving Inhabited, BEq, Repr

namespace Json

def ofNat (n : Nat) : Json := number (.integer n)

def ofStrings (names : List String) : Json := array (names.map string)

def ofMap {α : Type} (f : α → Json) (m : SortedMap α) : Json :=
  object (m.entries.map fun (key, a) => (key, f a))

end Json

end CodeSurvey
