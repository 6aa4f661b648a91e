import CodeSurvey.Json.Written

namespace CodeSurvey.WrittenJson

def text? : WrittenJson → Option String
  | string s => s
  | _ => none

def natBelow? (bound : Nat) : WrittenJson → Option Nat
  | number (some (.integer n)) => if 0 ≤ n && n < bound then some n.toNat else none
  | _ => none

def binary64? : WrittenJson → Option Binary64
  | number (some (.integer n)) => Binary64.ofInt n
  | number (some (.double x)) => some x
  | _ => none

def list? {α : Type} (decode : WrittenJson → Option α) : WrittenJson → Option (List α)
  | array items => items.mapM decode
  | _ => none

def entries? {α : Type} (decode : WrittenJson → Option α) : WrittenJson → Option (List (String × α))
  | object members => members.mapM fun (key, w) => do some (← key, ← decode w)
  | _ => none

def map? {α : Type} (decode : WrittenJson → Option α) (w : WrittenJson) : Option (SortedMap α) :=
  (w.entries? decode).map SortedMap.ofList

/-- The value of a key that is written exactly once. -/
def field? (members : List (Option String × WrittenJson)) (name : String) : Option WrittenJson :=
  match members.filter (·.1 = some name) with
  | [(_, w)] => some w
  | _ => none

def record? (names : List String) : WrittenJson → Option (List WrittenJson)
  | object members =>
    if members.all (·.1.isSome) then names.mapM (field? members) else none
  | array items => if items.length = names.length then some items else none
  | _ => none

end CodeSurvey.WrittenJson
