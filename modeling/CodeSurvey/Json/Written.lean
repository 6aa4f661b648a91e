import CodeSurvey.Json.Value

namespace CodeSurvey

inductive WrittenJson where
  | null
  | bool (b : Bool)
  | number (n : Option JsonNumber)
  | string (s : Option String)
  | array (items : List WrittenJson)
  | object (members : List (Option String × WrittenJson))
deriving Inhabited, BEq, Repr

namespace WrittenJson

mutual

def depth : WrittenJson → Nat
  | array items => depthOfItems items + 1
  | object members => depthOfMembers members + 1
  | _ => 0

def depthOfItems : List WrittenJson → Nat
  | [] => 0
  | w :: rest => max (depth w) (depthOfItems rest)

def depthOfMembers : List (Option String × WrittenJson) → Nat
  | [] => 0
  | (_, w) :: rest => max (depth w) (depthOfMembers rest)

end

mutual

/-- The value of a written one, if it has no gaps. Of members with the same key the last counts. -/
def value? : WrittenJson → Option Json
  | null => some .null
  | bool b => some (.bool b)
  | number n => n.map .number
  | string s => s.map .string
  | array items => (valuesOfItems? items).map .array
  | object members => (valuesOfMembers? members []).map .object

@[inherit_doc value?]
def valuesOfItems? : List WrittenJson → Option (List Json)
  | [] => some []
  | w :: rest => do
    let v ← value? w
    let vs ← valuesOfItems? rest
    some (v :: vs)

/-- The members of an object, put in their places among those before them. -/
def valuesOfMembers? : List (Option String × WrittenJson) → List (String × Json) →
    Option (List (String × Json))
  | [], before => some before
  | (key, w) :: rest, before => do
    let k ← key
    let v ← value? w
    valuesOfMembers? rest (SortedMap.insertEntry k v before)

end

end WrittenJson

namespace Json

mutual

/-- A value as it would be written. -/
def written : Json → WrittenJson
  | null => .null
  | bool b => .bool b
  | number n => .number (some n)
  | string s => .string (some s)
  | array items => .array (writtenItems items)
  | object members => .object (writtenMembers members)

@[inherit_doc written]
def writtenItems : List Json → List WrittenJson
  | [] => []
  | j :: rest => written j :: writtenItems rest

@[inherit_doc written]
def writtenMembers : List (String × Json) → List (Option String × WrittenJson)
  | [] => []
  | (key, j) :: rest => (some key, written j) :: writtenMembers rest

end

end Json

end CodeSurvey
