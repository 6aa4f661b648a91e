import CodeSurvey.Toml.Value

namespace CodeSurvey.Toml

/-- How a table came about: stated under a header of its own, only mentioned in the header of a
table inside, or by a key with dots. -/
inductive Origin where
  | stated
  | mentioned
  | dotted
deriving DecidableEq, Repr

/-- A key with what it stands for: a value, a table, or an array of tables, the last one first. -/
inductive Entry where
  | value (key : String) (v : Toml)
  | table (key : String) (origin : Origin) (entries : List Entry)
  | elements (key : String) (tables : List (List Entry))

namespace Entry

def key : Entry → String
  | value k _ => k
  | table k _ _ => k
  | elements k _ => k

def change (k : String) (f : Option Entry → Option Entry) : List Entry → Option (List Entry)
  | [] => (f none).map ([·])
  | e :: rest => if e.key = k then (f (some e)).map (· :: rest) else (change k f rest).map (e :: ·)

/-- Changes the entries of the table at a path. Tables on the way that do not exist yet are added. A
key with dots leads only through tables that are not stated as a whole. -/
def descend (dotted : Bool) (f : Origin → List Entry → Option (List Entry)) :
    List String → Origin → List Entry → Option (List Entry)
  | [], origin, entries => f origin entries
  | k :: path, _, entries =>
    let fresh := if dotted then Origin.dotted else .mentioned
    entries |> change k fun
      | none => (descend dotted f path fresh []).map (table k fresh)
      | some (table _ origin inner) =>
        if dotted && origin = .stated then none
        else (descend dotted f path origin inner).map (table k origin)
      | some (elements _ (last :: before)) =>
        (descend dotted f path .stated last).map fun last => elements k (last :: before)
      | some _ => none

/-- Adds a value under a key with dots. A table is completed only in the way in which it was
begun. -/
def assign (path : List String) (v : Toml) (entries : List Entry) : Option (List Entry) :=
  match path.reverse with
  | [] => none
  | k :: before => entries |> descend true (fun origin inner =>
      if decide (origin = .dotted) = before.isEmpty then none
      else inner |> change k fun
        | none => some (value k v)
        | some _ => none) before.reverse .stated

def assignUnder (header path : List String) (v : Toml) : List Entry → Option (List Entry) :=
  descend false (fun _ inner => assign path v inner) header .stated

def atEnd (path : List String) (f : String → Option Entry → Option Entry) (entries : List Entry) :
    Option (List Entry) :=
  match path.reverse with
  | [] => none
  | k :: before => entries |> descend false (fun _ inner => change k (f k) inner) before.reverse
      .stated

def addTable (path : List String) : List Entry → Option (List Entry) :=
  atEnd path fun k e => match e with
    | none => some (table k .stated [])
    | some (table _ .mentioned inner) => some (table k .stated inner)
    | some _ => none

def addElement (path : List String) : List Entry → Option (List Entry) :=
  atEnd path fun k e => match e with
    | none => some (elements k [[]])
    | some (elements _ tables) => some (elements k ([] :: tables))
    | some _ => none

mutual

def toValue : Entry → String × Toml
  | value k v => (k, v)
  | table k _ entries => (k, .table (values entries))
  | elements k tables => (k, .array (elementValues tables).reverse)

def values : List Entry → List (String × Toml)
  | [] => []
  | e :: rest => toValue e :: values rest

def elementValues : List (List Entry) → List Toml
  | [] => []
  | entries :: rest => .table (values entries) :: elementValues rest

end

end Entry

end CodeSurvey.Toml
