namespace CodeSurvey

/-- A map whose keys are texts, for instance paths. -/
structure SortedMap (α : Type) where
  entries : List (String × α)
  sorted : entries.Pairwise (·.1 < ·.1)

namespace SortedMap

variable {α β : Type}

/-- Puts an entry in its place. An entry with the same key is replaced. -/
def insertEntry (key : String) (a : α) : List (String × α) → List (String × α)
  | [] => [(key, a)]
  | (p, b) :: rest =>
    if key < p then (key, a) :: (p, b) :: rest
    else if key = p then (key, a) :: rest
    else (p, b) :: insertEntry key a rest

theorem mem_insertEntry {key : String} {a : α} {e : String × α} {entries : List (String × α)} :
    e ∈ insertEntry key a entries → e = (key, a) ∨ e ∈ entries := by
  induction entries with
  | nil => simp [insertEntry]
  | cons first rest ih =>
    obtain ⟨p, b⟩ := first
    rw [insertEntry]
    split <;> try split
    all_goals grind

theorem lt_of_not_lt_of_ne {a b : String} (h : ¬a < b) (ne : a ≠ b) : b < a :=
  Std.lt_of_le_of_ne (Std.not_lt.mp h) (Ne.symm ne)

theorem insertEntry_sorted (key : String) (a : α) {entries : List (String × α)}
    (h : entries.Pairwise (·.1 < ·.1)) : (insertEntry key a entries).Pairwise (·.1 < ·.1) := by
  induction entries with
  | nil => simp [insertEntry]
  | cons first rest ih =>
    obtain ⟨p, b⟩ := first
    obtain ⟨below, tail⟩ := List.pairwise_cons.mp h
    rw [insertEntry]
    split
    case isTrue lt =>
      refine List.pairwise_cons.mpr ⟨fun e he => ?_, h⟩
      rcases List.mem_cons.mp he with rfl | he
      · exact lt
      · exact String.lt_trans lt (below e he)
    case isFalse notLt =>
      split
      case isTrue eq => exact List.pairwise_cons.mpr ⟨fun e he => eq ▸ below e he, tail⟩
      case isFalse ne =>
        refine List.pairwise_cons.mpr ⟨fun e he => ?_, ih tail⟩
        rcases mem_insertEntry he with rfl | he
        · exact lt_of_not_lt_of_ne notLt ne
        · exact below e he

def empty : SortedMap α := ⟨[], .nil⟩

instance : EmptyCollection (SortedMap α) := ⟨empty⟩

instance : Inhabited (SortedMap α) := ⟨empty⟩

instance [DecidableEq α] : DecidableEq (SortedMap α) := fun a b =>
  decidable_of_iff (a.entries = b.entries)
    ⟨fun h => by cases a; cases b; simp_all, fun h => h ▸ rfl⟩

variable (m : SortedMap α)

def insert (key : String) (a : α) : SortedMap α :=
  ⟨insertEntry key a m.entries, insertEntry_sorted key a m.sorted⟩

/-- The map of a list of entries. A later entry replaces an earlier one with the same key. -/
def ofList (entries : List (String × α)) : SortedMap α :=
  entries.foldl (fun m (key, a) => m.insert key a) {}

def keys : List String := m.entries.map (·.1)

def size : Nat := m.entries.length

def isEmpty : Bool := m.entries.isEmpty

def get? (key : String) : Option α := (m.entries.find? (·.1 = key)).map (·.2)

def contains (key : String) : Bool := m.entries.any (·.1 = key)

theorem filterMap_sorted (f : String → α → Option β) {entries : List (String × α)}
    (h : entries.Pairwise (·.1 < ·.1)) :
    (entries.filterMap fun (key, a) => (f key a).map (key, ·)).Pairwise (·.1 < ·.1) := by
  refine List.Pairwise.filterMap _ (fun e e' lt b hb b' hb' => ?_) h
  obtain ⟨_, _, rfl⟩ := Option.map_eq_some_iff.mp hb
  obtain ⟨_, _, rfl⟩ := Option.map_eq_some_iff.mp hb'
  exact lt

/-- Changes values and drops entries; keys stay as they are. -/
def filterMap (f : String → α → Option β) : SortedMap β :=
  ⟨m.entries.filterMap fun (key, a) => (f key a).map (key, ·), filterMap_sorted f m.sorted⟩

end SortedMap

end CodeSurvey
