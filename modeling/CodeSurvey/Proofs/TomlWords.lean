import CodeSurvey.Toml.Decoding
import CodeSurvey.Toml.Reader
import Mathlib.Data.List.Basic

namespace CodeSurvey.Toml

def IsWord (n : Int) : Prop := -wordBound ≤ n ∧ n < wordBound

inductive Words : Toml → Prop where
  | string (s : String) : Words (.string s)
  | integer {n : Int} (h : IsWord n) : Words (.integer n)
  | float : Words .float
  | boolean (b : Bool) : Words (.boolean b)
  | date : Words .date
  | array {items : List Toml} (h : ∀ v ∈ items, Words v) : Words (.array items)
  | table {entries : List (String × Toml)} (h : ∀ e ∈ entries, Words e.2) : Words (.table entries)

variable {cs rest : List Char} {v : Toml}

theorem Words.of_get? {entries : List (String × Toml)} (words : ∀ e ∈ entries, e.2.Words) {key : String}
    (h : get? entries key = some v) : v.Words := by
  obtain ⟨e, found, rfl⟩ := Option.map_eq_some_iff.mp h
  exact words e (List.mem_of_find?_eq_some found)

theorem Words.of_fields? {w : Toml} {keys : List String} {fields : List (Option Toml)} (words : v.Words)
    (read : v.fields? keys = some fields) (mem : some w ∈ fields) : w.Words := by
  cases words with
  | string | integer | float | boolean => cases read
  | date =>
    obtain rfl := Option.some.inj read
    obtain ⟨_, -, none⟩ := List.mem_map.mp mem
    cases none
  | array words =>
    obtain rfl := Option.some.inj read
    obtain ⟨i, -, there⟩ := List.mem_map.mp mem
    exact words w (List.mem_of_getElem? there)
  | table words =>
    obtain rfl := Option.some.inj read
    obtain ⟨key, -, there⟩ := List.mem_map.mp mem
    exact .of_get? words there

theorem nat?_eq_some_iff {n : Nat} : v.nat? = some n ↔ v = .integer n := by
  cases v with
  | integer m =>
    rw [nat?, Option.ite_none_right_eq_some, Option.some.injEq, Toml.integer.injEq]
    omega
  | _ => exact iff_of_false nofun nofun

theorem isWord_of_integer? {n : Int} (h : integer? cs = some n) : IsWord n := by
  have checked {read : Option Int}
      (h : (read.bind fun m => if -wordBound ≤ m ∧ m < wordBound then some m else none) = some n) :
      IsWord n := by
    obtain ⟨m, -, h⟩ := Option.bind_eq_some_iff.mp h
    obtain ⟨bounds, h⟩ := Option.ite_none_right_eq_some.mp h
    exact Option.some.inj h ▸ bounds
  unfold integer? at h
  split at h
  all_goals exact checked h

theorem words_of_scalar? (h : scalar? cs = some v) : v.Words := by
  unfold scalar? at h
  split_ifs at h
  · exact Option.some.inj h ▸ .boolean true
  · exact Option.some.inj h ▸ .boolean false
  · exact Option.some.inj h ▸ .date
  · exact Option.some.inj h ▸ .float
  · obtain ⟨n, read, rfl⟩ := Option.map_eq_some_iff.mp h
    exact .integer (isWord_of_integer? read)

theorem words_of_unquoted? (h : unquoted? cs = some (v, rest)) : v.Words := by
  unfold unquoted? at h
  dsimp only at h
  split at h
  next =>
    cases h
    exact .date
  next =>
    obtain ⟨w, read, eq⟩ := Option.map_eq_some_iff.mp h
    cases eq
    exact words_of_scalar? read

namespace Entry

inductive Words : Entry → Prop where
  | value (key : String) {v : Toml} (h : v.Words) : Words (.value key v)
  | table (key : String) (origin : Origin) {entries : List Entry} (h : ∀ e ∈ entries, Words e) :
    Words (.table key origin entries)
  | elements (key : String) {tables : List (List Entry)}
    (h : ∀ entries ∈ tables, ∀ e ∈ entries, Words e) : Words (.elements key tables)

def AllWords (entries : List Entry) : Prop := ∀ e ∈ entries, e.Words

variable {k : String} {path header : List String} {origin : Origin} {dotted : Bool}
  {entries changed : List Entry}

theorem AllWords.nil : AllWords [] := fun _ mem => absurd mem List.not_mem_nil

theorem values_eq_map (entries : List Entry) : values entries = entries.map toValue := by
  induction entries with
  | nil => rfl
  | cons e rest ih => rw [values, ih, List.map_cons]

theorem elementValues_eq_map (tables : List (List Entry)) :
    elementValues tables = tables.map fun entries => .table (values entries) := by
  induction tables with
  | nil => rfl
  | cons entries rest ih => rw [elementValues, ih, List.map_cons]

theorem Words.toValue {e : Entry} (h : e.Words) : e.toValue.2.Words := by
  have below {entries : List Entry} (h : ∀ e ∈ entries, e.toValue.2.Words) :
      (Toml.table (values entries)).Words := by
    rw [values_eq_map]
    exact .table (List.forall_mem_map.mpr h)
  induction h with
  | value key h =>
    rw [Entry.toValue]
    exact h
  | table key origin _ ih =>
    rw [Entry.toValue]
    exact below ih
  | elements key _ ih =>
    rw [Entry.toValue, elementValues_eq_map]
    refine .array fun v hv => ?_
    obtain ⟨entries, mem, rfl⟩ := List.mem_map.mp (List.mem_reverse.mp hv)
    exact below (ih entries mem)

theorem AllWords.values (h : AllWords entries) : ∀ e ∈ values entries, e.2.Words := by
  rw [values_eq_map]
  exact List.forall_mem_map.mpr fun e mem => (h e mem).toValue

theorem AllWords.change {f : Option Entry → Option Entry} (h : AllWords entries)
    (step : ∀ old new, (∀ e ∈ old, e.Words) → f old = some new → new.Words)
    (eq : Entry.change k f entries = some changed) : AllWords changed := by
  induction entries generalizing changed with
  | nil =>
    obtain ⟨new, made, rfl⟩ := Option.map_eq_some_iff.mp eq
    exact List.forall_mem_singleton.mpr (step none new nofun made)
  | cons e rest ih =>
    obtain ⟨first, others⟩ := List.forall_mem_cons.mp h
    rw [Entry.change] at eq
    split at eq
    next =>
      obtain ⟨new, made, rfl⟩ := Option.map_eq_some_iff.mp eq
      refine List.forall_mem_cons.mpr ⟨step (some e) new ?_ made, others⟩
      exact fun old same => Option.some.inj same ▸ first
    next =>
      obtain ⟨later, made, rfl⟩ := Option.map_eq_some_iff.mp eq
      exact List.forall_mem_cons.mpr ⟨first, ih others made⟩

theorem AllWords.descend {f : Origin → List Entry → Option (List Entry)} (h : AllWords entries)
    (step : ∀ origin inner new, AllWords inner → f origin inner = some new → AllWords new)
    (eq : Entry.descend dotted f path origin entries = some changed) : AllWords changed := by
  induction path generalizing origin entries changed with
  | nil => exact step origin entries changed h eq
  | cons k path ih =>
    rw [Entry.descend] at eq
    refine h.change (fun old new words made => ?_) eq
    split at made
    next =>
      obtain ⟨inner, grown, rfl⟩ := Option.map_eq_some_iff.mp made
      exact .table _ _ (ih .nil grown)
    next =>
      cases words _ rfl with
      | table _ _ words =>
      obtain ⟨-, made⟩ := Option.ite_none_left_eq_some.mp made
      obtain ⟨inner, grown, rfl⟩ := Option.map_eq_some_iff.mp made
      exact .table _ _ (ih words grown)
    next last before =>
      cases words _ rfl with
      | elements _ words =>
      obtain ⟨first, others⟩ := List.forall_mem_cons.mp words
      obtain ⟨inner, grown, rfl⟩ := Option.map_eq_some_iff.mp made
      exact .elements _ (List.forall_mem_cons.mpr ⟨ih first grown, others⟩)
    next => cases made

theorem AllWords.assign (h : AllWords entries) (word : v.Words)
    (eq : Entry.assign path v entries = some changed) : AllWords changed := by
  unfold Entry.assign at eq
  split at eq
  next => cases eq
  next k before _ =>
    refine h.descend (fun origin inner new words made => ?_) eq
    obtain ⟨-, made⟩ := Option.ite_none_left_eq_some.mp made
    refine words.change (fun old new _ made => ?_) made
    split at made
    next => exact Option.some.inj made ▸ .value k word
    next => cases made

theorem AllWords.assignUnder (h : AllWords entries) (word : v.Words)
    (eq : Entry.assignUnder header path v entries = some changed) : AllWords changed :=
  h.descend (fun _ _ _ words made => words.assign word made) eq

theorem AllWords.atEnd {f : String → Option Entry → Option Entry} (h : AllWords entries)
    (step : ∀ k old new, (∀ e ∈ old, e.Words) → f k old = some new → new.Words)
    (eq : Entry.atEnd path f entries = some changed) : AllWords changed := by
  unfold Entry.atEnd at eq
  split at eq
  next => cases eq
  next k before _ => exact h.descend (fun _ _ _ words made => words.change (step k) made) eq

theorem AllWords.addTable (h : AllWords entries) (eq : Entry.addTable path entries = some changed) :
    AllWords changed := by
  refine h.atEnd (fun k old new words made => ?_) eq
  split at made
  next => exact Option.some.inj made ▸ .table _ _ nofun
  next =>
    cases words _ rfl with
    | table _ _ words => exact Option.some.inj made ▸ .table _ _ words
  next => cases made

theorem AllWords.addElement (h : AllWords entries) (eq : Entry.addElement path entries = some changed) :
    AllWords changed := by
  refine h.atEnd (fun k old new words made => ?_) eq
  split at made
  next => exact Option.some.inj made ▸ .elements _ (by simp)
  next =>
    cases words _ rfl with
    | elements _ words =>
      exact Option.some.inj made ▸ .elements _ (List.forall_mem_cons.mpr ⟨nofun, words⟩)
  next => cases made

end Entry

open Entry

/-- All whole numbers that are read with some fuel are words. -/
structure ReadsWords (fuel : Nat) : Prop where
  value : ∀ {depth cs v rest}, value? depth fuel cs = some (v, rest) → v.Words
  items : ∀ {depth cs items rest}, items? depth fuel cs = some (items, rest) → ∀ v ∈ items, v.Words
  pairs : ∀ {depth before cs entries rest}, AllWords before →
    pairs? depth fuel before cs = some (entries, rest) → AllWords entries

namespace ReadsWords

variable {depth fuel : Nat}

theorem value_succ (h : ReadsWords fuel) (read : value? depth (fuel + 1) cs = some (v, rest)) :
    v.Words := by
  rw [value?.eq_def] at read
  dsimp only at read
  split at read
  next =>
    obtain ⟨-, read⟩ := Option.ite_none_left_eq_some.mp read
    obtain ⟨⟨items, rest⟩, inner, eq⟩ := Option.map_eq_some_iff.mp read
    cases eq
    exact .array (h.items inner)
  next =>
    obtain ⟨-, read⟩ := Option.ite_none_left_eq_some.mp read
    split at read
    next =>
      cases read
      exact .table nofun
    next =>
      obtain ⟨⟨entries, rest⟩, inner, eq⟩ := Option.map_eq_some_iff.mp read
      cases eq
      exact .table (h.pairs .nil inner).values
  next =>
    split at read
    next =>
      obtain ⟨⟨s, rest⟩, -, eq⟩ := Option.map_eq_some_iff.mp read
      cases eq
      exact .string _
    next => exact words_of_unquoted? read
  next => cases read

theorem items_succ {items : List Toml} (h : ReadsWords fuel)
    (read : items? depth (fuel + 1) cs = some (items, rest)) : ∀ v ∈ items, v.Words := by
  rw [items?.eq_def] at read
  dsimp only at read
  split at read
  next =>
    cases read
    exact nofun
  next =>
    obtain ⟨⟨item, after⟩, first, read⟩ := Option.bind_eq_some_iff.mp read
    have words := h.value first
    dsimp only at read
    split at read
    next =>
      cases read
      exact List.forall_mem_singleton.mpr words
    next =>
      obtain ⟨⟨others, rest⟩, later, read⟩ := Option.bind_eq_some_iff.mp read
      cases read
      exact List.forall_mem_cons.mpr ⟨words, h.items later⟩
    next => cases read

theorem pairs_succ {before entries : List Entry} (h : ReadsWords fuel) (words : AllWords before)
    (read : pairs? depth (fuel + 1) before cs = some (entries, rest)) : AllWords entries := by
  rw [pairs?] at read
  obtain ⟨⟨path, after⟩, -, read⟩ := Option.bind_eq_some_iff.mp read
  dsimp only at read
  split at read
  next =>
    obtain ⟨⟨v, after⟩, value, read⟩ := Option.bind_eq_some_iff.mp read
    obtain ⟨assigned, made, read⟩ := Option.bind_eq_some_iff.mp read
    have words := words.assign (h.value value) made
    dsimp only at read
    split at read
    next =>
      cases read
      exact words
    next => exact h.pairs words read
    next => cases read
  next => cases read

end ReadsWords

theorem readsWords (fuel : Nat) : ReadsWords fuel := by
  induction fuel with
  | zero => exact ⟨nofun, nofun, nofun⟩
  | succ fuel ih => exact ⟨ih.value_succ, ih.items_succ, ih.pairs_succ⟩

theorem words_of_line? {d d' : Draft} (words : AllWords d.entries)
    (h : line? d cs = some (d', rest)) : AllWords d'.entries := by
  unfold line? at h
  split at h
  next =>
    obtain ⟨⟨path, after⟩, -, h⟩ := Option.bind_eq_some_iff.mp h
    obtain ⟨entries, made, h⟩ := Option.bind_eq_some_iff.mp h
    cases h
    exact words.addElement made
  next =>
    obtain ⟨⟨path, after⟩, -, h⟩ := Option.bind_eq_some_iff.mp h
    obtain ⟨entries, made, h⟩ := Option.bind_eq_some_iff.mp h
    cases h
    exact words.addTable made
  next =>
    split at h
    next =>
      cases h
      exact words
    next =>
      obtain ⟨⟨path, after⟩, -, h⟩ := Option.bind_eq_some_iff.mp h
      dsimp only at h
      obtain ⟨-, h⟩ := Option.ite_none_left_eq_some.mp h
      split at h
      next =>
        obtain ⟨⟨v, after⟩, read, h⟩ := Option.bind_eq_some_iff.mp h
        obtain ⟨behind, -, h⟩ := Option.bind_eq_some_iff.mp h
        obtain ⟨entries, made, h⟩ := Option.bind_eq_some_iff.mp h
        cases h
        exact words.assignUnder ((readsWords _).value read) made
      next => cases h

theorem words_of_lines? {fuel : Nat} {d : Draft} {entries : List Entry} (words : AllWords d.entries)
    (h : lines? fuel d cs = some entries) : AllWords entries := by
  induction fuel generalizing d cs with
  | zero =>
    cases cs with
    | nil => exact Option.some.inj h ▸ words
    | cons c cs => cases h
  | succ fuel ih =>
    cases cs with
    | nil => exact Option.some.inj h ▸ words
    | cons c cs =>
      obtain ⟨⟨next, rest⟩, read, h⟩ := Option.bind_eq_some_iff.mp h
      exact ih (words_of_line? words read) h

theorem words_of_ofText? {text : String} {entries : List (String × Toml)}
    (h : ofText? text = some entries) : ∀ e ∈ entries, e.2.Words := by
  obtain ⟨read, lines, rfl⟩ := Option.map_eq_some_iff.mp h
  exact AllWords.values (words_of_lines? .nil lines)

end CodeSurvey.Toml
