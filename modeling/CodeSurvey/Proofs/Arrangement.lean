import CodeSurvey.Json.Written
import CodeSurvey.Proofs.SortedMap

namespace CodeSurvey

namespace SortedMap

variable {α β : Type} {key : String} {a : α}

theorem insertEntry_perm {entries : List (String × α)} (new : key ∉ entries.map (·.1)) :
    (insertEntry key a entries).Perm ((key, a) :: entries) := by
  induction entries with
  | nil => exact .refl _
  | cons first rest ih =>
    obtain ⟨p, b⟩ := first
    rw [List.map_cons, List.mem_cons, not_or] at new
    rw [insertEntry]
    split
    next => exact .refl _
    next =>
      rw [if_neg new.1]
      exact ((ih new.2).cons _).trans (.swap ..)

theorem entries_foldl_insert (entries : List (String × α)) (m : SortedMap α) :
    (entries.foldl (fun m (key, a) => m.insert key a) m).entries =
      entries.foldl (fun before (key, a) => insertEntry key a before) m.entries := by
  induction entries generalizing m with
  | nil => rfl
  | cons first rest ih => exact ih _

theorem foldl_insertEntry_perm {entries : List (String × α)} (before : List (String × α))
    (distinct : ((before ++ entries).map (·.1)).Nodup) :
    (entries.foldl (fun before (key, a) => insertEntry key a before) before).Perm
      (before ++ entries) := by
  induction entries generalizing before with
  | nil => simp
  | cons first rest ih =>
    have shifted : (before ++ first :: rest).Perm ((first :: before) ++ rest) := List.perm_middle
    have new : first.1 ∉ before.map (·.1) := by
      simp only [List.map_append, List.map_cons, List.nodup_middle, List.nodup_cons, List.mem_append,
        not_or] at distinct
      exact distinct.1.1
    have placed : (insertEntry first.1 first.2 before).Perm (first :: before) := insertEntry_perm new
    have next := (placed.append_right rest).trans shifted.symm
    exact (ih _ (((next.map (·.1)).nodup_iff).mpr distinct)).trans next

theorem entries_ofList_perm {entries : List (String × α)} (distinct : (entries.map (·.1)).Nodup) :
    (ofList entries).entries.Perm entries := by
  rw [ofList, entries_foldl_insert]
  exact foldl_insertEntry_perm [] distinct

theorem insertEntry_map (f : α → β) (key : String) (a : α) (entries : List (String × α)) :
    insertEntry key (f a) (entries.map fun (key, a) => (key, f a)) =
      (insertEntry key a entries).map fun (key, a) => (key, f a) := by
  induction entries with
  | nil => rfl
  | cons first rest ih =>
    rw [List.map_cons, insertEntry, insertEntry, ih]
    split
    · rfl
    · split <;> rfl

theorem entries_ofList_map (f : α → β) (entries : List (String × α)) :
    (ofList (entries.map fun (key, a) => (key, f a))).entries =
      (ofList entries).entries.map fun (key, a) => (key, f a) := by
  have folded (before : List (String × α)) :
      (entries.map fun (key, a) => (key, f a)).foldl (fun before (key, b) => insertEntry key b before)
          (before.map fun (key, a) => (key, f a)) =
        (entries.foldl (fun before (key, a) => insertEntry key a before) before).map
          fun (key, a) => (key, f a) := by
    induction entries generalizing before with
    | nil => rfl
    | cons first rest ih =>
      obtain ⟨key, a⟩ := first
      rw [List.map_cons, List.foldl_cons, List.foldl_cons, ← ih]
      exact congrArg (List.foldl _ · _) (insertEntry_map f key a before)
  rw [ofList, ofList, entries_foldl_insert, entries_foldl_insert]
  exact folded []

theorem ofList_of_perm {m : SortedMap α} {entries : List (String × α)}
    (h : entries.Perm m.entries) : ofList entries = m := by
  have distinct : (entries.map (·.1)).Nodup := (h.map (·.1)).nodup_iff.mpr m.keys_nodup
  exact eq_of_entries (((entries_ofList_perm distinct).trans h).eq_of_pairwise
    (fun _ _ _ _ lt gt => absurd gt (String.lt_asymm lt)) (ofList entries).sorted m.sorted)

end SortedMap

/-- An order for the entries of maps and the members of objects, which only their keys decide. -/
structure Arrangement where
  arrange : {α : Type} → List (String × α) → List (String × α)
  perm : ∀ {α : Type} {entries : List (String × α)}, (entries.map (·.1)).Nodup →
    (arrange entries).Perm entries
  map : ∀ {α β : Type} (f : α → β) (entries : List (String × α)),
    arrange (entries.map fun (key, a) => (key, f a)) =
      (arrange entries).map fun (key, a) => (key, f a)

namespace Arrangement

variable {α : Type} {arrangement : Arrangement} {entries : List (String × α)}

def asWritten : Arrangement := ⟨id, fun _ => .refl _, fun _ _ => rfl⟩

@[simp] theorem arrange_asWritten (entries : List (String × α)) :
    asWritten.arrange entries = entries := rfl

def byKey : Arrangement :=
  ⟨fun entries => (SortedMap.ofList entries).entries, SortedMap.entries_ofList_perm,
    SortedMap.entries_ofList_map⟩

theorem arrange_nodup (h : (entries.map (·.1)).Nodup) :
    ((arrangement.arrange entries).map (·.1)).Nodup :=
  ((arrangement.perm h).map (·.1)).nodup_iff.mpr h

theorem ofList_arrange (m : SortedMap α) :
    SortedMap.ofList (arrangement.arrange m.entries) = m :=
  SortedMap.ofList_of_perm (arrangement.perm m.keys_nodup)

theorem byKey_of_sorted (h : entries.Pairwise (·.1 < ·.1)) : byKey.arrange entries = entries :=
  SortedMap.entries_ofList h

end Arrangement

end CodeSurvey
