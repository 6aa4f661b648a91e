import CodeSurvey.Collection.SortedMap
import Mathlib.Data.List.Nodup

namespace CodeSurvey.SortedMap

variable {α β : Type} {m : SortedMap α} {key : String} {a : α}

theorem eq_of_entries {m m' : SortedMap α} (h : m.entries = m'.entries) : m = m' := by
  cases m
  cases m'
  cases h
  rfl

theorem keys_sorted (m : SortedMap α) : m.keys.Pairwise (· < ·) :=
  List.pairwise_map.mpr m.sorted

theorem keys_nodup (m : SortedMap α) : (m.entries.map (·.1)).Nodup :=
  m.keys_sorted.imp fun lt => String.ne_of_lt lt

theorem sorted_texts_unique {xs ys : List String} (hx : xs.Pairwise (· < ·))
    (hy : ys.Pairwise (· < ·)) (same : ∀ x, x ∈ xs ↔ x ∈ ys) : xs = ys := by
  have irreflexive : ∀ {zs : List String}, zs.Pairwise (· < ·) → zs.Nodup := fun h =>
    h.imp (fun lt => String.ne_of_lt lt)
  have perm : xs.Perm ys :=
    (List.perm_ext_iff_of_nodup (irreflexive hx) (irreflexive hy)).mpr same
  exact perm.eq_of_pairwise (fun a b _ _ hab hba => absurd hba (String.lt_asymm hab)) hx hy

theorem mem_keys : key ∈ m.keys ↔ ∃ a, (key, a) ∈ m.entries := by
  simp [keys]

theorem find?_of_nodup {entries : List (String × α)} (distinct : (entries.map (·.1)).Nodup)
    (h : (key, a) ∈ entries) : entries.find? (·.1 = key) = some (key, a) := by
  obtain ⟨e, found⟩ := Option.isSome_iff_exists.mp
    (List.find?_isSome.mpr ⟨(key, a), h, decide_eq_true rfl⟩ :
      (entries.find? (·.1 = key)).isSome)
  have same : e.1 = key := by simpa using List.find?_some found
  rw [found, List.inj_on_of_nodup_map distinct (List.mem_of_find?_eq_some found) h same]

theorem get?_eq_some_iff : m.get? key = some a ↔ (key, a) ∈ m.entries := by
  constructor
  · intro h
    obtain ⟨⟨p, b⟩, found, rfl⟩ := Option.map_eq_some_iff.mp h
    have eq : p = key := by simpa using List.find?_some found
    exact eq ▸ List.mem_of_find?_eq_some found
  · intro h
    rw [get?, find?_of_nodup m.keys_nodup h]
    rfl

theorem mem_keys_iff_get? : key ∈ m.keys ↔ ∃ a, m.get? key = some a := by
  simp only [mem_keys, get?_eq_some_iff]

theorem contains_iff : m.contains key = true ↔ key ∈ m.keys := by
  simp [contains, mem_keys]

theorem get?_filterMap (f : String → α → Option β) :
    (m.filterMap f).get? key = (m.get? key).bind (f key) := by
  ext b
  rw [get?_eq_some_iff, Option.bind_eq_some_iff]
  constructor
  · intro h
    obtain ⟨⟨p, a⟩, ha, hb⟩ := List.mem_filterMap.mp h
    obtain ⟨b', hf, eq⟩ := Option.map_eq_some_iff.mp hb
    obtain ⟨rfl, rfl⟩ := Prod.mk.inj eq
    exact ⟨a, get?_eq_some_iff.mpr ha, hf⟩
  · rintro ⟨a, ha, hf⟩
    exact List.mem_filterMap.mpr ⟨(key, a), get?_eq_some_iff.mp ha, by simp [hf]⟩

theorem mem_insertEntry_self (key : String) (a : α) (entries : List (String × α)) :
    (key, a) ∈ insertEntry key a entries := by
  induction entries with
  | nil => simp [insertEntry]
  | cons first rest ih =>
    rw [insertEntry]
    split
    · simp
    · split
      · simp
      · exact List.mem_cons_of_mem _ ih

theorem mem_insertEntry_of_ne {e : String × α} {entries : List (String × α)}
    (he : e ∈ entries) (ne : e.1 ≠ key) : e ∈ insertEntry key a entries := by
  induction entries with
  | nil => cases he
  | cons first rest ih =>
    rw [insertEntry]
    split
    · exact List.mem_cons_of_mem _ he
    · split
      next eq =>
        rcases List.mem_cons.mp he with rfl | he
        · exact absurd eq.symm ne
        · exact List.mem_cons_of_mem _ he
      next =>
        rcases List.mem_cons.mp he with rfl | he
        · exact List.mem_cons_self
        · exact List.mem_cons_of_mem _ (ih he)

theorem mem_keys_insert {other : String} :
    other ∈ (m.insert key a).keys ↔ other = key ∨ other ∈ m.keys := by
  simp only [mem_keys]
  constructor
  · rintro ⟨b, hb⟩
    rcases mem_insertEntry hb with eq | hb
    · exact .inl (Prod.mk.inj eq).1
    · exact .inr ⟨b, hb⟩
  · rintro (rfl | ⟨b, hb⟩)
    · exact ⟨a, mem_insertEntry_self ..⟩
    · by_cases eq : other = key
      · subst eq
        exact ⟨a, mem_insertEntry_self ..⟩
      · exact ⟨b, mem_insertEntry_of_ne hb eq⟩

theorem mem_keys_foldl_insert (entries : List (String × α)) (m : SortedMap α) :
    key ∈ (entries.foldl (fun m (p, a) => m.insert p a) m).keys ↔
      key ∈ m.keys ∨ key ∈ entries.map (·.1) := by
  induction entries generalizing m with
  | nil => simp
  | cons first rest ih =>
    rw [List.foldl_cons, ih, mem_keys_insert, List.map_cons, List.mem_cons]
    grind

theorem mem_keys_ofList (entries : List (String × α)) :
    key ∈ (ofList entries).keys ↔ key ∈ entries.map (·.1) := by
  rw [ofList, mem_keys_foldl_insert]
  exact or_iff_right (List.not_mem_nil (a := key))

theorem insertEntry_of_greatest {entries : List (String × α)}
    (greatest : ∀ e ∈ entries, e.1 < key) : insertEntry key a entries = entries ++ [(key, a)] := by
  induction entries with
  | nil => rfl
  | cons first rest ih =>
    obtain ⟨p, b⟩ := first
    have lt : p < key := greatest (p, b) List.mem_cons_self
    rw [insertEntry, if_neg (String.lt_asymm lt), if_neg (String.ne_of_lt lt).symm,
      ih fun e he => greatest e (List.mem_cons_of_mem _ he), List.cons_append]

theorem foldl_insert_of_sorted (entries : List (String × α)) (m : SortedMap α)
    (h : (m.entries ++ entries).Pairwise (·.1 < ·.1)) :
    (entries.foldl (fun m (p, a) => m.insert p a) m).entries = m.entries ++ entries := by
  induction entries generalizing m with
  | nil => simp
  | cons first rest ih =>
    have placed : (m.insert first.1 first.2).entries = m.entries ++ [first] :=
      insertEntry_of_greatest fun e he => (List.pairwise_append.mp h).2.2 e he _ List.mem_cons_self
    rw [List.foldl_cons, ih _ (by rw [placed]; simpa using h), placed]
    simp

theorem entries_ofList {entries : List (String × α)} (h : entries.Pairwise (·.1 < ·.1)) :
    (ofList entries).entries = entries :=
  foldl_insert_of_sorted entries {} h

theorem get?_ofList_singleton {p : String} {b : α} :
    (ofList [(p, b)]).get? key = some a ↔ key = p ∧ a = b := by
  rw [get?_eq_some_iff, ← Prod.mk.injEq]
  exact List.mem_singleton

end CodeSurvey.SortedMap
