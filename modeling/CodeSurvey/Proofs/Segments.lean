import CodeSurvey.Paths.Segments
import Mathlib.Data.List.Basic

namespace CodeSurvey.Text

theorem toList_pushn (s : String) (c : Char) (n : Nat) :
    (s.pushn c n).toList = s.toList ++ List.replicate n c := by
  rw [String.pushn_eq_repeat_push]
  induction n with
  | zero => rw [Nat.repeat, List.replicate_zero, List.append_nil]
  | succ n ih => rw [Nat.repeat, String.toList_push, ih, List.replicate_succ', List.append_assoc]

theorem splitWhere_cons (mark : Char → Bool) (c : Char) (cs : List Char) :
    splitWhere mark (c :: cs) =
      if mark c then [] :: splitWhere mark cs else extendFirst c (splitWhere mark cs) := rfl

theorem splitWhere_eq_splitOn (mark : Char) (cs : List Char) :
    splitWhere (· = mark) cs = cs.splitOn mark := by
  induction cs with
  | nil => rfl
  | cons c cs ih =>
    obtain ⟨part, parts, hp⟩ := List.exists_cons_of_ne_nil (List.splitOn_ne_nil mark cs)
    rw [splitWhere_cons, List.splitOn_cons_eq_if_modifyHead, ih, hp]
    by_cases h : c = mark <;> simp [h, extendFirst]

theorem splitWhere_ne_nil (mark : Char → Bool) (cs : List Char) : splitWhere mark cs ≠ [] := by
  cases cs with
  | nil => exact List.cons_ne_nil _ _
  | cons c cs =>
    rw [splitWhere_cons]
    split
    next => exact List.cons_ne_nil _ _
    next => cases splitWhere mark cs <;> exact List.cons_ne_nil _ _

theorem unmarked_of_mem_splitWhere {mark : Char → Bool} {cs part : List Char}
    (h : part ∈ splitWhere mark cs) : ∀ c ∈ part, mark c = false := by
  induction cs generalizing part with
  | nil =>
    have eq : part = [] := by simpa [splitWhere] using h
    simp [eq]
  | cons c cs ih =>
    obtain ⟨first, parts, hp⟩ := List.exists_cons_of_ne_nil (splitWhere_ne_nil mark cs)
    rw [splitWhere_cons, hp] at h
    rw [hp] at ih
    split at h
    next =>
      rcases List.mem_cons.mp h with rfl | h
      · exact nofun
      · exact ih h
    next hc =>
      rcases List.mem_cons.mp h with rfl | h
      · exact List.forall_mem_cons.mpr ⟨Bool.eq_false_iff.mpr hc, ih List.mem_cons_self⟩
      · exact ih (List.mem_cons_of_mem _ h)

theorem mem_of_mem_splitWhere {mark : Char → Bool} {cs part : List Char}
    (h : part ∈ splitWhere mark cs) : ∀ c ∈ part, c ∈ cs := by
  induction cs generalizing part with
  | nil =>
    have eq : part = [] := by simpa [splitWhere] using h
    simp [eq]
  | cons d cs ih =>
    obtain ⟨first, parts, hp⟩ := List.exists_cons_of_ne_nil (splitWhere_ne_nil mark cs)
    rw [splitWhere_cons, hp] at h
    rw [hp] at ih
    have later : ∀ part ∈ first :: parts, ∀ c ∈ part, c ∈ d :: cs :=
      fun part mem c hc => List.mem_cons_of_mem _ (ih mem c hc)
    split at h
    next =>
      rcases List.mem_cons.mp h with rfl | h
      · exact nofun
      · exact later part h
    next =>
      rcases List.mem_cons.mp h with rfl | h
      · exact List.forall_mem_cons.mpr ⟨List.mem_cons_self, later first List.mem_cons_self⟩
      · exact later part (List.mem_cons_of_mem _ h)

theorem notMem_of_mem_splitWhere {mark : Char} {cs part : List Char}
    (h : part ∈ splitWhere (· = mark) cs) : mark ∉ part := fun mem => by
  simpa using unmarked_of_mem_splitWhere h mark mem

theorem splitWhere_append_cons {mark : Char → Bool} {c : Char} (marked : mark c = true)
    (xs ys : List Char) :
    splitWhere mark (xs ++ c :: ys) = splitWhere mark xs ++ splitWhere mark ys := by
  induction xs with
  | nil =>
    rw [List.nil_append, splitWhere_cons, if_pos marked]
    rfl
  | cons d xs ih =>
    obtain ⟨first, rest, eq⟩ := List.exists_cons_of_ne_nil (splitWhere_ne_nil mark xs)
    rw [List.cons_append, splitWhere_cons, splitWhere_cons, ih, eq]
    split <;> rfl

theorem lines_append_break (xs ys : List Char) :
    lines (xs ++ '\n' :: ys) = lines xs ++ lines ys :=
  splitWhere_append_cons (by decide) xs ys

theorem lines_append {xs : List Char} (plain : '\n' ∉ xs) (ys : List Char) :
    ∃ first rest, lines ys = first :: rest ∧ lines (xs ++ ys) = (xs ++ first) :: rest := by
  induction xs with
  | nil =>
    obtain ⟨first, rest, eq⟩ := List.exists_cons_of_ne_nil
      (splitWhere_ne_nil (· = '\n') ys)
    exact ⟨first, rest, eq, eq⟩
  | cons c cs ih =>
    obtain ⟨other, plain⟩ := not_or.mp (mt List.mem_cons.mpr plain)
    obtain ⟨first, rest, eq, whole⟩ := ih plain
    refine ⟨first, rest, eq, ?_⟩
    unfold lines at whole ⊢
    rw [List.cons_append, splitWhere_cons, whole, if_neg (by simpa using Ne.symm other)]
    rfl

theorem lines_of_notMem {xs : List Char} (plain : '\n' ∉ xs) : lines xs = [xs] := by
  obtain ⟨first, rest, eq, whole⟩ := lines_append plain []
  obtain ⟨rfl, rfl⟩ : [] = first ∧ [] = rest := by simpa [lines, splitWhere] using eq
  simpa using whole

end CodeSurvey.Text

namespace CodeSurvey.Paths

open Text

theorem segments_ne_nil (path : String) : segments path ≠ [] := by
  simp [segments, splitWhere_eq_splitOn]

theorem slash_notMem_segment {path segment : String} (h : segment ∈ segments path) :
    '/' ∉ segment.toList := by
  obtain ⟨part, hp, rfl⟩ := List.mem_map.mp h
  rw [String.toList_ofList]
  exact notMem_of_mem_splitWhere hp

theorem mem_of_mem_segment {path segment : String} (h : segment ∈ segments path) :
    ∀ c ∈ segment.toList, c ∈ path.toList := by
  obtain ⟨part, hp, rfl⟩ := List.mem_map.mp h
  rw [String.toList_ofList]
  exact mem_of_mem_splitWhere hp

theorem segments_of_slash {key : String} {before behind : List Char}
    (h : key.toList = before ++ '/' :: behind) :
    segments key = segments (String.ofList before) ++ segments (String.ofList behind) := by
  rw [segments, h, splitWhere_append_cons (by decide), List.map_append, segments, segments,
    String.toList_ofList, String.toList_ofList]

theorem segments_append (folder path : String) :
    segments (folder ++ "/" ++ path) = segments folder ++ segments path := by
  have split : (folder ++ "/" ++ path).toList = folder.toList ++ '/' :: path.toList := by simp
  rw [segments_of_slash split, String.ofList_toList, String.ofList_toList]

def joined (path : List String) : String := "/".intercalate path

theorem joined_singleton (name : String) : joined [name] = name := String.intercalate_singleton

theorem joined_cons {name : String} {rest : List String} (ne : rest ≠ []) :
    joined (name :: rest) = name ++ "/" ++ joined rest := by
  obtain ⟨second, rest, rfl⟩ := List.exists_cons_of_ne_nil ne
  rw [joined, String.intercalate_cons_cons, joined]

theorem joined_append {p q : List String} (hp : p ≠ []) (hq : q ≠ []) :
    joined (p ++ q) = joined p ++ "/" ++ joined q := by
  induction p with
  | nil => exact absurd rfl hp
  | cons name p ih =>
    rw [List.cons_append, joined_cons (List.append_ne_nil_of_right_ne_nil p hq)]
    by_cases more : p = []
    · subst more
      simp [joined]
    · rw [ih more, joined_cons more]
      simp only [String.append_assoc]

theorem toList_joined (path : List String) :
    (joined path).toList = ['/'].intercalate (path.map String.toList) := by
  rw [joined, String.toList_intercalate]
  rfl

theorem joined_segments (path : String) : joined (segments path) = path := by
  rw [← String.toList_inj, toList_joined, segments, List.map_map, splitWhere_eq_splitOn]
  simp [Function.comp_def]

theorem segments_joined {path : List String} (ne : path ≠ [])
    (h : ∀ segment ∈ path, '/' ∉ segment.toList) : segments (joined path) = path := by
  rw [segments, toList_joined, splitWhere_eq_splitOn, List.splitOn_intercalate, List.map_map]
  · simp [Function.comp_def]
  · simpa using h
  · simpa using ne

theorem segments_of_notMem {name : String} (plain : '/' ∉ name.toList) : segments name = [name] := by
  have parts := segments_joined (List.cons_ne_nil name []) (by simpa using plain)
  rwa [joined_singleton] at parts

end CodeSurvey.Paths
