import CodeSurvey.Paths.Components
import CodeSurvey.Proofs.Segments
import Mathlib.Data.List.Basic

namespace CodeSurvey.Paths

structure IsName (name : String) : Prop where
  plain : '/' ∉ name.toList
  step : isStep name = true
  down : name ≠ ".."

instance (name : String) : Decidable (IsName name) :=
  decidable_of_iff ('/' ∉ name.toList ∧ isStep name = true ∧ name ≠ "..")
    ⟨fun h => ⟨h.1, h.2.1, h.2.2⟩, fun h => ⟨h.plain, h.step, h.down⟩⟩

variable {folder name path : String} {names : List String}

theorem isAbsolute_append (ne : folder ≠ "") (rest : String) :
    isAbsolute (folder ++ rest) = isAbsolute folder := by
  have start : folder.toList ≠ [] := mt String.toList_eq_nil_iff.mp ne
  rw [isAbsolute, isAbsolute, String.toList_append, List.head?_append_of_ne_nil _ start]

theorem IsName.isAbsolute_eq_false (named : IsName name) : isAbsolute name = false :=
  decide_eq_false fun first => named.plain (List.mem_of_mem_head? first)

theorem segments_push (named : IsName name) (ne : folder ≠ "") :
    ∃ above rest, above ≠ [] ∧ (∀ segment ∈ rest, segment = "") ∧ segments folder = above ++ rest ∧
      segments (push folder name) = above ++ [name] ∧
      isAbsolute (push folder name) = isAbsolute folder := by
  rw [push, named.isAbsolute_eq_false, if_neg Bool.false_ne_true, decide_eq_false ne, Bool.false_or]
  split
  next slash =>
    obtain ⟨before, eq⟩ := List.getLast?_eq_some_iff.mp (of_decide_eq_true slash)
    have whole : (folder ++ name).toList = before ++ '/' :: name.toList := by simp [eq]
    refine ⟨_, segments (String.ofList []), segments_ne_nil _, ?_, segments_of_slash eq, ?_,
      isAbsolute_append ne name⟩
    · decide
    · rw [segments_of_slash whole, String.ofList_toList, segments_of_notMem named.plain]
  next =>
    refine ⟨segments folder, [], segments_ne_nil _, nofun, (List.append_nil _).symm, ?_, ?_⟩
    · rw [segments_append, segments_of_notMem named.plain]
    · rw [String.append_assoc, isAbsolute_append ne]

theorem push_empty (named : IsName name) : push "" name = name := by
  rw [push, named.isAbsolute_eq_false, if_neg Bool.false_ne_true]
  exact String.empty_append

theorem steps_push (named : IsName name) (folder : String) :
    (segments (push folder name)).filter isStep = (segments folder).filter isStep ++ [name] := by
  have last : [name].filter isStep = [name] := List.filter_cons_of_pos named.step
  by_cases empty : folder = ""
  · rw [empty, push_empty named, segments_of_notMem named.plain, last]
    rfl
  · obtain ⟨above, rest, -, none, eq, pushed, -⟩ := segments_push named empty
    have skipped : rest.filter isStep = [] :=
      List.filter_eq_nil_iff.mpr fun segment mem => by rw [none segment mem]; decide
    rw [eq, pushed, List.filter_append, List.filter_append, last, skipped, List.append_nil]

theorem beginning_push (named : IsName name) (folder : String) :
    beginning (push folder name) = beginning folder := by
  by_cases empty : folder = ""
  · have other : ¬some name = some "." := fun dot => by
      rw [Option.some.inj dot] at named
      exact absurd named.step (by decide)
    rw [empty, push_empty named, beginning, named.isAbsolute_eq_false,
      segments_of_notMem named.plain, List.head?_cons, if_neg other]
    rfl
  · obtain ⟨above, rest, ne, -, eq, pushed, absolute⟩ := segments_push named empty
    rw [beginning, beginning, absolute, eq, pushed, List.head?_append_of_ne_nil _ ne,
      List.head?_append_of_ne_nil _ ne]

theorem components_push (named : IsName name) (folder : String) :
    components (push folder name) = components folder ++ [.name name] := by
  rw [components, components, beginning_push named, steps_push named, List.map_append,
    List.append_assoc, List.map_singleton, Component.ofStep, if_neg named.down]

theorem components_walked (named : ∀ name ∈ names, IsName name) (root : String) :
    components (walked root names) = components root ++ names.map .name := by
  induction names generalizing root with
  | nil => exact (List.append_nil _).symm
  | cons name names ih =>
    obtain ⟨first, named⟩ := List.forall_mem_cons.mp named
    rw [walked, List.foldl_cons]
    refine (ih named (push root name)).trans ?_
    rw [components_push first, List.append_assoc, List.singleton_append, List.map_cons]

/-- However a root is written, what is left of a path behind it are the names that lead there. -/
theorem relative_walked (named : ∀ name ∈ names, IsName name) (root : String) :
    relative root (walked root names) = joined names := by
  have below : (components root).isPrefixOf (components root ++ names.map .name) = true :=
    List.isPrefixOf_iff_prefix.mpr (List.prefix_append _ _)
  have texts : (names.map Component.name).map Component.text = names := by
    rw [List.map_map]
    exact List.map_id names
  rw [relative, components_walked named, if_pos below, List.drop_left, texts, joined]

theorem fileName?_push (named : IsName name) (folder : String) :
    fileName? (push folder name) = some name := by
  rw [fileName?, steps_push named, List.getLast?_concat]
  split
  next eq => exact absurd (Option.some.inj eq) named.down
  next => rfl

theorem fileName?_walked (named : ∀ name ∈ names, IsName name) (root : String) :
    fileName? (walked root names) = (names.getLast? <|> fileName? root) := by
  cases last : names.getLast? with
  | none =>
    rw [List.getLast?_eq_none_iff.mp last]
    rfl
  | some name =>
    obtain ⟨above, rfl⟩ := List.getLast?_eq_some_iff.mp last
    rw [walked, List.foldl_concat]
    exact fileName?_push (named name (List.mem_append_right _ List.mem_cons_self)) _

example : relative "/a/../b//" (walked "/a/../b//" ["c", "d.js"]) = "c/d.js" := by decide +kernel

example : relative "a" "b/c" = "b/c" := by decide +kernel

end CodeSurvey.Paths
