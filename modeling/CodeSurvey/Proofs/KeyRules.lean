import CodeSurvey.Proofs.RulePatterns
import CodeSurvey.Proofs.WantedFiles
import Mathlib.Data.List.Pairwise

namespace CodeSurvey.Paths

variable {rule other : KeyRule} {folder folder' : Option String} {path file : String}

namespace KeyRule

/-- The names that a rule accepts in some folder, but for those of applications. -/
def names (rule : KeyRule) : List String :=
  rule.fileNames ++ rule.fileNamesIn.map (·.2) ++ if rule = readme then ["README.md"] else []

theorem names_distinct : (all.flatMap names).Nodup := by decide +kernel

theorem not_application_combine {stems endings : List String}
    (apart : ∀ ending ∈ endings, ¬ending.toList <:+ "Application.java".toList ∧
      ¬"Application.java".toList <:+ ending.toList) :
    ∀ name ∈ combine stems endings, isApplication name = false := by
  intro name mem
  obtain ⟨stem, -, mem⟩ := List.mem_flatMap.mp mem
  obtain ⟨ending, last, rfl⟩ := List.mem_map.mp mem
  obtain ⟨notLonger, notShorter⟩ := apart ending last
  refine Bool.eq_false_iff.mpr fun application => ?_
  have suffix := List.isSuffixOf_iff_suffix.mp (Bool.and_eq_true_iff.mp application).1
  rw [String.toList_append] at suffix
  exact (List.suffix_or_suffix_of_suffix (List.suffix_append _ _) suffix).elim notLonger notShorter

theorem names_not_application (rule : KeyRule) : ∀ name ∈ rule.names, isApplication name = false := by
  cases rule with
  | scriptEntry | frameworkConfig =>
    rw [names, if_neg (by decide), List.append_nil, fileNames]
    simp only [fileNamesIn, List.map_nil, List.append_nil]
    exact not_application_combine (by decide)
  | frameworkConvention =>
    rw [names, fileNames, fileNamesIn, if_neg (by decide), List.append_nil, List.nil_append,
      List.forall_mem_map, List.forall_mem_append, List.forall_mem_map, List.forall_mem_map]
    exact ⟨not_application_combine (by decide), not_application_combine (by decide)⟩
  | _ => decide

theorem eq_of_mem_names (h : file ∈ rule.names) (h' : file ∈ other.names) : rule = other := by
  have apart := (List.nodup_flatMap.mp names_distinct).2
  have symm : Std.Symm (Function.onFun List.Disjoint names) := ⟨fun _ _ h => h.symm⟩
  by_contra ne
  exact apart.forall rule.mem_all other.mem_all ne h h'

theorem mem_names_of_accepts (h : rule.accepts folder file = true) :
    file ∈ rule.names ∨ rule = jvm ∧ isApplication file = true := by
  rw [names, List.mem_append, List.mem_append, List.mem_map]
  rcases accepts_iff.mp h with named | ⟨dir, -, named⟩ | application | ⟨rfl, -, rfl⟩
  · exact .inl (.inl (.inl named))
  · exact .inl (.inl (.inr ⟨_, named, rfl⟩))
  · exact .inr application
  · exact .inl (.inr (by simp))

/-- The name of a file decides which rule can accept it, whatever its folder. -/
theorem eq_of_accepts (h : rule.accepts folder file = true)
    (h' : other.accepts folder' file = true) : rule = other := by
  have plain {rule : KeyRule} (named : file ∈ rule.names) : isApplication file = false :=
    names_not_application rule file named
  rcases mem_names_of_accepts h with named | ⟨rfl, application⟩
  · rcases mem_names_of_accepts h' with named' | ⟨-, application⟩
    · exact eq_of_mem_names named named'
    · exact absurd (plain named) (by simp [application])
  · rcases mem_names_of_accepts h' with named | ⟨rfl, -⟩
    · exact absurd (plain named) (by simp [application])
    · rfl

theorem exists_of_matchesPath (h : rule.matchesPath path = true) :
    ∃ file folders, (segments path).reverse = file :: folders ∧
      rule.accepts folders.head? file = true := by
  rw [matchesPath] at h
  split at h
  next file folders eq => exact ⟨file, folders, eq, h⟩
  next => cases h

theorem eq_of_matchesPath (h : rule.matchesPath path = true)
    (h' : other.matchesPath path = true) : rule = other := by
  obtain ⟨file, folders, eq, accepted⟩ := exists_of_matchesPath h
  obtain ⟨file', folders', eq', accepted'⟩ := exists_of_matchesPath h'
  obtain ⟨rfl, rfl⟩ := List.cons.inj (eq.symm.trans eq')
  exact eq_of_accepts accepted accepted'

end KeyRule

section Order

/-- The first of some rules that accepts a path. -/
def keyRuleOf? (rules : List KeyRule) (path : String) : Option KeyRule :=
  rules.find? (·.matchesPath path)

/-- The category of a path if the rules are tried in some order. -/
def classifyBy (rules : List KeyRule) (path : String) : FileCategory :=
  if (keyRuleOf? rules path).isSome then .key
  else if ".json".toList.isSuffixOf path.toList then .config
  else .other

theorem keyRuleOf?_eq_some_iff {rules : List KeyRule} :
    keyRuleOf? rules path = some rule ↔ rule ∈ rules ∧ rule.matchesPath path = true := by
  constructor
  · intro h
    unfold keyRuleOf? at h
    have matched := List.find?_some h
    exact ⟨List.mem_of_find?_eq_some h, matched⟩
  · rintro ⟨mem, matched⟩
    have found : (rules.find? (·.matchesPath path)).isSome = true :=
      List.find?_isSome.mpr ⟨rule, mem, matched⟩
    obtain ⟨first, eq⟩ := Option.isSome_iff_exists.mp found
    have accepted := List.find?_some eq
    rw [keyRuleOf?, eq, KeyRule.eq_of_matchesPath accepted matched]

theorem keyRule?_eq_some_iff : keyRule? path = some rule ↔ rule.matchesPath path = true :=
  keyRuleOf?_eq_some_iff.trans (and_iff_right rule.mem_all)

theorem keyRuleOf?_perm {rules : List KeyRule} (perm : rules.Perm KeyRule.all) (path : String) :
    keyRuleOf? rules path = keyRule? path := by
  apply Option.ext
  intro rule
  rw [keyRule?_eq_some_iff, keyRuleOf?_eq_some_iff, perm.mem_iff]
  exact and_iff_right rule.mem_all

/-- The paths that two rules describe are different ones, and the order of the rules is never
decisive. -/
theorem keyRules_apart (path : String) :
    (∀ rule : KeyRule, rule.matchesPath path = true ↔ path.toList ∈ rule.language) ∧
    (∀ rule other : KeyRule, rule.matchesPath path = true → other.matchesPath path = true →
      rule = other) ∧
    ∀ rules : List KeyRule, rules.Perm KeyRule.all →
      keyRuleOf? rules path = keyRule? path ∧ classifyBy rules path = classify path := by
  refine ⟨fun rule => KeyRule.matchesPath_iff rule path, fun _ _ => KeyRule.eq_of_matchesPath, ?_⟩
  intro rules perm
  have same := keyRuleOf?_perm perm path
  exact ⟨same, by rw [classifyBy, same, classify]⟩

theorem keyRules_apart_reversed :
    KeyRule.jvm.matchesPath "api/OrderApplication.java" = true ∧
      (∀ other : KeyRule, other.matchesPath "api/OrderApplication.java" = true → .jvm = other) ∧
      KeyRule.all.reverse.Perm KeyRule.all ∧
      keyRuleOf? KeyRule.all.reverse "api/OrderApplication.java" =
        keyRule? "api/OrderApplication.java" ∧
      classifyBy KeyRule.all.reverse "api/OrderApplication.java" =
        classify "api/OrderApplication.java" := by
  have matched : KeyRule.jvm.matchesPath "api/OrderApplication.java" = true := by decide
  obtain ⟨-, unique, order⟩ := keyRules_apart "api/OrderApplication.java"
  exact ⟨matched, fun other => unique .jvm other matched, List.reverse_perm _,
    order _ (List.reverse_perm _)⟩

end Order

section Nesting

theorem suffix_below_iff {ending : List Char} (plain : '/' ∉ ending) (above path : String) :
    ending <:+ (above ++ "/" ++ path).toList ↔ ending <:+ path.toList := by
  constructor
  · intro h
    obtain ⟨file, folders, eq⟩ := List.exists_cons_of_ne_nil
      (mt List.reverse_eq_nil_iff.mp (segments_ne_nil path))
    have below : (segments (above ++ "/" ++ path)).reverse =
        file :: (folders ++ (segments above).reverse) := by
      rw [segments_append, List.reverse_append, eq, List.cons_append]
    have last := suffix_name plain below h
    rcases name_suffix eq with rfl | within
    · exact last
    · exact last.trans ((List.suffix_cons _ _).trans within)
  · intro h
    rw [String.toList_append]
    exact h.trans (List.suffix_append _ _)

theorem matchesPath_below (nested : 2 ≤ (segments path).length) (above : String) (rule : KeyRule) :
    rule.matchesPath (above ++ "/" ++ path) = rule.matchesPath path := by
  rw [← List.length_reverse] at nested
  rw [KeyRule.matchesPath, KeyRule.matchesPath, segments_append, List.reverse_append]
  rcases h : (segments path).reverse with _ | ⟨file, _ | ⟨folder, folders⟩⟩
  · simp [h] at nested
  · simp [h] at nested
  · rfl

theorem KeyRule.accepts_of_none (ne : rule ≠ .readme) (h : rule.accepts none file = true)
    (folder : Option String) : rule.accepts folder file = true := by
  rw [accepts_iff] at h ⊢
  rcases h with named | ⟨dir, none, -⟩ | application | ⟨alone, -⟩
  · exact .inl named
  · cases none
  · exact .inr (.inr (.inl application))
  · exact absurd alone ne

theorem matchesPath_below_of_ne (ne : rule ≠ .readme) (h : rule.matchesPath path = true)
    (above : String) : rule.matchesPath (above ++ "/" ++ path) = true := by
  obtain ⟨file, folders, eq, accepted⟩ := KeyRule.exists_of_matchesPath h
  cases folders with
  | nil =>
    rw [KeyRule.matchesPath, segments_append, List.reverse_append, eq]
    exact KeyRule.accepts_of_none ne accepted _
  | cons folder folders =>
    have nested : 2 ≤ (segments path).length := by
      rw [← List.length_reverse, eq, List.length_cons, List.length_cons]
      omega
    rw [matchesPath_below nested, h]

theorem eq_of_matchesPath_readme (h : KeyRule.readme.matchesPath path = true) :
    (segments path).reverse = ["README.md"] := by
  obtain ⟨file, folders, eq, accepted⟩ := KeyRule.exists_of_matchesPath h
  rcases KeyRule.accepts_iff.mp accepted with named | ⟨dir, -, named⟩ | ⟨other, -⟩ | ⟨-, alone, rfl⟩
  · cases named
  · cases named
  · cases other
  · rw [eq, List.head?_eq_none_iff.mp alone]

theorem keyRule?_below_readme (h : KeyRule.readme.matchesPath path = true) (above : String) :
    keyRule? (above ++ "/" ++ path) = none := by
  have alone := eq_of_matchesPath_readme h
  rw [Option.eq_none_iff_forall_ne_some]
  intro rule found
  obtain ⟨file, folders, eq, accepted⟩ := KeyRule.exists_of_matchesPath (keyRule?_eq_some_iff.mp found)
  rw [segments_append, List.reverse_append, alone] at eq
  obtain ⟨rfl, rfl⟩ := List.cons.inj eq
  have kept : KeyRule.readme.accepts none "README.md" = true := by decide
  obtain rfl := KeyRule.eq_of_accepts accepted kept
  rcases KeyRule.accepts_iff.mp accepted with named | ⟨dir, -, named⟩ | ⟨other, -⟩ | ⟨-, alone, -⟩
  · cases named
  · cases named
  · cases other
  · exact segments_ne_nil above (List.reverse_eq_nil_iff.mp (List.head?_eq_none_iff.mp alone))

theorem isSuffixOf_below {ending : List Char} (plain : '/' ∉ ending) (above path : String) :
    ending.isSuffixOf (above ++ "/" ++ path).toList = ending.isSuffixOf path.toList := by
  rw [Bool.eq_iff_iff, List.isSuffixOf_iff_suffix, List.isSuffixOf_iff_suffix]
  exact suffix_below_iff plain above path

/-- Folders above a path change neither its rule nor its category as long as it has a folder of its
own. Without one, only the rule for the file that stands alone is lost. -/
theorem keyRule?_below (above path : String) :
    (2 ≤ (segments path).length →
      (∀ rule : KeyRule, (above ++ "/" ++ path).toList ∈ rule.language ↔
        path.toList ∈ rule.language) ∧
      keyRule? (above ++ "/" ++ path) = keyRule? path ∧
      classify (above ++ "/" ++ path) = classify path) ∧
    (∀ rule, rule ≠ .readme → keyRule? path = some rule →
      keyRule? (above ++ "/" ++ path) = some rule) ∧
    (keyRule? path = some .readme → classify (above ++ "/" ++ path) = .other) := by
  refine ⟨fun nested => ?_, fun rule ne found => ?_, fun found => ?_⟩
  · have same := matchesPath_below nested above
    have rules : keyRule? (above ++ "/" ++ path) = keyRule? path := by
      simp only [keyRule?, same]
    refine ⟨fun rule => ?_, rules, ?_⟩
    · rw [← KeyRule.matchesPath_iff, ← KeyRule.matchesPath_iff, same]
    · rw [classify, classify, rules, isSuffixOf_below (by decide)]
  · rw [keyRule?_eq_some_iff] at found ⊢
    exact matchesPath_below_of_ne ne found above
  · have matched := keyRule?_eq_some_iff.mp found
    have alone : path = "README.md" := by
      have parts := eq_of_matchesPath_readme matched
      rw [← joined_segments path, ← List.reverse_reverse (segments path), parts]
      exact joined_singleton _
    rw [classify, keyRule?_below_readme matched, isSuffixOf_below (by decide), alone]
    decide

theorem keyRule?_below_folders :
    2 ≤ (segments "pages/_app.tsx").length ∧
      keyRule? "site/pages/_app.tsx" = keyRule? "pages/_app.tsx" ∧
      classify "site/pages/_app.tsx" = classify "pages/_app.tsx" ∧
      keyRule? "go.mod" = some .go ∧ keyRule? "api/v2/go.mod" = some .go ∧
      keyRule? "README.md" = some .readme ∧ classify "/README.md" = .other := by
  have nested : 2 ≤ (segments "pages/_app.tsx").length := by decide
  have go : keyRule? "go.mod" = some .go := by decide
  have readme : keyRule? "README.md" = some .readme := by decide
  obtain ⟨-, rule, category⟩ := (keyRule?_below "site" "pages/_app.tsx").1 nested
  exact ⟨nested, rule, category, go, (keyRule?_below "api/v2" "go.mod").2.1 .go nofun go, readme,
    (keyRule?_below "" "README.md").2.2 readme⟩

end Nesting

end CodeSurvey.Paths
