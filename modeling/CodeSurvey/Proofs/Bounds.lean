import CodeSurvey.Project.Document
import CodeSurvey.Proofs.Decoding
import CodeSurvey.Proofs.JsonValues
import CodeSurvey.Proofs.Outline
import CodeSurvey.Proofs.Structure

namespace CodeSurvey

namespace Script

variable {source : Source} {n : Node} {survey : FileSurvey} {path content : String}
  {parser : Parser}

theorem FunctionRecord.Bounded.of_node {f : FunctionRecord}
    (h : functionRecord? source n = some f) : f.Bounded := by
  obtain ⟨name, -, rfl⟩ := Option.map_eq_some_iff.mp h
  exact ⟨UInt32.toNat_lt _, UInt32.toNat_lt _⟩

theorem bounded_note (top : Bool) (h : ∀ f ∈ survey.functions, f.Bounded) :
    ∀ f ∈ (note source top n survey).functions, f.Bounded := by
  unfold note
  split
  · exact h
  split
  · exact h
  split
  · intro f hf
    rcases List.mem_append.mp hf with hf | hf
    · exact h f hf
    · exact .of_node (Option.mem_toList.mp hf)
  split
  · exact h
  split
  · exact h
  · exact h

theorem bounded_walk (top : Bool) (n : Node) (h : ∀ f ∈ survey.functions, f.Bounded) :
    ∀ f ∈ (walk source top n survey).functions, f.Bounded :=
  walk_induction (motive := fun survey => ∀ f ∈ survey.functions, f.Bounded)
    (fun top _ _ => bounded_note top) top n h

theorem FileSurvey.bounded_empty : FileSurvey.Bounded {} := ⟨nofun, by decide⟩

theorem surveyFile_bounded (path content : String) (parser : Parser) :
    (surveyFile path content parser).Bounded := by
  unfold surveyFile
  split
  · split
    next result h =>
      obtain ⟨root, -, rfl⟩ := Digest.survey_eq_ok_iff.mp h
      exact ⟨bounded_walk true root nofun, UInt32.toNat_lt _⟩
    · exact FileSurvey.bounded_empty
  · exact ⟨nofun, show 1 < countBound by decide⟩

end Script

namespace Project

open Script

variable {files : SortedMap FileSurvey} {s : Structure} {p : ProjectSurvey}

theorem distinct_dependencies (files : SortedMap FileSurvey) :
    (totals files).dependencies.Distinct := by
  rw [dependencies_eq_ofEntries]
  exact ImportIndex.distinct_ofEntries _

theorem finite_average (sum count : Nat) : (average sum count).Finite := by
  have zero : Binary64.zero.Finite := ⟨by decide, by decide⟩
  rw [average]
  cases h : (do (← Binary64.ofNat sum).div (← Binary64.ofNat count) : Option Binary64) with
  | none => exact zero
  | some x =>
    obtain ⟨a, -, h⟩ := Option.bind_eq_some_iff.mp h
    obtain ⟨b, -, h⟩ := Option.bind_eq_some_iff.mp h
    exact .of_div h

theorem totals_bounded (files : SortedMap FileSurvey) : (totals files).Bounded where
  files := Nat.mod_lt _ (by decide)
  functions := Nat.mod_lt _ (by decide)
  classes := Nat.mod_lt _ (by decide)
  lines := Nat.mod_lt _ (by decide)
  average := finite_average _ _
  dependencies := distinct_dependencies files

/-- Every survey can be decoded again. -/
theorem survey_bounded (files : SortedMap String) (parser : Parser) :
    (survey files parser).Bounded where
  files path s h := by
    rw [survey, SortedMap.get?_filterMap, Option.bind_eq_some_iff] at h
    obtain ⟨content, -, h⟩ := h
    obtain ⟨-, h⟩ := Option.ite_none_right_eq_some.mp h
    exact Option.some.inj h ▸ surveyFile_bounded path content parser
  totals := totals_bounded _

end Project

namespace Json

variable {α : Type} {level : Nat} {j : Json}

/-- A value whose text can be read, if there are some levels left. -/
structure Within (level : Nat) (j : Json) : Prop where
  lawful : j.Lawful
  depth : j.depth ≤ level

namespace Within

theorem string (s : String) : Within level (.string s) := ⟨.string s, Nat.zero_le _⟩

theorem number {n : JsonNumber} (h : n.Lawful) : Within level (.number n) :=
  ⟨.number h, Nat.zero_le _⟩

theorem ofNat {n : Nat} (h : n < 2 ^ 64) : Within level (.ofNat n) :=
  number ⟨by omega, by omega⟩

theorem array {items : List Json} (h : ∀ j ∈ items, Within level j) :
    Within (level + 1) (.array items) :=
  ⟨.array fun j hj => (h j hj).lawful, depth_array_le_iff.mpr fun j hj => (h j hj).depth⟩

theorem object {members : List (String × Json)} (h : ∀ e ∈ members, Within level e.2) :
    Within (level + 1) (.object members) :=
  ⟨.object fun e he => (h e he).lawful, depth_object_le_iff.mpr fun e he => (h e he).depth⟩

theorem strings (names : List String) : Within (level + 1) (.ofStrings names) :=
  array (List.forall_mem_map.mpr fun s _ => string s)

theorem ofMap {f : α → Json} {m : SortedMap α}
    (h : ∀ key a, m.get? key = some a → Within level (f a)) : Within (level + 1) (.ofMap f m) :=
  object (List.forall_mem_map.mpr fun e he => h e.1 e.2 (SortedMap.get?_eq_some_iff.mpr he))

end Within

end Json

namespace Script

variable {level : Nat}

theorem ImportRecord.within (i : ImportRecord) : Json.Within (level + 1) i.json :=
  .object (by
    simp only [List.forall_mem_cons]
    exact ⟨.string _, .string _, nofun⟩)

theorem FunctionRecord.within {f : FunctionRecord} (h : f.Bounded) :
    Json.Within (level + 2) f.json :=
  .object (by
    have small : countBound ≤ 2 ^ 64 := by decide
    simp only [List.forall_mem_cons]
    exact ⟨.string _, .strings _, .ofNat (h.complexity.trans_le small),
      .ofNat (h.lines.trans_le small), nofun⟩)

theorem ClassRecord.within (c : ClassRecord) : Json.Within (level + 2) c.json :=
  .object (by
    simp only [List.forall_mem_cons]
    exact ⟨.string _, .strings _, .strings _, nofun⟩)

theorem FileSurvey.within {s : FileSurvey} (h : s.Bounded) : Json.Within (level + 4) s.json :=
  .object (by
    have small : countBound ≤ 2 ^ 64 := by decide
    simp only [List.forall_mem_cons]
    exact ⟨.array (List.forall_mem_map.mpr fun i _ => i.within), .strings _,
      .array (List.forall_mem_map.mpr fun f hf => FunctionRecord.within (h.functions f hf)),
      .array (List.forall_mem_map.mpr fun c _ => c.within), .strings _,
      .ofNat (h.complexity.trans_le small), nofun⟩)

end Script

namespace Project

open Script

variable {level : Nat} {files : SortedMap String} {parser : Parser} {s : Structure}
  {p : ProjectSurvey}

theorem Totals.within {t : Totals} (h : t.Bounded) : Json.Within (level + 3) t.json :=
  .object (by
    simp only [List.forall_mem_cons]
    exact ⟨.ofNat h.files, .ofNat h.functions, .ofNat h.classes, .ofNat h.lines, .number h.average,
      .object (List.forall_mem_map.mpr fun e _ => .strings e.2), nofun⟩)

theorem ProjectSurvey.within (h : p.Bounded) : Json.Within (level + 6) p.json :=
  .object (by
    simp only [List.forall_mem_cons]
    exact ⟨.ofMap fun path s hs => FileSurvey.within (h.files path s hs), Totals.within h.totals,
      nofun⟩)

/-- There is room for the values of configuration files below the three levels around them. -/
def Structure.Shallow (s : Structure) : Prop :=
  ∀ path entry, s.configs.get? path = some entry → entry.toJson.depth + 3 ≤ Json.maxDepth

theorem ConfigEntry.lawful_ofText (content : String) : (ofText content).toJson.Lawful := by
  unfold ofText
  split
  next value h => exact .of_ofText? h
  next => exact .string content

theorem Structure.lawful_ofFiles (files : SortedMap String) : (ofFiles files).json.Lawful := by
  have configs : (Json.ofMap (·.toJson) (ofFiles files).configs).Lawful := by
    refine .object (List.forall_mem_map.mpr fun e he => ?_)
    obtain ⟨-, content, -, eq⟩ := configs_get?_ofFiles.mp (SortedMap.get?_eq_some_iff.mpr he)
    change e.2.toJson.Lawful
    rw [← eq]
    exact ConfigEntry.lawful_ofText content
  have texts (m : SortedMap String) : Json.Within 1 (.ofMap .string m) :=
    .ofMap fun _ text _ => .string text
  refine .object ?_
  simp only [List.forall_mem_cons]
  exact ⟨.string _, (texts _).lawful, (texts _).lawful, configs, nofun⟩

theorem Structure.depth_le_iff (s : Structure) {n : Nat} : s.json.depth ≤ n + 2 ↔
    ∀ path entry, s.configs.get? path = some entry → entry.toJson.depth ≤ n := by
  have texts (m : SortedMap String) : Json.Within (n + 1) (.ofMap .string m) :=
    .ofMap fun _ text _ => .string text
  have configs : (Json.ofMap (·.toJson) s.configs).depth ≤ n + 1 ↔
      ∀ path entry, s.configs.get? path = some entry → entry.toJson.depth ≤ n := by
    rw [Json.ofMap, Json.depth_object_le_iff]
    simp only [List.forall_mem_map, Prod.forall, ← SortedMap.get?_eq_some_iff]
  rw [← configs, json, Json.depth_object_le_iff]
  simp only [List.forall_mem_cons]
  exact ⟨fun h => h.2.2.2.1,
    fun h => ⟨Nat.zero_le _, (texts _).depth, (texts _).depth, h, List.forall_mem_nil _⟩⟩

namespace Document

theorem lawful (files : SortedMap String) (parser : Parser) :
    (json (.ofFiles files) (survey files parser)).Lawful := by
  have analysis : Json.Within 6 (survey files parser).json :=
    ProjectSurvey.within (survey_bounded files parser)
  refine .object ?_
  simp only [List.forall_mem_cons]
  exact ⟨Structure.lawful_ofFiles files, analysis.lawful, nofun⟩

theorem depth_le_iff (s : Structure) (h : p.Bounded) :
    (json s p).depth ≤ Json.maxDepth ↔ s.Shallow := by
  have analysis : Json.Within 126 p.json := ProjectSurvey.within h
  rw [show Json.maxDepth = 126 + 1 from rfl, json, Json.depth_object_le_iff]
  simp only [List.forall_mem_cons]
  rw [show (126 : Nat) = 124 + 2 from rfl, Structure.depth_le_iff]
  exact ⟨fun h path entry found => Nat.add_le_add_right (h.1 path entry found) 3,
    fun h => ⟨fun path entry found => Nat.le_of_add_le_add_right (h path entry found), analysis.depth,
      List.forall_mem_nil _⟩⟩

end Document

end Project

end CodeSurvey
