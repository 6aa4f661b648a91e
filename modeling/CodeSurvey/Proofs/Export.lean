import CodeSurvey.Proofs.Bounds

namespace CodeSurvey

def Json.member? (name : String) : Json → Option Json
  | object members => (members.find? (·.1 = name)).map (·.2)
  | _ => none

theorem Json.member?_reread (arrangement : Arrangement) (members : List (String × Json))
    {name : String} {j : Json} (distinct : (members.map (·.1)).Nodup) (h : (name, j) ∈ members) :
    ((object members).reread arrangement).member? name = some (j.reread arrangement) := by
  have found : (arrangement.arrange members).find? (·.1 = name) = some (name, j) :=
    SortedMap.find?_of_nodup (Arrangement.arrange_nodup distinct)
      ((arrangement.perm distinct).mem_iff.mpr h)
  rw [reread, rereadMembers_eq_map, arrangement.map, member?, List.find?_map]
  exact congrArg (fun e : Option (String × Json) =>
    (e.map fun e => (e.1, e.2.reread arrangement)).map (·.2)) found

namespace Project

open Script

namespace ProjectSurvey

def ofText? (text : String) : Option ProjectSurvey := (WrittenJson.ofText? text).bind decode?

def ofExport? (text : String) : Option ProjectSurvey :=
  (WrittenJson.ofText? text).bind fun w =>
    match w.record? ["structure", "analysis"] with
    | some [_, analysis] => decode? analysis
    | _ => none

def ofExportValue? (text : String) : Option ProjectSurvey :=
  (Json.ofText? text).bind fun v => (v.member? "analysis").bind fun analysis =>
    decode? analysis.written

end ProjectSurvey

def ProjectSurvey.withAverage (p : ProjectSurvey) (average : Binary64) : ProjectSurvey :=
  { p with totals := { p.totals with averageComplexity := average } }

variable (files : SortedMap String) (parser : Parser) (pretty : Bool)

namespace Document

theorem written_exportText :
    WrittenJson.ofText? (exportText (.ofFiles files) (survey files parser) pretty) =
      some ((json (.ofFiles files) (survey files parser)).reread .asWritten).written := by
  cases pretty with
  | false => exact (lawful files parser).ofText?_compact
  | true => exact (lawful files parser).ofText?_pretty

theorem value_exportText :
    Json.ofText? (exportText (.ofFiles files) (survey files parser) pretty) =
      if (json (.ofFiles files) (survey files parser)).depth ≤ Json.maxDepth then
        some ((json (.ofFiles files) (survey files parser)).reread .byKey)
      else none :=
  (lawful files parser).ofText?_of_written (written_exportText files parser pretty)

end Document

/-- An export is read again exactly if no value of a configuration file is nested too deep, and then
both of its texts have the same value. -/
theorem exportText_read_iff (v : Json) :
    Json.ofText? (Document.exportText (.ofFiles files) (survey files parser) pretty) = some v ↔
      v = (Document.json (.ofFiles files) (survey files parser)).reread .byKey ∧
        (Structure.ofFiles files).Shallow := by
  rw [Document.value_exportText, Option.ite_none_right_eq_some,
    Document.depth_le_iff _ (survey_bounded files parser), and_comm, Option.some_inj, eq_comm]

section Nesting

def nested : Nat → Json
  | 0 => .array []
  | level + 1 => .array [nested level]

theorem lawful_nested (level : Nat) : (nested level).Lawful := by
  induction level with
  | zero => exact .array nofun
  | succ level ih => exact .array (List.forall_mem_singleton.mpr ih)

theorem depth_nested (level : Nat) : (nested level).depth = level + 1 := by
  induction level with
  | zero => rfl
  | succ level ih => simp [nested, Json.depth_array, ih]

theorem reread_nested (arrangement : Arrangement) (level : Nat) :
    (nested level).reread arrangement = nested level := by
  induction level with
  | zero => rfl
  | succ level ih => simp [nested, Json.reread, Json.rereadItems, ih]

def nestedConfig (level : Nat) : SortedMap String := .ofList [("deep.json", (nested level).compact)]

theorem ofText_nested {level : Nat} (h : level < Json.maxDepth) :
    ConfigEntry.ofText (nested level).compact = .json (nested level) := by
  have lawful := lawful_nested level
  have depth : (nested level).depth ≤ Json.maxDepth := depth_nested level ▸ h
  have read := lawful.ofText?_of_written lawful.ofText?_compact
  rw [if_pos depth, reread_nested] at read
  rw [ConfigEntry.ofText, read]

theorem shallow_nestedConfig_iff {level : Nat} (h : level < Json.maxDepth) :
    (Structure.ofFiles (nestedConfig level)).Shallow ↔ level + 4 ≤ Json.maxDepth := by
  constructor
  · intro shallow
    have entry : (Structure.ofFiles (nestedConfig level)).configs.get? "deep.json" =
        some (.json (nested level)) :=
      configs_get?_ofFiles.mpr ⟨by decide, _, SortedMap.get?_ofList_singleton.mpr ⟨rfl, rfl⟩,
        ofText_nested h⟩
    have room := shallow "deep.json" _ entry
    rwa [ConfigEntry.toJson, depth_nested] at room
  · intro room path entry found
    obtain ⟨-, content, only, rfl⟩ := configs_get?_ofFiles.mp found
    obtain ⟨-, rfl⟩ := SortedMap.get?_ofList_singleton.mp only
    rwa [ofText_nested h, ConfigEntry.toJson, depth_nested]

/-- A configuration file of 125 levels is read, but an export with it is not. -/
theorem exportText_nested_unread :
    ConfigEntry.ofText (nested 124).compact = .json (nested 124) ∧
      Json.ofText? (Document.exportText (.ofFiles (nestedConfig 124)) (survey (nestedConfig 124)) false) =
        none := by
  have read : 124 < Json.maxDepth := by decide
  refine ⟨ofText_nested read, ?_⟩
  rw [Document.value_exportText, if_neg]
  rw [Document.depth_le_iff _ (survey_bounded _ _), shallow_nestedConfig_iff read]
  decide

end Nesting

section Surveys

variable {p : ProjectSurvey}

theorem ProjectSurvey.ofText?_json (h : p.Bounded) :
    ofText? p.json.compact = some (p.withAverage p.totals.averageComplexity.reread) ∧
      ofText? p.json.pretty = some (p.withAverage p.totals.averageComplexity.reread) := by
  have within : Json.Within 6 p.json := ProjectSurvey.within h
  exact (ProjectSurvey.decodes .asWritten h).texts within.lawful

/-- A survey is decoded from its own text, and from that of an export, as it was: all but the average,
which is the number that was read. -/
theorem survey_survives_text :
    ProjectSurvey.ofText? (survey files parser).json.compact =
        some ((survey files parser).withAverage (survey files parser).totals.averageComplexity.reread) ∧
      ProjectSurvey.ofText? (survey files parser).json.pretty =
        some ((survey files parser).withAverage (survey files parser).totals.averageComplexity.reread) ∧
      ProjectSurvey.ofExport? (Document.exportText (.ofFiles files) (survey files parser) pretty) =
        some ((survey files parser).withAverage (survey files parser).totals.averageComplexity.reread) := by
  have bounded := survey_bounded files parser
  obtain ⟨compact, pretty⟩ := ProjectSurvey.ofText?_json bounded
  refine ⟨compact, pretty, ?_⟩
  have fields := Decodes.record .asWritten
    [("structure", (Structure.ofFiles files).json), ("analysis", (survey files parser).json)] (by simp)
  simp only [List.map_cons, List.map_nil] at fields
  rw [ProjectSurvey.ofExport?, Document.written_exportText, Option.bind_some,
    Document.json, fields]
  exact ProjectSurvey.decodes .asWritten bounded

theorem ProjectSurvey.ofExportValue?_eq_some_iff {q : ProjectSurvey} :
    ofExportValue? (Document.exportText (.ofFiles files) (survey files parser) pretty) = some q ↔
      (Structure.ofFiles files).Shallow ∧ (survey files parser).reread .byKey = q := by
  have analysis := Json.member?_reread .byKey
    [("structure", (Structure.ofFiles files).json), ("analysis", (survey files parser).json)]
    (by simp) (List.mem_cons_of_mem _ List.mem_cons_self)
  have decoded := ProjectSurvey.decodes .byKey (survey_bounded files parser)
  rw [ofExportValue?, Document.value_exportText,
    ← Document.depth_le_iff _ (survey_bounded files parser)]
  split
  next shallow =>
    rw [Option.bind_some, Document.json, analysis, Option.bind_some, decoded, Option.some_inj]
    exact (and_iff_right shallow).symm
  next deep => simp [deep]

theorem byKey_eq_iff (index : ImportIndex) :
    Arrangement.byKey.arrange index.entries = index.entries ↔ index.modules.Pairwise (· < ·) := by
  rw [ImportIndex.modules, List.pairwise_map]
  exact ⟨fun eq => eq ▸ (SortedMap.ofList index.entries).sorted, Arrangement.byKey_of_sorted⟩

/-- A survey comes back from the value of an export exactly if the export can be read and its modules
are in the order of their names already. -/
theorem survey_survives_value_iff :
    (∃ average, ProjectSurvey.ofExportValue?
        (Document.exportText (.ofFiles files) (survey files parser) pretty) =
      some ((survey files parser).withAverage average)) ↔
      (Structure.ofFiles files).Shallow ∧
        (survey files parser).totals.dependencies.modules.Pairwise (· < ·) := by
  simp only [ProjectSurvey.ofExportValue?_eq_some_iff, ← byKey_eq_iff]
  constructor
  · rintro ⟨average, shallow, same⟩
    exact ⟨shallow, congrArg (·.totals.dependencies.entries) same⟩
  · rintro ⟨shallow, same⟩
    refine ⟨(survey files parser).totals.averageComplexity.reread, shallow, ?_⟩
    rw [ProjectSurvey.reread, Totals.reread, same]
    rfl

end Surveys

section Order

def importsText : String := "import z from 'zod';import r from 'react';"

def importsTree : Node :=
  phrase .program none 0 42 [
    phrase .importStatement none 0 20 [
      word "import" none 0,
      phrase .importClause none 7 8 [phrase .identifier none 7 8 []],
      word "from" none 9,
      phrase .string (some .source) 14 19 [
        word "'" none 14, phrase .stringFragment none 15 18 [], word "'" none 18],
      word ";" none 19],
    phrase .importStatement none 20 42 [
      word "import" none 20,
      phrase .importClause none 27 28 [phrase .identifier none 27 28 []],
      word "from" none 29,
      phrase .string (some .source) 34 41 [
        word "'" none 34, phrase .stringFragment none 35 40 [], word "'" none 40],
      word ";" none 41]]

def importsParser : Parser := fun _ source =>
  if source.chars = importsText.toList then some importsTree else none

def importsFiles : SortedMap String := .ofList [("a.ts", importsText)]

/-- Two modules that are not in the order of their names change places. -/
theorem survey_lost_in_value :
    (Structure.ofFiles importsFiles).Shallow ∧
      (survey importsFiles importsParser).totals.dependencies.modules = ["zod", "react"] ∧
      ¬∃ average, ProjectSurvey.ofExportValue?
          (Document.exportText (.ofFiles importsFiles) (survey importsFiles importsParser) false) =
        some ((survey importsFiles importsParser).withAverage average) := by
  have modules : (survey importsFiles importsParser).totals.dependencies.modules =
      ["zod", "react"] := by
    decide +kernel
  have shallow : (Structure.ofFiles importsFiles).Shallow := by
    intro path entry found
    obtain ⟨config, content, only, -⟩ := configs_get?_ofFiles.mp found
    obtain ⟨rfl, -⟩ := SortedMap.get?_ofList_singleton.mp only
    exact absurd config (by decide)
  refine ⟨shallow, modules, ?_⟩
  rintro ⟨average, h⟩
  obtain ⟨-, same⟩ := (ProjectSurvey.ofExportValue?_eq_some_iff _ _ _).mp h
  have sorted := (byKey_eq_iff _).mp
    (congrArg (fun p : ProjectSurvey => p.totals.dependencies.entries) same)
  rw [modules] at sorted
  exact absurd sorted (by decide)

end Order

end Project

end CodeSurvey
