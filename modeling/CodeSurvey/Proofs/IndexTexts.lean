import CodeSurvey.Proofs.Bounds

namespace CodeSurvey.ImportIndex

def ofText? (text : String) : Option ImportIndex := (WrittenJson.ofText? text).bind decode?

/-- An index after any number of notes, decoded from texts in between. -/
inductive Reachable : ImportIndex → Prop where
  | empty : Reachable {}
  | record {index : ImportIndex} (reached : Reachable index) (module path : String) :
    Reachable (index.record module path)
  | decoded {text : String} {index : ImportIndex} (h : ofText? text = some index) : Reachable index

variable {index : ImportIndex}

theorem Reachable.distinct (h : Reachable index) : index.Distinct := by
  induction h with
  | empty => exact distinct_ofEntries []
  | record _ module path ih =>
    rw [record_eq_recordAll]
    exact ih.recordAll module [path]
  | decoded h =>
    obtain ⟨w, -, h⟩ := Option.bind_eq_some_iff.mp h
    obtain ⟨entries, -, rfl⟩ := Option.map_eq_some_iff.mp h
    exact distinct_ofEntries entries

theorem lawful_json (index : ImportIndex) : index.json.Lawful := by
  have within : Json.Within 2 index.json :=
    .object (List.forall_mem_map.mpr fun e _ => .strings e.2)
  exact within.lawful

/-- An index survives its text: its modules, their order, and the files of each in their order. -/
theorem reachable_survives_text (h : Reachable index) :
    ofText? index.json.compact = some index ∧ ofText? index.json.pretty = some index :=
  Decodes.texts (decodes .asWritten h.distinct) (lawful_json index)

def notedIndex : ImportIndex :=
  ((ofText? "\x7b\"b\":[],\"é\":[\"y.ts\",\"x.ts\",\"y.ts\"],\"b\":[]\x7d").getD {}).record "a\n\"" "x.ts"

theorem reachable_survives_text_noted :
    Reachable notedIndex ∧ notedIndex.entries = [("b", []), ("é", ["y.ts", "x.ts"]), ("a\n\"", ["x.ts"])] ∧
      ofText? notedIndex.json.compact = some notedIndex ∧
      ofText? notedIndex.json.pretty = some notedIndex := by
  have read : ofText? "\x7b\"b\":[],\"é\":[\"y.ts\",\"x.ts\",\"y.ts\"],\"b\":[]\x7d" =
      some ⟨[("b", []), ("é", ["y.ts", "x.ts"])]⟩ := by decide +kernel
  have noted : notedIndex = record ⟨[("b", []), ("é", ["y.ts", "x.ts"])]⟩ "a\n\"" "x.ts" := by
    rw [notedIndex, read, Option.getD_some]
  have reached : Reachable notedIndex := noted ▸ (Reachable.decoded read).record _ _
  exact ⟨reached, by rw [noted]; decide, reachable_survives_text reached⟩

end CodeSurvey.ImportIndex
