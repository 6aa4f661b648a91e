import CodeSurvey.Proofs.StructureTexts

namespace CodeSurvey

variable {j : Json} {w : WrittenJson}

namespace WrittenJson

theorem depth_le_of_mem_items {items : List WrittenJson} (mem : w ∈ items) :
    w.depth ≤ depthOfItems items := by
  induction items with
  | nil => cases mem
  | cons first rest ih =>
    rw [depthOfItems]
    rcases List.mem_cons.mp mem with rfl | mem
    · exact Nat.le_max_left _ _
    · exact (ih mem).trans (Nat.le_max_right _ _)

theorem depth_le_of_mem_members {members : List (Option String × WrittenJson)}
    {e : Option String × WrittenJson} (mem : e ∈ members) : e.2.depth ≤ depthOfMembers members := by
  induction members with
  | nil => cases mem
  | cons first rest ih =>
    rw [depthOfMembers]
    rcases List.mem_cons.mp mem with rfl | mem
    · exact Nat.le_max_left _ _
    · exact (ih mem).trans (Nat.le_max_right _ _)

theorem Lawful.depth_value?_le (hw : w.Lawful) (h : w.value? = some j) : j.depth ≤ w.depth := by
  induction hw generalizing j with
  | null | bool =>
    cases h
    exact Nat.le_refl _
  | number =>
    obtain ⟨n, -, rfl⟩ := Option.map_eq_some_iff.mp h
    exact Nat.le_refl _
  | string =>
    obtain ⟨s, -, rfl⟩ := Option.map_eq_some_iff.mp h
    exact Nat.le_refl _
  | array _ ih =>
    obtain ⟨vs, values, rfl⟩ := Option.map_eq_some_iff.mp h
    refine Json.depth_array_le_iff.mpr fun v hv => ?_
    obtain ⟨w, mem, value⟩ := mem_valuesOfItems? values hv
    exact (ih w mem value).trans (depth_le_of_mem_items mem)
  | object _ ih =>
    obtain ⟨vs, values, rfl⟩ := Option.map_eq_some_iff.mp h
    refine Json.depth_object_le_iff.mpr fun e he => ?_
    rcases mem_valuesOfMembers? values he with none | ⟨m, mem, value⟩
    · cases none
    · exact (ih m mem value).trans (depth_le_of_mem_members mem)

end WrittenJson

namespace Json

mutual

/-- Whether all numbers are whole. -/
def isWhole : Json → Bool
  | number (.double _) => false
  | array items => areWhole items
  | object members => haveWhole members
  | null | bool _ | number (.integer _) | string _ => true

@[inherit_doc isWhole]
def areWhole : List Json → Bool
  | [] => true
  | j :: rest => isWhole j && areWhole rest

@[inherit_doc isWhole]
def haveWhole : List (String × Json) → Bool
  | [] => true
  | (_, j) :: rest => isWhole j && haveWhole rest

end

theorem areWhole_eq_all (items : List Json) : areWhole items = items.all isWhole := by
  induction items with
  | nil => rfl
  | cons j rest ih => rw [areWhole, ih, List.all_cons]

theorem haveWhole_eq_all (members : List (String × Json)) :
    haveWhole members = members.all fun e => isWhole e.2 := by
  induction members with
  | nil => rfl
  | cons first rest ih => rw [haveWhole, ih, List.all_cons]

theorem Lawful.withoutDoubles_iff (h : j.Lawful) : j.WithoutDoubles ↔ j.isWhole = true := by
  induction h with
  | null => exact iff_of_true .null rfl
  | bool b => exact iff_of_true (.bool b) rfl
  | string s => exact iff_of_true (.string s) rfl
  | @number n _ =>
    cases n with
    | integer k => exact iff_of_true (.integer k) rfl
    | double x => exact iff_of_false nofun nofun
  | array _ ih =>
    rw [isWhole, areWhole_eq_all, List.all_eq_true]
    constructor
    · rintro (_ | _ | _ | _ | h) item mem
      exact (ih item mem).mp (h item mem)
    · exact fun all => .array fun item mem => (ih item mem).mpr (all item mem)
  | object _ ih =>
    rw [isWhole, haveWhole_eq_all, List.all_eq_true]
    constructor
    · rintro (_ | _ | _ | _ | _ | h) e mem
      exact (ih e mem).mp (h e mem)
    · exact fun all => .object fun e mem => (ih e mem).mpr (all e mem)

end Json

theorem Json.depth_le_of_ofText? {text : String} (h : ofText? text = some j) : j.depth ≤ maxDepth := by
  obtain ⟨w, written, h⟩ := Option.bind_eq_some_iff.mp h
  obtain ⟨shallow, value⟩ := Option.ite_none_right_eq_some.mp h
  exact ((WrittenJson.Lawful.of_ofText? written).depth_value?_le value).trans shallow

namespace Project.ConfigEntry

variable {content : String} {value : Json}

theorem ofText_of_some (h : Json.ofText? content = some value) : ofText content = json value := by
  rw [ofText, h]

theorem ofText_of_none (h : Json.ofText? content = none) : ofText content = raw content := by
  rw [ofText, h]

theorem ofText_pretty (h : Json.ofText? content = some value) :
    ofText value.pretty = json (value.reread .byKey) := by
  have lawful := Json.Lawful.of_ofText? h
  have read := lawful.ofText?_of_written lawful.ofText?_pretty
  rw [if_pos (Json.depth_le_of_ofText? h)] at read
  exact ofText_of_some read

/-- A configuration file without doubles is read from what is shown for it as it was read before. If it
cannot be read, it is shown as it is. -/
theorem ofText_display {content : String}
    (whole : ∀ value, ofText content = json value → value.WithoutDoubles) :
    ofText (ofText content).display = ofText content ∧
      (ofText (ofText content).display).display = (ofText content).display ∧
      (Json.ofText? content = none →
        ofText content = raw content ∧ (ofText content).display = content) := by
  have same : ofText (ofText content).display = ofText content := by
    cases h : Json.ofText? content with
    | none => rw [ofText_of_none h, display, ofText_of_none h]
    | some value =>
      have read := ofText_of_some h
      rw [read, display, ofText_pretty h,
        (Json.Lawful.of_ofText? h).reread_byKey (.of_ofText? h) (whole value read)]
  refine ⟨same, congrArg display same, fun h => ?_⟩
  rw [ofText_of_none h]
  exact ⟨rfl, rfl⟩

def untidyText : String :=
  "\x7b \"b\": 1.5,\t\"a\": [18446744073709551615, -9223372036854775808, \"\\u0007\\/\\\"\"], " ++
    "\"b\": \x7b\x7d \x7d\n"

theorem untidyText_whole (value : Json) (h : ofText untidyText = json value) :
    value.WithoutDoubles := by
  have all : (Json.ofText? untidyText).any Json.isWhole = true := by decide +kernel
  cases read : Json.ofText? untidyText with
  | none =>
    rw [ofText_of_none read] at h
    cases h
  | some other =>
    rw [ofText_of_some read] at h
    cases h
    rw [read] at all
    exact (Json.Lawful.of_ofText? read).withoutDoubles_iff.mpr all

theorem ofText_display_untidy :
    (∀ value, ofText untidyText = json value → value.WithoutDoubles) ∧
      ofText (ofText untidyText).display = ofText untidyText ∧
      (ofText untidyText).display ≠ untidyText ∧
      (ofText (ofText untidyText).display).display = (ofText untidyText).display := by
  obtain ⟨same, again, -⟩ := ofText_display untidyText_whole
  exact ⟨untidyText_whole, same, by decide +kernel, again⟩

end Project.ConfigEntry

end CodeSurvey
