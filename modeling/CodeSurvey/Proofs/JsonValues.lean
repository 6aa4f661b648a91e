import CodeSurvey.Proofs.JsonTexts

namespace CodeSurvey

variable {j : Json} {w : WrittenJson} {arrangement : Arrangement}

namespace WrittenJson

/-- Numbers are those that a reader can give, or gaps. -/
inductive Lawful : WrittenJson → Prop where
  | null : Lawful .null
  | bool (b : Bool) : Lawful (.bool b)
  | number {n : Option JsonNumber} (h : ∀ m ∈ n, m.Lawful) : Lawful (.number n)
  | string (s : Option String) : Lawful (.string s)
  | array {items : List WrittenJson} (h : ∀ w ∈ items, Lawful w) : Lawful (.array items)
  | object {members : List (Option String × WrittenJson)} (h : ∀ e ∈ members, Lawful e.2) :
    Lawful (.object members)

theorem mem_valuesOfItems? {items : List WrittenJson} {vs : List Json}
    (h : valuesOfItems? items = some vs) (hj : j ∈ vs) : ∃ w ∈ items, w.value? = some j := by
  induction items generalizing vs with
  | nil =>
    cases h
    cases hj
  | cons w rest ih =>
    obtain ⟨v, hv, h⟩ := Option.bind_eq_some_iff.mp h
    obtain ⟨vs, hvs, h⟩ := Option.bind_eq_some_iff.mp h
    cases h
    rcases List.mem_cons.mp hj with rfl | hj
    · exact ⟨w, List.mem_cons_self, hv⟩
    · obtain ⟨w', hw, value⟩ := ih hvs hj
      exact ⟨w', List.mem_cons_of_mem _ hw, value⟩

theorem mem_valuesOfMembers? {members : List (Option String × WrittenJson)}
    {before vs : List (String × Json)} {e : String × Json}
    (h : valuesOfMembers? members before = some vs) (he : e ∈ vs) :
    e ∈ before ∨ ∃ m ∈ members, m.2.value? = some e.2 := by
  induction members generalizing before with
  | nil =>
    cases h
    exact .inl he
  | cons m rest ih =>
    obtain ⟨k, -, h⟩ := Option.bind_eq_some_iff.mp h
    obtain ⟨v, hv, h⟩ := Option.bind_eq_some_iff.mp h
    rcases ih h with mem | ⟨m', hm, value⟩
    · rcases SortedMap.mem_insertEntry mem with rfl | mem
      · exact .inr ⟨m, List.mem_cons_self, hv⟩
      · exact .inl mem
    · exact .inr ⟨m', List.mem_cons_of_mem _ hm, value⟩

theorem sorted_valuesOfMembers? {members : List (Option String × WrittenJson)}
    {before vs : List (String × Json)} (sorted : before.Pairwise (·.1 < ·.1))
    (h : valuesOfMembers? members before = some vs) : vs.Pairwise (·.1 < ·.1) := by
  induction members generalizing before with
  | nil =>
    cases h
    exact sorted
  | cons m rest ih =>
    obtain ⟨k, -, h⟩ := Option.bind_eq_some_iff.mp h
    obtain ⟨v, -, h⟩ := Option.bind_eq_some_iff.mp h
    exact ih (SortedMap.insertEntry_sorted k v sorted) h

theorem Lawful.value?_induction {motive : Json → Prop} (hw : w.Lawful) (h : w.value? = some j)
    (null : motive .null) (bool : ∀ b, motive (.bool b))
    (number : ∀ {n : JsonNumber}, n.Lawful → motive (.number n)) (string : ∀ s, motive (.string s))
    (array : ∀ {items : List Json}, (∀ j ∈ items, motive j) → motive (.array items))
    (object : ∀ {members : List (String × Json)}, members.Pairwise (·.1 < ·.1) →
      (∀ e ∈ members, motive e.2) → motive (.object members)) : motive j := by
  induction hw generalizing j with
  | null =>
    cases h
    exact null
  | bool b =>
    cases h
    exact bool b
  | number hn =>
    obtain ⟨m, hm, rfl⟩ := Option.map_eq_some_iff.mp h
    exact number (hn m hm)
  | string s =>
    obtain ⟨t, -, rfl⟩ := Option.map_eq_some_iff.mp h
    exact string t
  | array _ ih =>
    obtain ⟨vs, hvs, rfl⟩ := Option.map_eq_some_iff.mp h
    refine array fun v hv => ?_
    obtain ⟨w, hw, value⟩ := mem_valuesOfItems? hvs hv
    exact ih w hw value
  | object _ ih =>
    obtain ⟨vs, hvs, rfl⟩ := Option.map_eq_some_iff.mp h
    refine object (sorted_valuesOfMembers? .nil hvs) fun e he => ?_
    rcases mem_valuesOfMembers? hvs he with mem | ⟨m, hm, value⟩
    · cases mem
    · exact ih m hm value

theorem Lawful.of_value? (hw : w.Lawful) (h : w.value? = some j) : j.Lawful :=
  hw.value?_induction h .null .bool .number .string .array fun _ => .object

end WrittenJson

namespace JsonReader

variable {fuel : Nat} {cs rest : List Char} {items : List WrittenJson}
  {members : List (Option String × WrittenJson)}

/-- What the reader can give, with less fuel for the parts of a value. -/
theorem value?_cases (h : value? (fuel + 1) cs = some (w, rest)) :
    (w = .null ∨ (∃ b, w = .bool b) ∨ (∃ s, w = .string s) ∨ ∃ l : NumberLiteral, w = .number l.value?) ∨
      (∃ items, w = .array items ∧ (items = [] ∨ ∃ more, items? fuel more = some (items, rest))) ∨
      ∃ members, w = .object members ∧
        (members = [] ∨ ∃ more, members? fuel more = some (members, rest)) := by
  rw [value?.eq_def] at h
  dsimp only at h
  split at h
  · obtain ⟨⟨s, after⟩, -, eq⟩ := Option.map_eq_some_iff.mp h
    cases eq
    exact .inl (.inr (.inr (.inl ⟨s, rfl⟩)))
  · split at h
    · cases h
      exact .inr (.inl ⟨[], rfl, .inl rfl⟩)
    · obtain ⟨⟨items, after⟩, read, eq⟩ := Option.map_eq_some_iff.mp h
      cases eq
      exact .inr (.inl ⟨items, rfl, .inr ⟨_, read⟩⟩)
  · split at h
    · cases h
      exact .inr (.inr ⟨[], rfl, .inl rfl⟩)
    · obtain ⟨⟨members, after⟩, read, eq⟩ := Option.map_eq_some_iff.mp h
      cases eq
      exact .inr (.inr ⟨members, rfl, .inr ⟨_, read⟩⟩)
  · obtain ⟨after, -, eq⟩ := Option.map_eq_some_iff.mp h
    cases eq
    exact .inl (.inl rfl)
  · obtain ⟨after, -, eq⟩ := Option.map_eq_some_iff.mp h
    cases eq
    exact .inl (.inr (.inl ⟨true, rfl⟩))
  · obtain ⟨after, -, eq⟩ := Option.map_eq_some_iff.mp h
    cases eq
    exact .inl (.inr (.inl ⟨false, rfl⟩))
  · obtain ⟨⟨l, after⟩, -, eq⟩ := Option.map_eq_some_iff.mp h
    cases eq
    exact .inl (.inr (.inr (.inr ⟨l, rfl⟩)))

theorem items?_cases (h : items? (fuel + 1) cs = some (items, rest)) :
    ∃ item after others, value? fuel cs = some (item, after) ∧ items = item :: others ∧
      (others = [] ∨ ∃ more, items? fuel more = some (others, rest)) := by
  rw [items?] at h
  obtain ⟨⟨item, after⟩, first, h⟩ := Option.bind_eq_some_iff.mp h
  dsimp only at h
  split at h
  · cases h
    exact ⟨item, after, [], first, rfl, .inl rfl⟩
  · obtain ⟨⟨others, last⟩, read, h⟩ := Option.bind_eq_some_iff.mp h
    cases h
    exact ⟨item, after, others, first, rfl, .inr ⟨_, read⟩⟩
  · cases h

theorem members?_cases (h : members? (fuel + 1) cs = some (members, rest)) :
    ∃ key value before after others, value? fuel before = some (value, after) ∧
      members = (key, value) :: others ∧
        (others = [] ∨ ∃ more, members? fuel more = some (others, rest)) := by
  rw [members?.eq_def] at h
  dsimp only at h
  split at h
  · obtain ⟨⟨key, colon⟩, -, h⟩ := Option.bind_eq_some_iff.mp h
    dsimp only at h
    split at h
    · obtain ⟨⟨value, after⟩, first, h⟩ := Option.bind_eq_some_iff.mp h
      dsimp only at h
      split at h
      · cases h
        exact ⟨key, value, _, after, [], first, rfl, .inl rfl⟩
      · obtain ⟨⟨others, last⟩, read, h⟩ := Option.bind_eq_some_iff.mp h
        cases h
        exact ⟨key, value, _, after, others, first, rfl, .inr ⟨_, read⟩⟩
      · cases h
    · cases h
  · cases h

theorem lawful_of_read (fuel : Nat) :
    (∀ cs w rest, value? fuel cs = some (w, rest) → w.Lawful) ∧
      (∀ cs items rest, items? fuel cs = some (items, rest) → ∀ w ∈ items, w.Lawful) ∧
      ∀ cs members rest, members? fuel cs = some (members, rest) → ∀ e ∈ members, e.2.Lawful := by
  induction fuel with
  | zero =>
    refine ⟨fun _ _ _ h => ?_, fun _ _ _ h => ?_, fun _ _ _ h => ?_⟩
    all_goals cases h
  | succ fuel ih =>
    obtain ⟨ihValue, ihItems, ihMembers⟩ := ih
    refine ⟨fun cs w rest h => ?value, fun cs items rest h => ?items, fun cs members rest h => ?members⟩
    case value =>
      rcases value?_cases h with (rfl | ⟨b, rfl⟩ | ⟨s, rfl⟩ | ⟨l, rfl⟩) | ⟨items, rfl, read⟩ |
        ⟨members, rfl, read⟩
      · exact .null
      · exact .bool b
      · exact .string s
      · exact .number fun m hm => .of_value? hm
      · rcases read with rfl | ⟨more, read⟩
        · exact .array nofun
        · exact .array (ihItems _ _ _ read)
      · rcases read with rfl | ⟨more, read⟩
        · exact .object nofun
        · exact .object (ihMembers _ _ _ read)
    case items =>
      obtain ⟨item, after, others, first, rfl, rfl | ⟨more, read⟩⟩ := items?_cases h
      · exact List.forall_mem_singleton.mpr (ihValue _ _ _ first)
      · exact List.forall_mem_cons.mpr ⟨ihValue _ _ _ first, ihItems _ _ _ read⟩
    case members =>
      obtain ⟨key, value, before, after, others, first, rfl, rfl | ⟨more, read⟩⟩ := members?_cases h
      · exact List.forall_mem_singleton.mpr (ihValue _ _ _ first)
      · exact List.forall_mem_cons.mpr ⟨ihValue _ _ _ first, ihMembers _ _ _ read⟩

end JsonReader

theorem WrittenJson.Lawful.of_ofText? {text : String} (h : ofText? text = some w) : w.Lawful := by
  simp only [ofText?] at h
  split at h
  next found =>
    obtain ⟨-, h⟩ := Option.ite_none_right_eq_some.mp h
    cases h
    exact (JsonReader.lawful_of_read _).1 _ _ _ found
  next => cases h

namespace Json

theorem Lawful.of_ofText? {text : String} (h : ofText? text = some j) : j.Lawful := by
  obtain ⟨w, hw, h⟩ := Option.bind_eq_some_iff.mp h
  obtain ⟨-, h⟩ := Option.ite_none_right_eq_some.mp h
  exact (WrittenJson.Lawful.of_ofText? hw).of_value? h

theorem valuesOfItems?_map {f : Json → WrittenJson} {g : Json → Json} {items : List Json}
    (h : ∀ j ∈ items, (f j).value? = some (g j)) :
    WrittenJson.valuesOfItems? (items.map f) = some (items.map g) := by
  induction items with
  | nil => rfl
  | cons j rest ih =>
    have first := h j List.mem_cons_self
    have others := ih fun i hi => h i (List.mem_cons_of_mem _ hi)
    simp [WrittenJson.valuesOfItems?, first, others]

theorem valuesOfMembers?_map {f : Json → WrittenJson} {g : Json → Json}
    {members : List (String × Json)} (before : List (String × Json))
    (h : ∀ e ∈ members, (f e.2).value? = some (g e.2)) :
    WrittenJson.valuesOfMembers? (members.map fun (key, j) => (some key, f j)) before =
      some ((members.map fun (key, j) => (key, g j)).foldl
        (fun before (key, j) => SortedMap.insertEntry key j before) before) := by
  induction members generalizing before with
  | nil => rfl
  | cons m rest ih =>
    have first := h m List.mem_cons_self
    have others := fun before => ih before fun i hi => h i (List.mem_cons_of_mem _ hi)
    simp [WrittenJson.valuesOfMembers?, first, others]

theorem Lawful.value?_reread (h : j.Lawful) :
    (j.reread .asWritten).written.value? = some (j.reread .byKey) := by
  induction h with
  | null | bool | number | string => rfl
  | array h ih =>
    rw [reread, rereadItems_eq_map, written, writtenItems_eq_map, List.map_map, WrittenJson.value?,
      reread, rereadItems_eq_map]
    exact congrArg (Option.map Json.array)
      (valuesOfItems?_map (f := written ∘ reread .asWritten) ih)
  | object h ih =>
    rw [reread, rereadMembers_eq_map, Arrangement.arrange_asWritten, written, writtenMembers_eq_map,
      List.map_map, WrittenJson.value?, reread, rereadMembers_eq_map]
    exact (congrArg (Option.map Json.object)
      (valuesOfMembers?_map (f := written ∘ reread .asWritten) [] ih)).trans
      (congrArg (fun ms => some (Json.object ms)) (SortedMap.entries_foldl_insert _ {}).symm)

/-- How deep arrays and objects are nested. -/
def depth (j : Json) : Nat := j.written.depth

theorem depth_array (items : List Json) :
    (array items).depth = (items.map depth).foldr max 0 + 1 := by
  have : WrittenJson.depthOfItems (writtenItems items) = (items.map depth).foldr max 0 := by
    induction items with
    | nil => rfl
    | cons j rest ih => rw [writtenItems, WrittenJson.depthOfItems, ih, List.map_cons, List.foldr_cons,
        depth]
  exact congrArg (· + 1) this

theorem depth_object (members : List (String × Json)) :
    (object members).depth = (members.map (·.2.depth)).foldr max 0 + 1 := by
  have : WrittenJson.depthOfMembers (writtenMembers members) =
      (members.map (·.2.depth)).foldr max 0 := by
    induction members with
    | nil => rfl
    | cons m rest ih => rw [writtenMembers, WrittenJson.depthOfMembers, ih, List.map_cons,
        List.foldr_cons, depth]
  exact congrArg (· + 1) this

theorem foldr_max_le_iff {n : Nat} {depths : List Nat} :
    depths.foldr max 0 ≤ n ↔ ∀ d ∈ depths, d ≤ n := by
  induction depths with
  | nil => simp
  | cons d rest ih => rw [List.foldr_cons, Nat.max_le, ih, List.forall_mem_cons]

theorem depth_array_le_iff {n : Nat} {items : List Json} :
    (array items).depth ≤ n + 1 ↔ ∀ j ∈ items, j.depth ≤ n := by
  rw [depth_array, Nat.add_le_add_iff_right, foldr_max_le_iff, List.forall_mem_map]

theorem depth_object_le_iff {n : Nat} {members : List (String × Json)} :
    (object members).depth ≤ n + 1 ↔ ∀ e ∈ members, e.2.depth ≤ n := by
  rw [depth_object, Nat.add_le_add_iff_right, foldr_max_le_iff, List.forall_mem_map]

theorem Lawful.depth_reread (h : j.Lawful) : (j.reread .asWritten).depth = j.depth := by
  induction h with
  | null | bool | number | string => rfl
  | array h ih =>
    rw [reread, rereadItems_eq_map, depth_array, depth_array, List.map_map]
    exact congrArg (fun depths => depths.foldr max 0 + 1) (List.map_congr_left ih)
  | object h ih =>
    rw [reread, rereadMembers_eq_map, Arrangement.arrange_asWritten, depth_object, depth_object,
      List.map_map]
    exact congrArg (fun depths => depths.foldr max 0 + 1) (List.map_congr_left ih)

theorem Lawful.ofText?_of_written {text : String} (h : j.Lawful)
    (read : WrittenJson.ofText? text = some (j.reread .asWritten).written) :
    ofText? text = if j.depth ≤ maxDepth then some (j.reread .byKey) else none := by
  rw [ofText?, read, Option.bind_some, h.value?_reread, ← h.depth_reread]
  rfl

end Json

end CodeSurvey
