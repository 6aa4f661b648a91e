import CodeSurvey.Digest.Summary

namespace CodeSurvey.Digest

theorem joinLines_cons (first : String) (others : List String) :
    ∃ rest, joinLines (first :: others) = first ++ rest := by
  cases others with
  | nil => exact ⟨"", by simp [joinLines]⟩
  | cons second others =>
    exact ⟨"\n" ++ "\n".intercalate (second :: others), by
      simp [joinLines, String.intercalate_cons_cons, String.append_assoc]⟩

theorem Outline.lines_cases (o : Outline) :
    (o.lines = [] ∧ ∀ g ∈ o.groups, g.2 = []) ∨
      ∃ g ∈ o.groups, g.2 ≠ [] ∧ ∃ others, o.lines = g.1 :: others := by
  unfold Outline.lines
  cases hg : o.groups.filter (!·.2.isEmpty) with
  | nil =>
    refine .inl ⟨rfl, fun g mem => ?_⟩
    simpa using List.filter_eq_nil_iff.mp hg g mem
  | cons g rest =>
    obtain ⟨mem, ne⟩ := List.mem_filter.mp (hg ▸ List.mem_cons_self : g ∈ o.groups.filter _)
    exact .inr ⟨g, mem, by simpa using ne, _, List.intercalate_cons_cons_left⟩

/-- No heading can be taken for the beginning of the text that stands for an empty outline. -/
theorem Outline.heading_ne {o : Outline} {g : String × List String} (h : g ∈ o.groups)
    (rest : String) : g.1 ++ rest ≠ "" ∧ g.1 ++ rest ≠ nothingFound := by
  simp only [groups, List.mem_cons, List.not_mem_nil, or_false] at h
  rcases h with rfl | rfl | rfl | rfl | rfl <;> simp [nothingFound, ← String.toList_inj]

theorem digestLine?_begins {line : List Char} {text : String} (h : digestLine? line = some text) :
    ∃ rest, text = "//" ++ rest := by
  unfold digestLine? at h
  split at h
  next => cases h
  next =>
    obtain ⟨kind, -, rfl⟩ := Option.map_eq_some_iff.mp h
    exact ⟨" " ++ kind.name ++ ": " ++ String.ofList (line.take maxLineLength), by
      simp [← String.append_assoc]⟩

theorem digestLines_begin {content text : String} (h : text ∈ digestLines content) :
    ∃ rest, text = "//" ++ rest := by
  obtain ⟨line, -, hl⟩ := List.mem_filterMap.mp h
  exact digestLine?_begins hl

theorem digestFile_text_ne_empty (path content : String) : (digestFile path content).text ≠ "" := by
  unfold digestFile
  cases outline? path content with
  | some o =>
    rcases o.lines_cases with ⟨empty, -⟩ | ⟨g, mem, -, others, eq⟩
    · simp [FileDigest.text, empty, joinLines, nothingFound]
    · obtain ⟨rest, joined⟩ := joinLines_cons g.1 others
      simpa only [FileDigest.text, eq, joined] using (Outline.heading_ne mem rest).1
  | none =>
    cases hl : digestLines content with
    | nil => simp [FileDigest.text, joinLines, nothingFound]
    | cons first others =>
      obtain ⟨rest, joined⟩ := joinLines_cons first others
      have mem : first ∈ digestLines content := hl ▸ List.mem_cons_self
      obtain ⟨tail, rfl⟩ := digestLines_begin mem
      simp [FileDigest.text, joined, ← String.toList_inj]

end CodeSurvey.Digest
