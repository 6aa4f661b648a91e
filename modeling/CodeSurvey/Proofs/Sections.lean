import CodeSurvey.CommandLine.Run
import CodeSurvey.Proofs.Bounds

namespace CodeSurvey

/-- A character, with two spaces behind a line end. -/
def spaced (c : Char) : List Char := if c = '\n' then ['\n', ' ', ' '] else [c]

theorem flatMap_spaced {cs : List Char} (h : '\n' ∉ cs) : cs.flatMap spaced = cs := by
  induction cs with
  | nil => rfl
  | cons c cs ih =>
    obtain ⟨other, h⟩ := not_or.mp (mt List.mem_cons.mpr h)
    rw [List.flatMap_cons, spaced, if_neg (Ne.symm other), ih h, List.singleton_append]

/-- A text with two spaces more in front of each line but the first. -/
def deeper (text : String) : String := String.ofList (text.toList.flatMap spaced)

theorem deeper_append (s t : String) : deeper (s ++ t) = deeper s ++ deeper t := by
  rw [deeper, String.toList_append, List.flatMap_append, String.ofList_append]
  rfl

theorem deeper_of_notMem {s : String} (h : '\n' ∉ s.toList) : deeper s = s := by
  rw [deeper, flatMap_spaced h, String.ofList_toList]

theorem deeper_intercalate (separator : String) (parts : List String) :
    deeper (separator.intercalate parts) = (deeper separator).intercalate (parts.map deeper) := by
  induction parts with
  | nil => rfl
  | cons part rest ih =>
    cases rest with
    | nil => rw [String.intercalate_singleton, List.map_singleton, String.intercalate_singleton]
    | cons next rest =>
      rw [String.intercalate_cons_cons, deeper_append, deeper_append, ih]
      simp only [List.map_cons, String.intercalate_cons_cons]

namespace JsonPrinter

theorem newLine_notMem_escape (c : Char) : '\n' ∉ escape c := by
  have digits : ∀ n < 32, '\n' ≠ hexDigit (n / 16) ∧ '\n' ≠ hexDigit (n % 16) := by decide
  unfold escape
  split
  case h_8 other _ _ =>
    split
    next control =>
      obtain ⟨high, low⟩ := digits c.toNat control
      simp [high, low]
    next => simpa using fun eq => other eq.symm
  all_goals decide

theorem deeper_quote (s : String) : deeper (quote s) = quote s := by
  apply deeper_of_notMem
  rw [JsonReader.toList_quote]
  simpa using fun c _ => newLine_notMem_escape c

end JsonPrinter

theorem Spelling.newLine_notMem_text {s : Spelling} (h : s.Proper) : '\n' ∉ s.text := by
  have plain {digits : List Char} (hd : Digits digits) : '\n' ∉ digits := fun mem =>
    absurd (hd.all _ mem) (by decide)
  have sign : '\n' ∉ (if s.negative then ['-'] else []) := by split <;> decide
  have fraction : '\n' ∉ fractionText s.fraction := by
    cases hf : s.fraction with
    | none => exact List.not_mem_nil
    | some digits => simpa [fractionText] using plain (h.fraction digits hf)
  have exponent : '\n' ∉ exponentText s.exponent := by
    cases he : s.exponent with
    | none => exact List.not_mem_nil
    | some e =>
      have digits := plain (h.exponent e he)
      cases hn : e.1 <;> simp [exponentText, hn, digits]
  simp only [text, List.mem_append, not_or]
  exact ⟨sign, plain h.whole, fraction, exponent⟩

namespace Json

open JsonPrinter

variable {j : Json}

theorem deeper_newLine (level : Nat) : deeper (newLine level) = newLine (level + 1) := by
  have spaces : '\n' ∉ List.replicate (2 * level) ' ' := fun mem =>
    absurd (List.eq_of_mem_replicate mem) (by decide)
  rw [← String.toList_inj, deeper, String.toList_ofList, newLine, newLine, Text.toList_pushn,
    Text.toList_pushn, List.flatMap_append, flatMap_spaced spaces, Nat.mul_succ, Nat.add_comm,
    List.replicate_add]
  rfl

theorem deeper_block {opening closing : String} (ho : deeper opening = opening)
    (hc : deeper closing = closing) (level : Nat) (parts : List String) :
    deeper (block opening closing level parts) =
      block opening closing (level + 1) (parts.map deeper) := by
  cases parts with
  | nil => rw [block, deeper_append, ho, hc, List.map_nil, block]
  | cons part rest =>
    have comma : deeper "," = "," := by decide
    rw [block, deeper_append, deeper_append, deeper_append, deeper_append, deeper_intercalate,
      deeper_append, comma, deeper_newLine, deeper_newLine, ho, hc, List.map_cons, block]
    all_goals exact List.cons_ne_nil _ _

theorem Lawful.prettyAt_succ (h : j.Lawful) (level : Nat) :
    j.prettyAt (level + 1) = deeper (j.prettyAt level) := by
  induction h generalizing level with
  | null =>
    rw [prettyAt, prettyAt]
    decide
  | bool b =>
    rw [prettyAt, prettyAt]
    cases b <;> decide
  | number h =>
    obtain ⟨s, text, proper, -⟩ := JsonNumber.exists_spelling h
    have plain := Spelling.newLine_notMem_text proper
    rw [text] at plain
    exact (deeper_of_notMem plain).symm
  | string s => exact (deeper_quote s).symm
  | @array items h ih =>
    have brackets : deeper "[" = "[" ∧ deeper "]" = "]" := by decide
    rw [prettyAt, prettyAt, deeper_block brackets.1 brackets.2, prettyItems_eq_map,
      prettyItems_eq_map, List.map_map]
    exact congrArg _ (List.map_congr_left fun j hj => ih j hj (level + 1))
  | @object members h ih =>
    have braces : deeper "\x7b" = "\x7b" ∧ deeper "\x7d" = "\x7d" := by decide
    have colon : deeper ": " = ": " := by decide
    rw [prettyAt, prettyAt, deeper_block braces.1 braces.2, prettyMembers_eq_map,
      prettyMembers_eq_map, List.map_map]
    refine congrArg _ (List.map_congr_left fun e he => ?_)
    dsimp only [Function.comp_apply]
    rw [deeper_append, deeper_append, deeper_quote, colon, ih e he (level + 1)]

theorem pretty_object (members : List (String × Json)) :
    ∃ text, (object members).pretty = text ++ "\x7d" := by
  rw [pretty, prettyAt]
  cases prettyMembers (0 + 1) members with
  | nil => exact ⟨"\x7b", rfl⟩
  | cons part rest => exact ⟨_, rfl⟩

end Json

/-- A text with a line end at its end. -/
def EndsLine (text : String) : Prop := ∃ t, text = t ++ "\n"

namespace EndsLine

variable {s : String} {parts : List String}

theorem line (t : String) : EndsLine (t ++ "\n") := ⟨t, rfl⟩

theorem append_left (s : String) {t : String} (h : EndsLine t) : EndsLine (s ++ t) := by
  obtain ⟨t, rfl⟩ := h
  rw [← String.append_assoc]
  exact line _

theorem append_join (hs : EndsLine s) (h : ∀ part ∈ parts, EndsLine part) :
    EndsLine (s ++ String.join parts) := by
  induction parts generalizing s with
  | nil => rwa [String.join_nil, String.append_empty]
  | cons part rest ih =>
    rw [String.join_cons, ← String.append_assoc]
    exact ih ((h part List.mem_cons_self).append_left s) fun p hp => h p (List.mem_cons_of_mem _ hp)

end EndsLine

namespace Project

open Script

theorem Document.endsLine_sections (s : Structure) : EndsLine (sections s) := by
  refine EndsLine.append_join ?_ (List.forall_mem_map.mpr fun e _ => ?_)
  · exact (EndsLine.line "配置文件:").append_left _
  · exact .line _

namespace Report

theorem endsLine_group {s : String} (title : String) {entries : List String} (hs : EndsLine s)
    (h : ∀ entry ∈ entries, EndsLine entry) : EndsLine (s ++ group title entries) := by
  cases entries with
  | nil => rwa [group, String.append_empty]
  | cons entry rest =>
    have heading : EndsLine ("\n" ++ title ++ "\n") := .line _
    exact (heading.append_join h).append_left s

theorem endsLine_file (path : String) (s : FileSurvey) : EndsLine (file path s) := by
  have start : EndsLine ("\n文件: " ++ path ++ "\n复杂度: " ++ toString s.complexity ++ "\n") := .line _
  have functions := endsLine_group "函数:" start
    (List.forall_mem_map.mpr fun f (_ : f ∈ s.functions) => (EndsLine.line _ : EndsLine (function f)))
  exact endsLine_group "类:" functions
    (List.forall_mem_map.mpr fun c (_ : c ∈ s.classes) => (EndsLine.line _ : EndsLine (classText c)))

theorem endsLine_ofSurvey (p : ProjectSurvey) : EndsLine (ofSurvey p) := by
  refine EndsLine.append_join ?_ (List.forall_mem_map.mpr fun e _ => endsLine_file e.1 e.2)
  have heading : EndsLine (heading "文件详细分析:") := .line _
  exact heading.append_left _

end Report

end Project

namespace CommandLine

open Loading Project

theorem withLineEnd_of_endsLine {s : String} (h : EndsLine s) : withLineEnd s = s := by
  obtain ⟨t, rfl⟩ := h
  have ends : (t ++ "\n").endsWith "\n" = true := by
    rw [String.endsWith_eq_endsWith_toSlice, String.Slice.endsWith_string_iff]
    simp
  rw [withLineEnd, if_pos ends]

theorem withLineEnd_object (members : List (String × Json)) :
    withLineEnd (Json.object members).pretty = (Json.object members).pretty ++ "\n" := by
  obtain ⟨t, closed⟩ := Json.pretty_object members
  have other : (t ++ "\x7d").endsWith "\n" = false := by
    rw [String.endsWith_eq_endsWith_toSlice, String.Slice.endsWith_string_eq_false_iff]
    rintro ⟨before, eq⟩
    have last := congrArg List.getLast? eq
    simp at last
  rw [closed, withLineEnd, other, if_neg Bool.false_ne_true]

/-- How the text of all sections is made of the texts of single ones. -/
def Composed (format : OutputFormat) (whole outline report : String) : Prop :=
  match format with
  | .text => whole = outline ++ report
  | .json => ∃ s r, outline = s ++ "\n" ∧ report = r ++ "\n" ∧
      whole = "\x7b\n  \"structure\": " ++ deeper s ++ ",\n  \"analysis\": " ++ deeper r ++ "\n\x7d\n"

/-- What an analysis does with its text: it shows it, or writes it to a file. -/
def Delivers (disk : Disk) (output : Option String) (text : String)
    (result : Except RunError Result) : Prop :=
  match output with
  | none => ∃ status, result = .ok ⟨text, status, disk⟩
  | some path =>
    match disk.write path text.toUTF8 with
    | .ok written => ∃ status, result = .ok ⟨"", status, written⟩
    | .error cause => result = .error (.notWritten path cause)

def sectionsText (format : OutputFormat) (files : SortedMap String) (sections : Sections) : String :=
  View.analysis format (if sections = .reportOnly then none else some (.ofFiles files))
    (if sections = .structureOnly then none else some (survey files))

theorem delivers_analyze (i : Invocation) (settings : Settings) (colors : Bool) (disk : Disk)
    (files : LoadedFiles) (output : Option String) (sections : Sections) :
    Delivers disk output (sectionsText (formatFor i settings) files.files sections)
      (analyze i settings colors disk files output sections) := by
  cases output with
  | none => exact ⟨_, rfl⟩
  | some path =>
    dsimp only [Delivers, analyze]
    rw [← sectionsText]
    cases disk.write path (sectionsText (formatFor i settings) files.files sections).toUTF8 with
    | ok written => exact ⟨_, rfl⟩
    | error cause => rfl

theorem composed_text (files : SortedMap String) :
    Composed .text (sectionsText .text files .all) (sectionsText .text files .structureOnly)
      (sectionsText .text files .reportOnly) := by
  have outline := Document.endsLine_sections (.ofFiles files)
  have report := Report.endsLine_ofSurvey (survey files)
  change withLineEnd (Document.text _ _) = withLineEnd (Document.sections _) ++
    withLineEnd (Report.ofSurvey _)
  rw [withLineEnd_of_endsLine outline, withLineEnd_of_endsLine report, Document.text,
    withLineEnd_of_endsLine (report.append_left _)]

theorem composed_json (files : SortedMap String) :
    Composed .json (sectionsText .json files .all) (sectionsText .json files .structureOnly)
      (sectionsText .json files .reportOnly) := by
  have outline : (Structure.ofFiles files).json.Lawful := Structure.lawful_ofFiles files
  have report : Json.Within 6 (survey files).json := ProjectSurvey.within (survey_bounded files _)
  refine ⟨(Structure.ofFiles files).json.pretty, (survey files).json.pretty, withLineEnd_object _,
    withLineEnd_object _, ?_⟩
  have whole : (Document.json (.ofFiles files) (survey files)).pretty =
      "\x7b" ++ Json.newLine 1 ++ (JsonPrinter.quote "structure" ++ ": " ++
        deeper (Structure.ofFiles files).json.pretty ++ ("," ++ Json.newLine 1) ++
        (JsonPrinter.quote "analysis" ++ ": " ++ deeper (survey files).json.pretty)) ++
      Json.newLine 0 ++ "\x7d" := by
    rw [Json.pretty, Json.pretty, Json.pretty, ← outline.prettyAt_succ, ← report.lawful.prettyAt_succ]
    rfl
  change withLineEnd (Document.json (.ofFiles files) (survey files)).pretty = _
  have breaks : Json.newLine 1 = "\n  " ∧ Json.newLine 0 = "\n" := by decide
  have keys : JsonPrinter.quote "structure" = "\"structure\"" ∧
      JsonPrinter.quote "analysis" = "\"analysis\"" := by decide
  rw [Document.json, withLineEnd_object, ← Document.json, whole, breaks.1, breaks.2, keys.1, keys.2,
    ← String.toList_inj]
  simp

def Invocation.analyzing (i : Invocation) (path : String) (output : Option String)
    (threads : Option Nat) (sections : Sections) : Invocation :=
  { i with task := .analyze path output threads sections }

/-- The text of all sections is composed of the texts of single ones, whatever is in a folder and its
settings, and whether texts are shown or written. -/
theorem run_sections (i : Invocation) (path : String) (output : Option String) (threads : Option Nat)
    (colors : Bool) (disk : Disk) (engine : Engine) :
    match (Settings.ofFolder disk path).scanner.loadOptions? with
    | none => ∀ sections,
      (i.analyzing path output threads sections).run colors disk engine = .error .overflow
    | some options =>
      match load disk path options engine with
      | .error cause => ∀ sections, (i.analyzing path output threads sections).run colors disk engine =
          .error (.notLoaded path cause)
      | .ok _ => ∃ text : Sections → String,
        (∀ sections, Delivers disk output (text sections)
          ((i.analyzing path output threads sections).run colors disk engine)) ∧
        Composed (formatFor i (Settings.ofFolder disk path)) (text .all) (text .structureOnly)
          (text .reportOnly) := by
  cases given : (Settings.ofFolder disk path).scanner.loadOptions? with
  | none =>
    intro sections
    unfold Invocation.run
    dsimp only [Invocation.analyzing, Task.path]
    rw [given]
  | some options =>
    dsimp only
    cases h : load disk path options engine with
    | error cause =>
      intro sections
      unfold Invocation.run
      dsimp only [Invocation.analyzing, Task.path]
      rw [given]
      dsimp only
      rw [h]
    | ok files =>
      refine ⟨sectionsText (formatFor i (Settings.ofFolder disk path)) files.files, ?_, ?_⟩
      · intro sections
        have delivers := delivers_analyze (i.analyzing path output threads sections)
          (Settings.ofFolder disk path) ((Settings.ofFolder disk path).color.getD colors) disk files
          output sections
        unfold Invocation.run
        dsimp only [Invocation.analyzing, Task.path] at delivers ⊢
        rw [given]
        dsimp only
        rw [h]
        exact delivers
      · cases formatFor i (Settings.ofFolder disk path) with
        | text => exact composed_text files.files
        | json => exact composed_json files.files

end CommandLine

end CodeSurvey
