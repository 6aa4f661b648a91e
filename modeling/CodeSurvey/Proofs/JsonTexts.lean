import CodeSurvey.Proofs.Arrangement
import CodeSurvey.Proofs.NumberTexts
import CodeSurvey.Proofs.Segments

namespace CodeSurvey

namespace Json

variable {arrangement : Arrangement}

mutual

/-- A value as its text is read again: numbers as they are read, and members arranged anew. -/
def reread (arrangement : Arrangement) : Json → Json
  | null => null
  | bool b => bool b
  | number n => number n.reread
  | string s => string s
  | array items => array (rereadItems arrangement items)
  | object members => object (arrangement.arrange (rereadMembers arrangement members))

@[inherit_doc reread]
def rereadItems (arrangement : Arrangement) : List Json → List Json
  | [] => []
  | j :: rest => reread arrangement j :: rereadItems arrangement rest

@[inherit_doc reread]
def rereadMembers (arrangement : Arrangement) : List (String × Json) → List (String × Json)
  | [] => []
  | (key, j) :: rest => (key, reread arrangement j) :: rereadMembers arrangement rest

end

theorem rereadItems_eq_map (items : List Json) :
    rereadItems arrangement items = items.map (reread arrangement) := by
  induction items with
  | nil => rfl
  | cons j rest ih => rw [rereadItems, ih, List.map_cons]

theorem rereadMembers_eq_map (members : List (String × Json)) :
    rereadMembers arrangement members = members.map fun (key, j) => (key, reread arrangement j) := by
  induction members with
  | nil => rfl
  | cons first rest ih => rw [rereadMembers, ih, List.map_cons]

theorem writtenItems_eq_map (items : List Json) : writtenItems items = items.map written := by
  induction items with
  | nil => rfl
  | cons j rest ih => rw [writtenItems, ih, List.map_cons]

theorem writtenMembers_eq_map (members : List (String × Json)) :
    writtenMembers members = members.map fun (key, j) => (some key, written j) := by
  induction members with
  | nil => rfl
  | cons first rest ih => rw [writtenMembers, ih, List.map_cons]

end Json

namespace JsonReader

open JsonPrinter

variable {c : Char} {cs gap colon before more after text rest : List Char} {j : Json}
  {js : List Json} {key : String} {ms : List (String × Json)} {fuel : Nat}

section Strings

theorem hex4?_hexDigit : ∀ n < 32, hex4? '0' '0' (hexDigit (n / 16)) (hexDigit (n % 16)) = some n := by
  decide

theorem exists_piece (c : Char) : ∃ p : Piece,
    (∀ done rest, pieces done (escape c ++ rest) = pieces (p :: done) rest) ∧
      ∀ done rest, assemble done (p :: rest) = assemble (c :: done) rest := by
  have marked (e c : Char) (he : escape? e = some c) (done : List Piece) (rest : List Char) :
      pieces done ('\\' :: e :: rest) = pieces (.char c :: done) rest := by
    rw [pieces, he]
    rintro a b c d rest rfl
    cases he
  unfold escape
  split
  case h_8 quote backslash _ _ _ _ _ =>
    split
    next control =>
      refine ⟨.unit c.toNat, fun done rest => ?_, fun done rest => ?_⟩
      · simp only [List.cons_append, List.nil_append, pieces, hex4?_hexDigit c.toNat control]
      · have lead : isLead c.toNat = false := by
          simp only [isLead, Bool.and_eq_false_iff, decide_eq_false_iff_not]
          omega
        have trail : isTrail c.toNat = false := by
          simp only [isTrail, Bool.and_eq_false_iff, decide_eq_false_iff_not]
          omega
        cases rest with
        | nil => simp [assemble, lead, trail]
        | cons p rest => cases p <;> simp [assemble, lead, trail]
    next plain =>
      refine ⟨.char c, fun done rest => ?_, fun _ _ => by rw [assemble]⟩
      have kept : (decide (c.toNat < 0x20) || decide (c = '\\')) = false := by
        simpa using ⟨Nat.not_lt.mp plain, fun eq => backslash eq⟩
      simp only [List.cons_append, List.nil_append]
      rw [pieces, kept, if_neg Bool.false_ne_true]
      · exact quote
      · exact fun _ _ _ _ _ eq => (backslash eq).elim
      · exact fun _ _ eq => (backslash eq).elim
  all_goals exact ⟨.char _, fun done rest => marked _ _ rfl done rest, fun _ _ => by rw [assemble]⟩

theorem exists_pieces (cs : List Char) : ∃ ps : List Piece,
    (∀ done rest, pieces done (cs.flatMap escape ++ rest) = pieces (ps.reverse ++ done) rest) ∧
      ∀ done, assemble done ps = some (done.reverse ++ cs) := by
  induction cs with
  | nil => exact ⟨[], fun _ _ => rfl, fun done => by simp [assemble]⟩
  | cons c cs ih =>
    obtain ⟨p, piece, character⟩ := exists_piece c
    obtain ⟨ps, read, value⟩ := ih
    refine ⟨p :: ps, fun done rest => ?_, fun done => ?_⟩
    · rw [List.flatMap_cons, List.append_assoc, piece, read, List.reverse_cons, List.append_assoc,
        List.singleton_append]
    · rw [character, value, List.reverse_cons, List.append_assoc, List.singleton_append]

theorem toList_quote (s : String) :
    (quote s).toList = '"' :: (s.toList.flatMap escape ++ ['"']) := String.toList_ofList

theorem string?_quote (s : String) (rest : List Char) :
    string? (s.toList.flatMap escape ++ '"' :: rest) = some (some s, rest) := by
  obtain ⟨ps, read, value⟩ := exists_pieces s.toList
  rw [string?, read, List.append_nil, pieces]
  simp [value]

end Strings

section Grammar

/-- What has a text: a value, or the items of an array and the members of an object up to the
closing bracket. -/
inductive Part where
  | value (j : Json)
  | items (js : List Json)
  | members (ms : List (String × Json))

def Gap (cs : List Char) : Prop := ∀ c ∈ cs, isSpace c = true

/-- The texts of values, with gaps wherever the reader accepts them between two parts. -/
inductive Writes : Part → List Char → Prop where
  | null : Writes (.value .null) "null".toList
  | bool (b : Bool) : Writes (.value (.bool b)) (if b then "true" else "false").toList
  | number {n : JsonNumber} (h : n.Lawful) : Writes (.value (.number n)) n.text.toList
  | string (s : String) : Writes (.value (.string s)) (quote s).toList
  | noItems : Writes (.value (.array [])) ['[', ']']
  | array {gap text : List Char} {js : List Json} (hg : Gap gap) (h : Writes (.items js) text) :
    Writes (.value (.array js)) ('[' :: (gap ++ text))
  | noMembers : Writes (.value (.object [])) ['\x7b', '\x7d']
  | object {gap text : List Char} {ms : List (String × Json)} (hg : Gap gap)
    (h : Writes (.members ms) text) : Writes (.value (.object ms)) ('\x7b' :: (gap ++ text))
  | lastItem {gap text : List Char} {j : Json} (h : Writes (.value j) text) (hg : Gap gap) :
    Writes (.items [j]) (text ++ (gap ++ [']']))
  | item {before after text rest : List Char} {j : Json} {js : List Json}
    (h : Writes (.value j) text) (hb : Gap before) (ha : Gap after) (more : Writes (.items js) rest) :
    Writes (.items (j :: js)) (text ++ (before ++ ',' :: (after ++ rest)))
  | lastMember {after gap text : List Char} {j : Json} (key : String) (ha : Gap after)
    (h : Writes (.value j) text) (hg : Gap gap) :
    Writes (.members [(key, j)]) ((quote key).toList ++ ':' :: (after ++ (text ++ (gap ++ ['\x7d']))))
  | member {colon before after text rest : List Char} {j : Json} {ms : List (String × Json)}
    (key : String) (hc : Gap colon) (h : Writes (.value j) text) (hb : Gap before) (ha : Gap after)
    (more : Writes (.members ms) rest) :
    Writes (.members ((key, j) :: ms))
      ((quote key).toList ++ ':' :: (colon ++ (text ++ (before ++ ',' :: (after ++ rest)))))

theorem eq_of_isSpace (h : isSpace c = true) : c = ' ' ∨ c = '\t' ∨ c = '\n' ∨ c = '\r' := by
  simpa [isSpace, or_assoc] using h

structure Starts (text : List Char) : Prop where
  nonempty : text ≠ []
  head : ∀ c ∈ text.head?, isSpace c = false ∧ c ≠ ']' ∧ c ≠ '\x7d'

theorem Starts.cons (hs : isSpace c = false) (h : c ≠ ']') (h' : c ≠ '\x7d') : Starts (c :: cs) :=
  ⟨by simp, fun _ eq => Option.some.inj eq ▸ ⟨hs, h, h'⟩⟩

theorem Starts.append (h : Starts text) : Starts (text ++ rest) :=
  ⟨by simp [h.nonempty], by rw [List.head?_append_of_ne_nil _ h.nonempty]; exact h.head⟩

theorem Writes.starts {part : Part} (h : Writes part text) : Starts text := by
  induction h with
  | null => exact .cons (by decide) (by decide) (by decide)
  | bool b => cases b <;> exact .cons (by decide) (by decide) (by decide)
  | number h =>
    obtain ⟨s, text, proper, -⟩ := JsonNumber.exists_spelling h
    obtain ⟨c, cs, eq, first⟩ := Spelling.text_eq_cons proper
    rw [← text, eq]
    rcases first with rfl | digit
    · exact .cons (by decide) (by decide) (by decide)
    · refine .cons (Bool.eq_false_iff.mpr fun space => ?_) ?_ ?_
      · rcases eq_of_isSpace space with rfl | rfl | rfl | rfl <;> exact absurd digit (by decide)
      all_goals
        rintro rfl
        exact absurd digit (by decide)
  | string s =>
    rw [toList_quote]
    exact .cons (by decide) (by decide) (by decide)
  | noItems | array | noMembers | object => exact .cons (by decide) (by decide) (by decide)
  | lastItem h hg ih => exact ih.append
  | item h hb ha more ih => exact ih.append
  | lastMember | member =>
    rw [toList_quote]
    exact .cons (by decide) (by decide) (by decide)

end Grammar

section Reading

theorem Gap.nil : Gap [] := nofun

theorem skipSpace_gap (hg : Gap gap) (rest : List Char) (ends : ∀ c ∈ rest.head?, isSpace c = false) :
    skipSpace (gap ++ rest) = rest := by
  rw [skipSpace, List.dropWhile_append_of_pos hg]
  cases rest with
  | nil => rfl
  | cons c rest => rw [List.dropWhile_cons, ends c rfl, if_neg Bool.false_ne_true]

theorem Starts.skipSpace (h : Starts text) (hg : Gap gap) :
    skipSpace (gap ++ (text ++ rest)) = text ++ rest :=
  skipSpace_gap hg _ fun c hc => (h.append.head c hc).1

theorem Gap.ends (hg : Gap gap) (hc : c.isDigit = false ∧ c ≠ '.' ∧ c ≠ 'e' ∧ c ≠ 'E') :
    Spelling.Ends (gap ++ c :: rest) := by
  intro d hd
  cases gap with
  | nil => exact Option.some.inj hd ▸ hc
  | cons g gap =>
    obtain rfl : g = d := by simpa using hd
    rcases eq_of_isSpace (hg g List.mem_cons_self) with rfl | rfl | rfl | rfl <;> decide

/-- What the reader finds in a text, whatever follows it. Fuel is spent on values and on the lists
around them, so that there are two units of it for each character. -/
def Part.Read : Part → List Char → Prop
  | .value j, text => ∀ (fuel : Nat) (rest : List Char), 2 * text.length ≤ fuel → Spelling.Ends rest →
    value? fuel (text ++ rest) = some ((j.reread .asWritten).written, rest)
  | .items js, text => ∀ (fuel : Nat) (rest : List Char), 2 * text.length < fuel →
    items? fuel (text ++ rest) = some (js.map fun j => (j.reread .asWritten).written, rest)
  | .members ms, text => ∀ (fuel : Nat) (rest : List Char), 2 * text.length < fuel →
    members? fuel (text ++ rest) =
      some (ms.map fun (key, j) => (some key, (j.reread .asWritten).written), rest)

theorem value?_number (first : c = '-' ∨ c.isDigit = true) :
    value? (fuel + 1) (c :: cs) =
      (number? (c :: cs)).map fun (l, rest) => (.number l.value?, rest) := by
  have ne (d : Char) (hd : d ≠ '-' ∧ d.isDigit = false) : c ≠ d := by
    rintro rfl
    rcases first with rfl | digit
    · exact hd.1 rfl
    · exact Bool.false_ne_true (hd.2.symm.trans digit)
  rw [value?]
  all_goals
    rintro _ ⟨⟩
    exact ne _ (by decide) rfl

theorem value?_spelling {s : Spelling} (proper : s.Proper) (ends : Spelling.Ends rest) :
    value? (fuel + 1) (s.text ++ rest) = some (.number s.literal.value?, rest) := by
  obtain ⟨c, cs, eq, first⟩ := Spelling.text_eq_cons proper
  have read := Spelling.number?_text proper ends
  rw [eq, List.cons_append] at read ⊢
  rw [value?_number first, read, Option.map_some]

theorem value?_quote (s : String) :
    value? (fuel + 1) ((quote s).toList ++ rest) = some (.string (some s), rest) := by
  rw [toList_quote, List.cons_append, List.append_assoc, value?, List.singleton_append, string?_quote]
  rfl

theorem value?_array (h : Starts text) (hg : Gap gap) :
    value? (fuel + 1) ('[' :: (gap ++ (text ++ rest))) =
      (items? fuel (text ++ rest)).map fun (items, rest) => (.array items, rest) := by
  rw [value?, h.skipSpace hg]
  split
  next eq =>
    have := h.append.head (c := ']') (by rw [eq]; rfl)
    exact absurd rfl this.2.1
  next => rfl

theorem value?_object (h : Starts text) (hg : Gap gap) :
    value? (fuel + 1) ('\x7b' :: (gap ++ (text ++ rest))) =
      (members? fuel (text ++ rest)).map fun (members, rest) => (.object members, rest) := by
  rw [value?, h.skipSpace hg]
  split
  next eq =>
    have := h.append.head (c := '\x7d') (by rw [eq]; rfl)
    exact absurd rfl this.2.2
  next => rfl

theorem items?_last {w : WrittenJson} (hg : Gap gap)
    (value : value? fuel cs = some (w, gap ++ ']' :: rest)) :
    items? (fuel + 1) cs = some ([w], rest) := by
  have skip := skipSpace_gap hg (']' :: rest) (by simp [isSpace])
  simp only [items?, value, skip, Option.bind_eq_bind, Option.bind_some]

theorem items?_more {w : WrittenJson} (hb : Gap before)
    (value : value? fuel cs = some (w, before ++ ',' :: more)) :
    items? (fuel + 1) cs =
      (items? fuel (skipSpace more)).map fun (items, rest) => (w :: items, rest) := by
  have skip := skipSpace_gap hb (',' :: more) (by simp [isSpace])
  simp only [items?, value, skip, Option.bind_eq_bind, Option.bind_some]
  cases items? fuel (skipSpace more) <;> rfl

theorem members?_last {w : WrittenJson} (hc : Gap colon) (h : Starts text) (hg : Gap gap)
    (value : value? fuel (text ++ cs) = some (w, gap ++ '\x7d' :: rest)) :
    members? (fuel + 1) ((quote key).toList ++ ':' :: (colon ++ (text ++ cs))) =
      some ([(some key, w)], rest) := by
  have mark : skipSpace (':' :: (colon ++ (text ++ cs))) = ':' :: (colon ++ (text ++ cs)) := rfl
  have skip := skipSpace_gap hg ('\x7d' :: rest) (by simp [isSpace])
  simp only [toList_quote, List.cons_append, List.append_assoc, List.nil_append, members?,
    string?_quote, mark, h.skipSpace hc, value, skip, Option.bind_eq_bind, Option.bind_some]

theorem members?_more {w : WrittenJson} (hc : Gap colon) (h : Starts text) (hb : Gap before)
    (value : value? fuel (text ++ cs) = some (w, before ++ ',' :: more)) :
    members? (fuel + 1) ((quote key).toList ++ ':' :: (colon ++ (text ++ cs))) =
      (members? fuel (skipSpace more)).map fun (members, rest) => ((some key, w) :: members, rest) := by
  have mark : skipSpace (':' :: (colon ++ (text ++ cs))) = ':' :: (colon ++ (text ++ cs)) := rfl
  have skip := skipSpace_gap hb (',' :: more) (by simp [isSpace])
  simp only [toList_quote, List.cons_append, List.append_assoc, List.nil_append, members?,
    string?_quote, mark, h.skipSpace hc, value, skip, Option.bind_eq_bind, Option.bind_some]
  cases members? fuel (skipSpace more) <;> rfl

theorem Starts.exists_fuel (h : Starts text) (enough : 2 * text.length ≤ fuel) : ∃ k, fuel = k + 1 := by
  have := List.length_pos_iff.mpr h.nonempty
  exact Nat.exists_eq_add_of_le' (by omega)

/-- The reader finds in a text what was written. -/
theorem Writes.read {part : Part} (h : Writes part text) : part.Read text := by
  induction h with
  | null =>
    intro fuel rest hf _
    obtain ⟨k, rfl⟩ := Writes.null.starts.exists_fuel hf
    rfl
  | bool b =>
    intro fuel rest hf _
    obtain ⟨k, rfl⟩ := (Writes.bool b).starts.exists_fuel hf
    cases b <;> rfl
  | number h =>
    intro fuel rest hf ends
    obtain ⟨k, rfl⟩ := (Writes.number h).starts.exists_fuel hf
    obtain ⟨s, text, proper, value⟩ := JsonNumber.exists_spelling h
    rw [← text, value?_spelling proper ends, value]
    rfl
  | string s =>
    intro fuel rest hf _
    obtain ⟨k, rfl⟩ := (Writes.string s).starts.exists_fuel hf
    rw [value?_quote]
    rfl
  | noItems =>
    intro fuel rest hf _
    obtain ⟨k, rfl⟩ := Writes.noItems.starts.exists_fuel hf
    rfl
  | noMembers =>
    intro fuel rest hf _
    obtain ⟨k, rfl⟩ := Writes.noMembers.starts.exists_fuel hf
    rfl
  | array hg h ih =>
    intro fuel rest hf _
    obtain ⟨k, rfl⟩ := (Writes.array hg h).starts.exists_fuel hf
    simp only [List.length_cons, List.length_append] at hf
    rw [List.cons_append, List.append_assoc, value?_array h.starts hg, ih k rest (by omega), Json.reread,
      Json.rereadItems_eq_map, Json.written, Json.writtenItems_eq_map, List.map_map]
    rfl
  | object hg h ih =>
    intro fuel rest hf _
    obtain ⟨k, rfl⟩ := (Writes.object hg h).starts.exists_fuel hf
    simp only [List.length_cons, List.length_append] at hf
    rw [List.cons_append, List.append_assoc, value?_object h.starts hg, ih k rest (by omega), Json.reread,
      Json.rereadMembers_eq_map, Arrangement.arrange_asWritten, Json.written,
      Json.writtenMembers_eq_map, List.map_map]
    rfl
  | lastItem h hg ih =>
    intro fuel rest hf
    obtain ⟨k, rfl⟩ := (Writes.lastItem h hg).starts.exists_fuel hf.le
    simp only [List.length_append] at hf
    rw [List.append_assoc, List.append_assoc]
    exact items?_last hg (ih k _ (by omega) (hg.ends (by decide)))
  | item h hb ha hm ih ihMore =>
    intro fuel rest hf
    obtain ⟨k, rfl⟩ := (Writes.item h hb ha hm).starts.exists_fuel hf.le
    simp only [List.length_append, List.length_cons] at hf
    rw [List.append_assoc, List.append_assoc, List.cons_append, List.append_assoc,
      items?_more hb (ih k _ (by omega) (hb.ends (by decide))), hm.starts.skipSpace ha,
      ihMore k rest (by omega)]
    rfl
  | lastMember key ha h hg ih =>
    intro fuel rest hf
    obtain ⟨k, rfl⟩ := (Writes.lastMember key ha h hg).starts.exists_fuel hf.le
    simp only [List.length_append, List.length_cons] at hf
    rw [List.append_assoc, List.cons_append, List.append_assoc, List.append_assoc, List.append_assoc]
    exact members?_last ha h.starts hg (ih k _ (by omega) (hg.ends (by decide)))
  | member key hc h hb ha hm ih ihMore =>
    intro fuel rest hf
    obtain ⟨k, rfl⟩ := (Writes.member key hc h hb ha hm).starts.exists_fuel hf.le
    simp only [List.length_append, List.length_cons] at hf
    rw [List.append_assoc, List.cons_append, List.append_assoc, List.append_assoc, List.append_assoc,
      List.cons_append, List.append_assoc,
      members?_more hc h.starts hb (ih k _ (by omega) (hb.ends (by decide))), hm.starts.skipSpace ha,
      ihMore k rest (by omega)]
    rfl

theorem Writes.ofText? (h : Writes (.value j) text) :
    WrittenJson.ofText? (String.ofList text) = some (j.reread .asWritten).written := by
  have skip : skipSpace text = text := by
    simpa using skipSpace_gap Gap.nil text fun c hc => (h.starts.head c hc).1
  have read := h.read (2 * text.length + 2) [] (by omega) .nil
  rw [List.append_nil] at read
  simp only [WrittenJson.ofText?, String.toList_ofList, skip, read]
  rfl

end Reading

section Printing

variable {f : Json → String}

theorem writes_items (ha : Gap after) (hg : Gap gap) (ne : js ≠ [])
    (h : ∀ j ∈ js, Writes (.value j) (f j).toList) :
    Writes (.items js)
      ((',' :: after).intercalate (js.map fun j => (f j).toList) ++ (gap ++ [']'])) := by
  induction js with
  | nil => exact absurd rfl ne
  | cons j js ih =>
    have first := h j List.mem_cons_self
    cases js with
    | nil =>
      rw [List.map_singleton, List.intercalate_singleton]
      exact .lastItem first hg
    | cons j' js =>
      have others := ih (by simp) fun i hi => h i (List.mem_cons_of_mem _ hi)
      have := Writes.item first Gap.nil ha others
      simpa [List.intercalate_cons_cons] using this

theorem writes_members {colon : List Char} (hc : Gap colon) (ha : Gap after) (hg : Gap gap)
    (ne : ms ≠ []) (h : ∀ e ∈ ms, Writes (.value e.2) (f e.2).toList) :
    Writes (.members ms)
      ((',' :: after).intercalate
        (ms.map fun (key, j) => (quote key).toList ++ ':' :: (colon ++ (f j).toList)) ++
        (gap ++ ['\x7d'])) := by
  induction ms with
  | nil => exact absurd rfl ne
  | cons m ms ih =>
    obtain ⟨key, j⟩ := m
    have first := h (key, j) List.mem_cons_self
    cases ms with
    | nil =>
      rw [List.map_singleton, List.intercalate_singleton]
      simpa using Writes.lastMember key hc first hg
    | cons m' ms =>
      have others := ih (by simp) fun i hi => h i (List.mem_cons_of_mem _ hi)
      have := Writes.member key hc first Gap.nil ha others
      simpa [List.intercalate_cons_cons] using this

end Printing

end JsonReader

namespace Json

open JsonReader

variable {j : Json}

/-- All numbers of a value can be read. -/
inductive Lawful : Json → Prop where
  | null : Lawful .null
  | bool (b : Bool) : Lawful (.bool b)
  | number {n : JsonNumber} (h : n.Lawful) : Lawful (.number n)
  | string (s : String) : Lawful (.string s)
  | array {items : List Json} (h : ∀ j ∈ items, Lawful j) : Lawful (.array items)
  | object {members : List (String × Json)} (h : ∀ e ∈ members, Lawful e.2) :
    Lawful (.object members)

theorem compactItems_eq_map (items : List Json) : compactItems items = items.map compact := by
  induction items with
  | nil => rfl
  | cons j rest ih => rw [compactItems, ih, List.map_cons]

theorem compactMembers_eq_map (members : List (String × Json)) :
    compactMembers members = members.map fun (key, j) => JsonPrinter.quote key ++ ":" ++ compact j := by
  induction members with
  | nil => rfl
  | cons first rest ih => rw [compactMembers, ih, List.map_cons]

theorem prettyItems_eq_map (level : Nat) (items : List Json) :
    prettyItems level items = items.map (prettyAt level) := by
  induction items with
  | nil => rfl
  | cons j rest ih => rw [prettyItems, ih, List.map_cons]

theorem prettyMembers_eq_map (level : Nat) (members : List (String × Json)) :
    prettyMembers level members =
      members.map fun (key, j) => JsonPrinter.quote key ++ ": " ++ prettyAt level j := by
  induction members with
  | nil => rfl
  | cons first rest ih => rw [prettyMembers, ih, List.map_cons]

theorem Lawful.writes_compact (h : j.Lawful) : Writes (.value j) j.compact.toList := by
  induction h with
  | null => exact .null
  | bool b => exact .bool b
  | number h => exact .number h
  | string s => exact .string s
  | @array items h ih =>
    by_cases empty : items = []
    · subst empty
      exact .noItems
    · have := Writes.array Gap.nil (writes_items Gap.nil Gap.nil empty ih)
      simpa [compact, compactItems_eq_map, Function.comp_def] using this
  | @object members h ih =>
    by_cases empty : members = []
    · subst empty
      exact .noMembers
    · have := Writes.object Gap.nil (writes_members Gap.nil Gap.nil Gap.nil empty ih)
      simpa [compact, compactMembers_eq_map, Function.comp_def] using this

theorem gap_newLine (level : Nat) : Gap (newLine level).toList := by
  intro c hc
  rw [newLine, Text.toList_pushn, List.mem_append] at hc
  rcases hc with hc | hc
  · obtain rfl : c = '\n' := by simpa using hc
    rfl
  · obtain rfl : c = ' ' := List.eq_of_mem_replicate hc
    rfl

theorem Lawful.writes_prettyAt (h : j.Lawful) (level : Nat) :
    Writes (.value j) (j.prettyAt level).toList := by
  have space : Gap [' '] := by simp [Gap, isSpace]
  induction h generalizing level with
  | null => exact .null
  | bool b => exact .bool b
  | number h => exact .number h
  | string s => exact .string s
  | @array items h ih =>
    by_cases empty : items = []
    · subst empty
      simpa [prettyAt, prettyItems, block] using Writes.noItems
    · obtain ⟨part, parts, eq⟩ := List.exists_cons_of_ne_nil
        (l := prettyItems (level + 1) items) (by simpa [prettyItems_eq_map] using empty)
      have := Writes.array (gap_newLine (level + 1)) (writes_items (gap_newLine (level + 1))
        (gap_newLine level) empty fun j hj => ih j hj (level + 1))
      rw [prettyAt, eq, block, ← eq, prettyItems_eq_map]
      · simpa [Function.comp_def] using this
      · simp
  | @object members h ih =>
    by_cases empty : members = []
    · subst empty
      simpa [prettyAt, prettyMembers, block] using Writes.noMembers
    · obtain ⟨part, parts, eq⟩ := List.exists_cons_of_ne_nil
        (l := prettyMembers (level + 1) members) (by simpa [prettyMembers_eq_map] using empty)
      have := Writes.object (gap_newLine (level + 1)) (writes_members space (gap_newLine (level + 1))
        (gap_newLine level) empty fun e he => ih e he (level + 1))
      rw [prettyAt, eq, block, ← eq, prettyMembers_eq_map]
      · simpa [Function.comp_def] using this
      · simp

theorem Lawful.ofText?_compact (h : j.Lawful) :
    WrittenJson.ofText? j.compact = some (j.reread .asWritten).written := by
  simpa using h.writes_compact.ofText?

theorem Lawful.ofText?_pretty (h : j.Lawful) :
    WrittenJson.ofText? j.pretty = some (j.reread .asWritten).written := by
  simpa [pretty] using (h.writes_prettyAt 0).ofText?

end Json

end CodeSurvey
