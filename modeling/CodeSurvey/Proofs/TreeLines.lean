import CodeSurvey.Proofs.DrawnTree

namespace CodeSurvey.Paths

open Text

variable {parent before path q : List String} {name a b c : String} {texts paths : List String}
  {later : List (List String)} {line : TreeLine}

theorem drawTree_eq_join (paths : List String) :
    drawTree paths = String.join ((drawnLines paths).map (·.text)) := rfl

theorem prefix_of_between {start xs ys zs : List Char} (first : start <+: xs) (last : start <+: zs)
    (low : ¬ys < xs) (high : ys < zs) : start <+: ys := by
  induction start generalizing xs ys zs with
  | nil => exact List.nil_prefix
  | cons c start ih =>
    obtain ⟨us, rfl⟩ := first
    obtain ⟨vs, rfl⟩ := last
    cases ys with
    | nil => exact absurd (List.nil_lt_cons c (start ++ us)) low
    | cons d ys =>
      rw [List.cons_append, List.cons_lt_cons_iff] at low high
      obtain ⟨notLess, low⟩ := not_or.mp low
      rcases high with lt | ⟨rfl, high⟩
      · exact absurd lt notLess
      · have low : ¬ys < start ++ us := fun less => low ⟨rfl, less⟩
        exact List.cons_prefix_cons.mpr
          ⟨rfl, ih (List.prefix_append _ _) (List.prefix_append _ _) low high⟩

theorem segments_joined_of_prefix (ne : q ≠ []) (begins : q <+: segments a) :
    segments (joined q) = q :=
  segments_joined ne fun _ mem => slash_notMem_segment (begins.subset mem)

/-- The text that all paths below a folder begin with. -/
def folderText (q : List String) : List Char := (joined q ++ "/").toList

theorem isBelow_iff_begins (ne : q ≠ []) (plain : segments (joined q) = q) :
    isBelow q (segments a) = true ↔ folderText q <+: a.toList := by
  rw [isBelow_iff]
  constructor
  · rintro ⟨name, below, eq⟩
    refine ⟨(joined (name :: below)).toList, ?_⟩
    rw [folderText, ← String.toList_append, ← joined_append ne (List.cons_ne_nil _ _), ← eq,
      joined_segments]
  · rintro ⟨rest, eq⟩
    have whole : a.toList = (joined q).toList ++ '/' :: rest := by
      rw [← eq, folderText, String.toList_append, List.append_assoc]
      rfl
    obtain ⟨name, below, more⟩ := List.exists_cons_of_ne_nil (segments_ne_nil (String.ofList rest))
    exact ⟨name, below, by rw [segments_of_slash whole, String.ofList_toList, plain, more]⟩

theorem length_le_commonLength_iff (begins : q <+: path) :
    q.length ≤ commonLength before path ↔ q <+: before := by
  induction q generalizing before path with
  | nil => simp
  | cons name q ih =>
    obtain ⟨rest, rfl⟩ := begins
    cases before with
    | nil => simp [commonLength]
    | cons first before =>
      rw [List.cons_append, commonLength, List.cons_prefix_cons, List.length_cons]
      split
      next eq => simp [eq, ih (List.prefix_append q rest)]
      next ne => simp [Ne.symm ne]

/-- Whether a line has a corner just if no later one is for an entry of the same folder. -/
def EndsGroups (lines : List TreeLine) : Prop :=
  ∀ before line after, lines = before ++ line :: after →
    (line.last = true ↔ ∀ later ∈ after, later.parent ≠ line.parent)

theorem endsGroups_cons {lines : List TreeLine} : EndsGroups (line :: lines) ↔
    (line.last = true ↔ ∀ later ∈ lines, later.parent ≠ line.parent) ∧ EndsGroups lines := by
  constructor
  · intro ends
    exact ⟨ends [] line lines rfl, fun before other after eq =>
      ends (line :: before) other after (by rw [eq, List.cons_append])⟩
  · rintro ⟨here, ends⟩ before other after eq
    cases before with
    | nil =>
      obtain ⟨rfl, rfl⟩ := List.cons.inj eq
      exact here
    | cons first before => exact ends before other after (List.cons.inj eq).2

theorem commonLength_le (before path : List String) : commonLength before path ≤ path.length := by
  induction path generalizing before with
  | nil => cases before <;> exact Nat.le_refl _
  | cons name path ih =>
    cases before with
    | nil => exact Nat.zero_le _
    | cons first before =>
      rw [commonLength]
      split
      next => exact Nat.succ_le_succ (ih before)
      next => exact Nat.zero_le _

theorem linesFor_eq_linesFrom_take : linesFor before path later =
    linesFrom (path.take (commonLength before path)).length path later := by
  rw [List.length_take, Nat.min_eq_left (commonLength_le before path)]
  rfl

theorem EndsGroups.group {lines : List TreeLine} (ends : EndsGroups lines)
    (some : lines.filter (·.parent = parent) ≠ []) :
    ∃ others final, lines.filter (·.parent = parent) = others ++ [final] ∧ final.last = true ∧
      ∀ line ∈ others, line.last = false := by
  induction lines with
  | nil => exact absurd rfl some
  | cons line lines ih =>
    obtain ⟨here, ends⟩ := endsGroups_cons.mp ends
    by_cases within : line.parent = parent
    · subst within
      rw [List.filter_cons_of_pos (by simp)]
      by_cases none : lines.filter (·.parent = line.parent) = []
      · refine ⟨[], line, by rw [none, List.nil_append], here.mpr ?_, by simp⟩
        simpa [List.filter_eq_nil_iff] using none
      · obtain ⟨others, final, eq, corner, plain⟩ := ih ends none
        have more : line.last = false := by
          refine Bool.eq_false_iff.mpr fun last => none ?_
          simpa [List.filter_eq_nil_iff] using here.mp last
        exact ⟨line :: others, final, by rw [eq, List.cons_append], corner,
          List.forall_mem_cons.mpr ⟨more, plain⟩⟩
    · rw [List.filter_cons_of_neg (by simpa using within)] at some ⊢
      exact ih ends some

/-- How often something begins to hold along a list. -/
def onsets {α : Type} (p : α → Bool) (held : Bool) : List α → Nat
  | [] => 0
  | a :: rest => (if p a && !held then 1 else 0) + onsets p (p a) rest

/-- Whether something that holds of two items of a list holds of all between them. -/
def Unbroken {α : Type} (p : α → Bool) (as : List α) : Prop :=
  ∀ a b c, [a, b, c].Sublist as → p a = true → p c = true → p b = true

section Onsets

variable {α : Type} {p : α → Bool} {x y : α} {as bs : List α}

theorem Unbroken.sublist (unbroken : Unbroken p bs) (sub : as.Sublist bs) : Unbroken p as :=
  fun a b c h => unbroken a b c (h.trans sub)

theorem onsets_of_none (held : Bool) (none : ∀ a ∈ as, p a = false) : onsets p held as = 0 := by
  induction as generalizing held with
  | nil => rfl
  | cons a as ih =>
    obtain ⟨here, none⟩ := List.forall_mem_cons.mp none
    rw [onsets, here, ih false none]
    rfl

theorem onsets_of_holds (holds : p x = true) (unbroken : Unbroken p (x :: as)) :
    onsets p true as = 0 := by
  induction as generalizing x with
  | nil => rfl
  | cons a as ih =>
    cases here : p a with
    | true =>
      rw [onsets, here, ih here (unbroken.sublist (List.sublist_cons_self _ _))]
      rfl
    | false =>
      have none : ∀ c ∈ as, p c = false := by
        refine fun c mem => Bool.eq_false_iff.mpr fun later => ?_
        have between := unbroken x a c (by simpa using mem) holds later
        exact Bool.false_ne_true (here.symm.trans between)
      rw [onsets, here, onsets_of_none false none]
      rfl

theorem onsets_of_unbroken (unbroken : Unbroken p as) :
    onsets p false as = if as.any p then 1 else 0 := by
  induction as with
  | nil => rfl
  | cons a as ih =>
    rw [onsets, List.any_cons]
    cases here : p a with
    | true =>
      rw [onsets_of_holds here unbroken]
      rfl
    | false =>
      rw [ih (unbroken.sublist (List.sublist_cons_self a as)), Bool.false_or]
      exact Nat.zero_add _

theorem onsets_append_cons (held : Bool) (breaks : p y = false) :
    onsets p held (as ++ y :: bs) = onsets p held as + onsets p false bs := by
  induction as generalizing held with
  | nil => simp [onsets, breaks]
  | cons a as ih => rw [List.cons_append, onsets, onsets, ih, Nat.add_assoc]

end Onsets

theorem countP_linesFrom (ne : q ≠ []) (later : List (List String)) (rest parent : List String) :
    (linesFrom parent.length (parent ++ rest) later).countP (·.path = q) =
      if q <+: parent ++ rest ∧ parent.length < q.length then 1 else 0 := by
  induction rest generalizing parent with
  | nil =>
    have none : ¬(q <+: parent ∧ parent.length < q.length) := fun ⟨begins, longer⟩ =>
      Nat.not_le_of_lt longer begins.length_le
    rw [List.append_nil, linesFrom_length, if_neg none]
    rfl
  | cons name below ih =>
    have deeper := ih (parent ++ [name])
    rw [List.length_append, List.length_singleton, List.append_assoc, List.singleton_append] at deeper
    rw [linesFrom_append_cons, List.countP_cons, deeper]
    have first : parent ++ [name] <+: parent ++ name :: below := ⟨below, by simp⟩
    by_cases same : parent ++ [name] = q
    · subst same
      simp [first, TreeLine.path]
    · have bound : q <+: parent ++ name :: below → q.length ≠ parent.length + 1 := by
        intro begins length
        have shorter : q <+: parent ++ [name] :=
          List.prefix_of_prefix_length_le begins first (by simp [length])
        exact same (shorter.eq_of_length (by simp [length])).symm
      have other : ¬decide (parent ++ [name] = q) = true := by simpa using same
      rw [TreeLine.path, if_neg other, Nat.add_zero]
      refine if_congr (and_congr_right fun begins => ?_) rfl rfl
      have := bound begins
      omega

theorem countP_linesFor (ne : q ≠ []) (before path : List String) (later : List (List String)) :
    (linesFor before path later).countP (·.path = q) =
      if q <+: path ∧ commonLength before path < q.length then 1 else 0 := by
  have lines := countP_linesFrom ne later (path.drop (commonLength before path))
    (path.take (commonLength before path))
  rwa [List.take_append_drop, ← linesFor_eq_linesFrom_take, List.length_take,
    Nat.min_eq_left (commonLength_le before path)] at lines

def leadsThrough (q : List String) (a : String) : Bool := q <+: segments a

theorem leadsThrough_iff : leadsThrough q a = true ↔ q <+: segments a := decide_eq_true_iff

theorem countP_treeLines (ne : q ≠ []) (before : List String) (texts : List String) :
    (treeLines before (texts.map segments)).countP (·.path = q) =
      onsets (leadsThrough q) (decide (q <+: before)) texts := by
  induction texts generalizing before with
  | nil => rfl
  | cons a texts ih =>
    rw [List.map_cons, treeLines, List.countP_append, ih, onsets, countP_linesFor ne]
    congr 1
    refine if_congr ?_ rfl rfl
    rw [Bool.and_eq_true, leadsThrough_iff, Bool.not_eq_true', decide_eq_false_iff_not]
    refine and_congr_right fun begins => ?_
    rw [← length_le_commonLength_iff begins, Nat.not_le]

theorem prefix_iff (ne : q ≠ []) (plain : segments (joined q) = q) :
    q <+: segments a ↔ a = joined q ∨ folderText q <+: a.toList := by
  rw [← isBelow_iff_begins ne plain, isBelow_iff]
  constructor
  · rintro ⟨rest, eq⟩
    cases rest with
    | nil => exact .inl (by rw [← joined_segments a, ← eq, List.append_nil])
    | cons name below => exact .inr ⟨name, below, eq.symm⟩
  · rintro (rfl | ⟨name, below, eq⟩)
    · exact plain.symm ▸ List.prefix_rfl
    · exact ⟨name :: below, eq.symm⟩

theorem joined_lt_folder (q : List String) : joined q < joined q ++ "/" := by
  show (joined q).toList < (joined q ++ "/").toList
  rw [String.toList_append]
  conv => lhs; rw [← List.append_nil (joined q).toList]
  exact List.append_left_lt (List.nil_lt_cons _ _)

theorem folder_le_of_begins (begins : folderText q <+: a.toList) : joined q ++ "/" ≤ a :=
  begins.le

/-- Between two paths through a segment, all others lead through it, unless the first ends there and
they come before what is below. -/
theorem prefix_or_between (ne : q ≠ []) (plain : segments (joined q) = q) (ab : a < b) (bc : b < c)
    (first : q <+: segments a) (last : q <+: segments c) :
    q <+: segments b ∨
      (a = joined q ∧ folderText q <+: c.toList ∧ joined q < b ∧ b < joined q ++ "/") := by
  rw [prefix_iff ne plain] at first last ⊢
  have ac := String.lt_trans ab bc
  rcases first with rfl | first
  · rcases last with rfl | last
    · exact absurd ac (String.lt_irrefl _)
    · by_cases before : b < joined q ++ "/"
      · exact .inr ⟨rfl, last, ab, before⟩
      · have start : folderText q <+: (joined q ++ "/").toList := List.prefix_rfl
        exact .inl (.inr (prefix_of_between start last before bc))
  · rcases last with rfl | last
    · have above := Std.lt_of_lt_of_le (joined_lt_folder q) (folder_le_of_begins first)
      exact absurd (String.lt_trans above ac) (String.lt_irrefl _)
    · exact .inl (.inr (prefix_of_between first last (String.lt_asymm ab) bc))

/-- Whether a path ends at a segment, others go on below it, and yet others stand between these in the
order of the bytes. -/
structure Parted (paths : List String) (q : List String) : Prop where
  file : joined q ∈ paths
  folder : ∃ p ∈ paths, folderText q <+: p.toList
  between : ∃ p ∈ paths, bytes (joined q) < bytes p ∧ bytes p < bytes (joined q ++ "/")

/-- Unless others come in between, paths begin to lead through a segment just once. -/
theorem onsets_together (ne : q ≠ []) (plain : segments (joined q) = q)
    (inOrder : texts.Pairwise (· < ·)) (whole : ¬Parted texts q)
    (some : ∃ a ∈ texts, q <+: segments a) :
    onsets (leadsThrough q) false texts = 1 := by
  have unbroken : Unbroken (leadsThrough q) texts := by
    intro a b c sub first last
    rw [leadsThrough_iff] at first last ⊢
    obtain ⟨⟨ab, ac⟩, bc⟩ : (a < b ∧ a < c) ∧ b < c := by simpa using inOrder.sublist sub
    have mem {d : String} (hd : d ∈ [a, b, c]) : d ∈ texts := sub.subset hd
    rcases prefix_or_between ne plain ab bc first last with through | ⟨rfl, folder, after, before⟩
    · exact through
    · exact absurd ⟨mem (by simp), ⟨c, mem (by simp), folder⟩, b, mem (by simp),
        bytes_lt_iff.mpr after, bytes_lt_iff.mpr before⟩ whole
  rw [onsets_of_unbroken unbroken, if_pos]
  simpa [leadsThrough] using some

theorem onsets_parted (ne : q ≠ []) (plain : segments (joined q) = q)
    (inOrder : texts.Pairwise (· < ·)) (parted : Parted texts q) :
    onsets (leadsThrough q) false texts = 2 := by
  obtain ⟨file, ⟨c, hc, folder⟩, b, hb, after, before⟩ := parted
  rw [bytes_lt_iff] at after before
  obtain ⟨xs, ys, rfl⟩ := List.append_of_mem hb
  obtain ⟨lower, upper, apart⟩ := List.pairwise_append.mp inOrder
  obtain ⟨above, upper⟩ := List.pairwise_cons.mp upper
  have below : ∀ a ∈ xs, a < b := fun a ha => apart a ha b List.mem_cons_self
  have outside {a : String} (ha : a < b) : ¬folderText q <+: a.toList := fun begins =>
    String.lt_irrefl _ (Std.lt_of_le_of_lt (folder_le_of_begins begins) (String.lt_trans ha before))
  have first : onsets (leadsThrough q) false xs = 1 := by
    refine onsets_together ne plain lower ?_ ⟨joined q, ?_, plain.symm ▸ List.prefix_rfl⟩
    · rintro ⟨-, ⟨a, ha, begins⟩, -⟩
      exact outside (below a ha) begins
    · rcases List.mem_append.mp file with mem | mem
      · exact mem
      · rcases List.mem_cons.mp mem with eq | mem
        · exact absurd (eq ▸ after) (String.lt_irrefl _)
        · exact absurd (String.lt_trans after (above _ mem)) (String.lt_irrefl _)
  have second : onsets (leadsThrough q) false ys = 1 := by
    refine onsets_together ne plain upper ?_ ⟨c, ?_, (prefix_iff ne plain).mpr (.inr folder)⟩
    · rintro ⟨mem, -⟩
      exact String.lt_irrefl _ (String.lt_trans after (above _ mem))
    · rcases List.mem_append.mp hc with mem | mem
      · exact absurd folder (outside (below c mem))
      · rcases List.mem_cons.mp mem with rfl | mem
        · exact absurd (Std.lt_of_le_of_lt (folder_le_of_begins folder) before) (String.lt_irrefl _)
        · exact mem
  have breaks : leadsThrough q b = false := by
    refine Bool.eq_false_iff.mpr fun through => ?_
    rcases (prefix_iff ne plain).mp (leadsThrough_iff.mp through) with rfl | begins
    · exact String.lt_irrefl _ after
    · exact String.lt_irrefl _ (Std.lt_of_le_of_lt (folder_le_of_begins begins) before)
  rw [onsets_append_cons false breaks, first, second]

instance (paths q : List String) : Decidable (Parted paths q) :=
  decidable_of_iff (joined q ∈ paths ∧ (∃ p ∈ paths, folderText q <+: p.toList) ∧
    ∃ p ∈ paths, bytes (joined q) < bytes p ∧ bytes p < bytes (joined q ++ "/"))
    ⟨fun ⟨file, folder, between⟩ => ⟨file, folder, between⟩,
      fun ⟨file, folder, between⟩ => ⟨file, folder, between⟩⟩

theorem parted_congr (same : ∀ p, p ∈ texts ↔ p ∈ paths) : Parted texts q ↔ Parted paths q := by
  constructor
  · rintro ⟨file, ⟨p, hp, folder⟩, b, hb, between⟩
    exact ⟨(same _).mp file, ⟨p, (same p).mp hp, folder⟩, b, (same b).mp hb, between⟩
  · rintro ⟨file, ⟨p, hp, folder⟩, b, hb, between⟩
    exact ⟨(same _).mpr file, ⟨p, (same p).mpr hp, folder⟩, b, (same b).mpr hb, between⟩

/-- Each segment that paths lead through has one line, or two if it is both a file and a folder and
other paths stand between these. No line is for anything else. -/
theorem countP_drawnLines (ne : q ≠ []) (through : ∃ p ∈ paths, q <+: segments p) :
    drawTree paths = String.join ((drawnLines paths).map (·.text)) ∧
      (∀ line ∈ drawnLines paths, ∃ p ∈ paths, line.path <+: segments p) ∧
      (drawnLines paths).countP (·.path = q) = if Parted paths q then 2 else 1 := by
  have same : ∀ p, p ∈ sorted paths ↔ p ∈ paths := fun p => mem_sorted
  obtain ⟨p, hp, begins⟩ := through
  have plain := segments_joined_of_prefix ne begins
  refine ⟨drawTree_eq_join paths, fun line mem => ?_, ?_⟩
  · obtain ⟨row, found, begins⟩ := prefix_of_mem_treeLines mem
    obtain ⟨p, hp, rfl⟩ := List.mem_map.mp found
    exact ⟨p, mem_sorted.mp hp, begins⟩
  · rw [drawnLines, countP_treeLines ne, decide_eq_false (by simpa using ne)]
    split
    next parted => exact onsets_parted ne plain (sorted_sorted paths) ((parted_congr same).mpr parted)
    next whole =>
      exact onsets_together ne plain (sorted_sorted paths) (mt (parted_congr same).mp whole)
        ⟨p, mem_sorted.mpr hp, begins⟩

/-- A file, a folder of its name, and a folder between them whose name goes on with a lower mark. -/
theorem countP_drawnLines_parted :
    (∃ p ∈ ["a/x", "a", "a-b/y", "c/x"], ["a"] <+: segments p) ∧
      (drawnLines ["a/x", "a", "a-b/y", "c/x"]).countP (·.path = ["a"]) = 2 ∧
      (drawnLines ["a/x", "a", "a-b/y", "c/x"]).countP (·.path = ["a", "x"]) = 1 ∧
      drawTree ["a/x", "a", "a-b/y", "c/x"] =
        "├── a\n├── a-b\n  └── y\n├── a\n  └── x\n└── c\n  └── x\n" := by
  have file : ∃ p ∈ ["a/x", "a", "a-b/y", "c/x"], ["a"] <+: segments p := by decide
  have below : ∃ p ∈ ["a/x", "a", "a-b/y", "c/x"], ["a", "x"] <+: segments p := by decide
  obtain ⟨-, -, twice⟩ := countP_drawnLines (List.cons_ne_nil _ _) file
  obtain ⟨-, -, once⟩ := countP_drawnLines (List.cons_ne_nil _ _) below
  rw [if_pos (by decide)] at twice
  rw [if_neg (by decide)] at once
  exact ⟨file, twice, once, by decide +kernel⟩

end CodeSurvey.Paths
