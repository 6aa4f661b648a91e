import CodeSurvey.Loading.Walk
import CodeSurvey.Proofs.ByteOrder
import CodeSurvey.Proofs.Segments

namespace CodeSurvey.Loading

open Paths GlobReader

theorem toList_loop (content : ByteArray) (i : Nat) (before : List UInt8) :
    ByteArray.toList.loop content i before = before.reverse ++ content.data.toList.drop i := by
  fun_induction ByteArray.toList.loop content i before with
  | case1 i before lt ih =>
    have at_i : i < content.data.toList.length := by simpa using lt
    rw [ih, List.drop_eq_getElem_cons at_i]
    simp [ByteArray.get!, lt]
  | case2 i before le =>
    rw [List.drop_of_length_le (by simpa using le), List.append_nil]

theorem bytes_append (first second : String) :
    Text.bytes (first ++ second) = Text.bytes first ++ Text.bytes second := by
  simp only [Text.bytes_eq_flatMap, String.toList_append, List.flatMap_append]

theorem pathBytes_eq (path : List String) : pathBytes path = Text.bytes (joined path) :=
  toList_loop (joined path).toUTF8 0 []

theorem pathBytes_concat (path : List String) (name : String) :
    pathBytes (path ++ [name]) = Text.bytes name ∨
      ∃ before, pathBytes (path ++ [name]) = before ++ slash :: Text.bytes name := by
  simp only [pathBytes_eq]
  induction path with
  | nil => exact .inl (congrArg Text.bytes String.intercalate_singleton)
  | cons first rest ih =>
    have split : Text.bytes (joined (first :: rest ++ [name])) =
        Text.bytes first ++ slash :: Text.bytes (joined (rest ++ [name])) := by
      obtain ⟨next, others, eq⟩ := List.exists_cons_of_ne_nil (List.concat_ne_nil name rest)
      rw [List.cons_append, eq, joined, String.intercalate_cons_cons, bytes_append, bytes_append,
        List.append_assoc]
      rfl
    rw [split]
    rcases ih with alone | ⟨before, after⟩
    · exact .inr ⟨_, by rw [alone]⟩
    · exact .inr ⟨Text.bytes first ++ slash :: before, by rw [after]; simp⟩

namespace Glob

theorem mem_restsAfterSlash (before rest : List UInt8) :
    rest ∈ restsAfterSlash (before ++ slash :: rest) := by
  induction before with
  | nil => simp [restsAfterSlash]
  | cons b before ih =>
    rw [List.cons_append, restsAfterSlash]
    split
    next => exact List.mem_cons_of_mem _ ih
    next => exact ih

theorem mem_restsOfParts_bytes {bs rest : List UInt8} {texts : List (List UInt8)}
    (h : bs ++ rest ∈ texts) : rest ∈ restsOfParts (bs.map .byte) texts := by
  induction bs generalizing texts with
  | nil => simpa [restsOfParts] using h
  | cons b bs ih =>
    rw [List.map_cons, restsOfParts]
    refine ih (List.mem_eraseDups.mpr (List.mem_flatMap.mpr ⟨_, h, ?_⟩))
    simp [restsOfPart]

theorem matchesPath_name (path : List String) (name : String) :
    matchesPath (.foldersFirst :: (Text.bytes name).map .byte) (pathBytes (path ++ [name])) =
      true := by
  have rest : Text.bytes name ∈ restsOfPart .foldersFirst (pathBytes (path ++ [name])) := by
    rw [restsOfPart]
    rcases pathBytes_concat path name with alone | ⟨before, after⟩
    · exact alone ▸ List.mem_cons_self
    · exact List.mem_cons_of_mem _ (after ▸ mem_restsAfterSlash before _)
  unfold matchesPath
  split
  next => rfl
  next =>
    refine List.any_eq_true.mpr ⟨[], ?_, rfl⟩
    rw [restsOfParts]
    refine mem_restsOfParts_bytes (List.mem_eraseDups.mpr ?_)
    rw [List.append_nil, List.flatMap_singleton]
    exact rest

end Glob

section Reading

/-- Whether a character has no meaning in a rule, other than as a part of a pattern. -/
def isQuiet (c : Char) : Bool := !Text.isBlank c && !(['/', '*', '\\'].contains c)

/-- Whether a character stands for itself in a pattern. -/
def isPlain (c : Char) : Bool := !(['?', '*', '[', '\x7b', '\x7d', ',', '\\'].contains c)

theorem isQuiet_iff {c : Char} :
    isQuiet c = true ↔ Text.isBlank c = false ∧ c ≠ '/' ∧ c ≠ '*' ∧ c ≠ '\\' := by
  simp [isQuiet]

theorem bytesOf_eq (c : Char) : bytesOf c = String.utf8EncodeChar c := by
  refine (toList_loop (String.singleton c).toUTF8 0 []).trans ?_
  exact (Text.bytes_eq_flatMap (String.singleton c)).trans (by simp)

theorem parts?_cons_plain {c : Char} (plain : isPlain c = true) (openClasses : Bool) (fuel : Nat)
    (s : State) (rest : List Char) : parts? openClasses (fuel + 1) s (c :: rest) =
      parts? openClasses fuel ((s.pushChar c).after c) rest := by
  simp only [isPlain, Bool.not_eq_true', List.contains_eq_mem, decide_eq_false_iff_not,
    List.mem_cons, not_or] at plain
  rw [parts?] <;> simp_all

theorem parts?_plain {cs : List Char} (plain : ∀ c ∈ cs, isPlain c = true) {openClasses : Bool}
    {fuel : Nat} {s : State} (closed : s.groups = []) (le : cs.length ≤ fuel) :
    parts? openClasses fuel s cs =
      some (s.parts.reverse ++ (cs.flatMap String.utf8EncodeChar).map .byte) := by
  induction cs generalizing fuel s with
  | nil => cases fuel <;> simp [parts?, closed]
  | cons c cs ih =>
    obtain ⟨first, rest⟩ := List.forall_mem_cons.mp plain
    obtain ⟨fuel, rfl⟩ := Nat.exists_eq_add_one_of_ne_zero (Nat.ne_zero_of_lt le)
    have closed' : ((s.pushChar c).after c).groups = [] := closed
    rw [parts?_cons_plain first, ih rest closed' (Nat.le_of_succ_le_succ le)]
    simp [State.pushChar, State.after, bytesOf_eq]

theorem trimLine_eq_self {line : List Char} {last : Char} (ends : line.getLast? = some last)
    (visible : Text.isBlank last = false) : IgnoreRule.trimLine line = line := by
  obtain ⟨front, rfl⟩ := List.getLast?_eq_some_iff.mp ends
  have kept : Text.dropWhileEnd Text.isBlank (front ++ [last]) = front ++ [last] := by
    simp [Text.dropWhileEnd, visible]
  rw [IgnoreRule.trimLine, kept, ite_self]

section Quiet

variable {body : List Char} (ne : body ≠ []) (quiet : ∀ c ∈ body, isQuiet c = true)

include quiet

theorem notMem_of_quiet {c : Char} (h : isQuiet c = false) : c ∉ body :=
  fun mem => Bool.false_ne_true (h.symm.trans (quiet c mem))

include ne

theorem pattern_quiet : IgnoreRule.pattern false body = "**/".toList ++ body := by
  have star : '*' ∉ body := notMem_of_quiet quiet (by decide)
  have slash : body.contains '/' = false := by simpa using notMem_of_quiet quiet (by decide)
  have stars : body ≠ ['*', '*'] := by
    rintro rfl
    exact star List.mem_cons_self
  have ends : "/**".toList.isSuffixOf ("**/".toList ++ body) = false := by
    refine Bool.eq_false_iff.mpr fun suffix => star (List.mem_of_getLast? ?_)
    obtain ⟨before, eq⟩ := List.isSuffixOf_iff_suffix.mp suffix
    have last := congrArg List.getLast? eq
    rw [List.getLast?_append_of_ne_nil _ ne] at last
    rw [← last]
    exact List.getLast?_append_of_ne_nil _ (List.cons_ne_nil _ _)
  simp only [IgnoreRule.pattern, slash, stars, decide_false, Bool.or_self, Bool.false_eq_true,
    if_false, ends]

omit ne quiet in
theorem ofChars?_folders (openClasses : Bool) (body : List Char) :
    Glob.ofChars? openClasses ("**/".toList ++ body) =
      parts? openClasses (body.length + 2) { parts := [.foldersFirst], before := some '/' }
        body :=
  rfl

theorem ofLine?_quiet (foldersOnly : Bool) :
    IgnoreRule.ofLine? false ('!' :: (body ++ if foldersOnly then ['/'] else [])) =
      (parts? false (body.length + 2) { parts := [.foldersFirst], before := some '/' } body).map
        fun glob => { keeps := true, foldersOnly, glob } := by
  rw [← ofChars?_folders, ← pattern_quiet ne quiet]
  obtain ⟨first, rest, rfl⟩ := List.exists_cons_of_ne_nil ne
  have begins : first ≠ '/' := (isQuiet_iff.mp (quiet first List.mem_cons_self)).2.1
  have ends := List.getLast?_eq_some_getLast ne
  obtain ⟨visible, slash, -, backslash⟩ := isQuiet_iff.mp (quiet _ (List.getLast_mem ne))
  generalize (first :: rest).getLast ne = last at ends visible slash backslash
  unfold IgnoreRule.ofLine?
  rw [if_neg (by simp)]
  cases foldersOnly with
  | true =>
    have cut : (first :: (rest ++ ['/'])).dropLast = first :: rest :=
      @List.dropLast_concat _ (first :: rest) '/'
    have after : (first :: (rest ++ ['/'])).getLast? = some '/' :=
      @List.getLast?_concat _ (first :: rest) '/'
    rw [@trimLine_eq_self _ '/' (by simpa using after) (by decide)]
    simp [begins, after, cut, ends, backslash]
  | false =>
    rw [@trimLine_eq_self _ last (by simpa using ends) visible]
    simp [begins, ends, slash]

end Quiet

theorem ofLine?_name {name : List Char} (ne : name ≠ []) (quiet : ∀ c ∈ name, isQuiet c = true)
    (plain : ∀ c ∈ name, isPlain c = true) :
    IgnoreRule.ofLine? false ('!' :: (name ++ ['/'])) = some {
      keeps := true
      foldersOnly := true
      glob := .foldersFirst :: (name.flatMap String.utf8EncodeChar).map .byte } := by
  have read := ofLine?_quiet ne quiet true
  rw [parts?_plain plain rfl (Nat.le_add_right _ _)] at read
  exact read

end Reading

section Nesting

/-- A name inside groups. -/
def nestedText : Nat → List Char
  | 0 => ['a']
  | n + 1 => '\x7b' :: (nestedText n ++ ['\x7d'])

def nestedPart : Nat → GlobPart
  | 0 => .byte 97
  | n + 1 => .either [[nestedPart n]]

theorem length_nestedText (n : Nat) : (nestedText n).length = 2 * n + 1 := by
  induction n with
  | zero => rfl
  | succ n ih =>
    rw [nestedText, List.length_cons, List.length_append, ih, List.length_singleton]
    omega

theorem isQuiet_nestedText (n : Nat) : ∀ c ∈ nestedText n, isQuiet c = true := by
  induction n with
  | zero => exact List.forall_mem_singleton.mpr (by decide)
  | succ n ih =>
    rw [nestedText, List.forall_mem_cons, List.forall_mem_append, List.forall_mem_singleton]
    exact ⟨by decide, ih, by decide⟩

theorem isBlank_nestedPart (n : Nat) : isBlank [nestedPart n] = false := by
  cases n <;> rfl

theorem parts?_nested (openClasses : Bool) (n fuel : Nat) (s : State) (rest : List Char) :
    ∃ before, parts? openClasses (2 * n + 1 + fuel) s (nestedText n ++ rest) =
      parts? openClasses fuel { s with parts := nestedPart n :: s.parts, before } rest := by
  induction n generalizing fuel s rest with
  | zero =>
    have code : bytesOf 'a' = [97] := by decide +kernel
    refine ⟨some 'a', ?_⟩
    rw [Nat.mul_zero, Nat.zero_add, Nat.add_comm 1, nestedText, List.singleton_append,
      parts?_cons_plain (by decide)]
    simp [State.pushChar, State.after, nestedPart, code]
  | succ n ih =>
    obtain ⟨before, inside⟩ := ih (fuel + 1) (s.openGroup.after '\x7b') ('\x7d' :: rest)
    have opened : parts? openClasses (2 * (n + 1) + 1 + fuel) s (nestedText (n + 1) ++ rest) =
        parts? openClasses (2 * n + 1 + (fuel + 1)) (s.openGroup.after '\x7b')
          (nestedText n ++ '\x7d' :: rest) := by
      rw [show 2 * (n + 1) + 1 + fuel = 2 * n + 1 + (fuel + 1) + 1 by omega, nestedText,
        List.cons_append, List.append_assoc, List.singleton_append]
      rfl
    refine ⟨some '\x7d', (opened.trans inside).trans ?_⟩
    simp [parts?, State.close, State.openGroup, State.after, nestedPart, isBlank_nestedPart]

theorem depthOfPart_nested (n : Nat) : Glob.depthOfPart (nestedPart n) = n := by
  induction n with
  | zero => rw [nestedPart, Glob.depthOfPart]
  | succ n ih =>
    have one : Glob.pieces (nestedPart n) = 1 := by cases n <;> rfl
    simp [nestedPart, Glob.depthOfPart, Glob.depthOfBranches, Glob.depthOfParts, sumOf, one, ih,
      Nat.add_comm]

/-- A pattern that is nested too deep is read, but it cannot be run. -/
theorem ofLine?_nested {n : Nat} (deep : Glob.maxDepth ≤ n) :
    ∃ r, IgnoreRule.ofLine? false ('!' :: nestedText n) = some r ∧ r.glob.isRunnable = false := by
  have ne : nestedText n ≠ [] := by cases n <;> exact List.cons_ne_nil _ _
  have read := ofLine?_quiet ne (isQuiet_nestedText n) false
  obtain ⟨before, parts⟩ :=
    parts?_nested false n 2 { parts := [.foldersFirst], before := some '/' } []
  rw [List.append_nil] at parts
  rw [length_nestedText, parts] at read
  refine ⟨_, (congrArg _ (by simp)).trans read, ?_⟩
  have tooDeep : ¬Glob.depthOfParts [.foldersFirst, nestedPart n] < Glob.maxDepth := by
    simp only [Glob.depthOfParts, depthOfPart_nested]
    omega
  simp [Glob.isRunnable, tooDeep]

end Nesting

/-- The rule that leaves out folders with a name. -/
def IgnoreRule.folder (name : String) : IgnoreRule where
  keeps := true
  foldersOnly := true
  glob := .foldersFirst :: (Text.bytes name).map .byte

theorem isRunnable_folder (name : String) : (IgnoreRule.folder name).glob.isRunnable = true := by
  have ordered (bs : List UInt8) : Glob.areOrdered (bs.map .byte) = true := by
    induction bs with
    | nil => rfl
    | cons b bs ih => simp [Glob.areOrdered, Glob.isOrdered, ih]
  have flat (bs : List UInt8) : Glob.depthOfParts (bs.map .byte) = 0 := by
    induction bs with
    | nil => rfl
    | cons b bs ih => simp [Glob.depthOfParts, Glob.depthOfPart, ih]
  simp [IgnoreRule.folder, Glob.isRunnable, Glob.areOrdered, Glob.isOrdered, Glob.depthOfParts,
    Glob.depthOfPart, Glob.maxDepth, ordered, flat]

theorem applies_folder (path : List String) (name : String) :
    IgnoreRule.applies (pathBytes (path ++ [name])) true (.folder name) = true := by
  simp [IgnoreRule.applies, IgnoreRule.folder, Glob.matchesPath_name]

theorem verdict_ne_unknown {rules : List IgnoreRule} {r : IgnoreRule} {path : List UInt8}
    {isFolder : Bool} (mem : r ∈ rules) (h : r.applies path isFolder = true) :
    IgnoreRule.verdict rules path isFolder ≠ .unknown := by
  have found : (rules.reverse.find? (IgnoreRule.applies path isFolder)).isSome :=
    List.find?_isSome.mpr ⟨r, List.mem_reverse.mpr mem, h⟩
  obtain ⟨first, eq⟩ := Option.isSome_iff_exists.mp found
  rw [IgnoreRule.verdict, eq]
  dsimp only
  split <;> decide

end CodeSurvey.Loading
