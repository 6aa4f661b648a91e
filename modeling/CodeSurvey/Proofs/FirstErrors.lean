import CodeSurvey.Proofs.Nodes
import CodeSurvey.Script.Reading
import Mathlib.Data.List.Lex

namespace CodeSurvey

namespace Node

/-- The node that a way leads down to: at each step, the place of a child among the others. -/
def at? : Node → List Nat → Option Node
  | n, [] => some n
  | n, i :: way => n.children[i]?.bind fun child => child.at? way

/-- Whether no node of a tree is an error. -/
def Clean (root : Node) : Prop := ∀ n ∈ root.preorder, n.isError = false

/-- Whether the nodes of a tree are flawed just where there is an error in them. -/
def Flagged (root : Node) : Prop :=
  ∀ n ∈ root.preorder, n.mark.flawed = true ↔ ∃ e ∈ n.preorder, e.isError = true

/-- Whether all that a search leaves out is clean. An error itself need not be flawed, as unreadable
text within another error is not, and what is flawed may be clean. -/
def Guarded (root : Node) : Prop :=
  ∀ n ∈ root.preorder, n.isError = false → n.mark.flawed = false → n.Clean

/-- Whether a way leads to the first error of a tree. Ways are in the order of the text: what is
above comes before what is below, and what is below a child before what is below a later one. -/
structure IsFirstError (root : Node) (way : List Nat) (n : Node) : Prop where
  leads : root.at? way = some n
  error : n.isError = true
  clean : ∀ earlier < way, ∀ e, root.at? earlier = some e → e.isError = false

variable {n e root : Node} {way : List Nat} {i : Nat}

theorem at?_cons : n.at? (i :: way) = some e ↔
    ∃ child, n.children[i]? = some child ∧ child.at? way = some e :=
  Option.bind_eq_some_iff

theorem mem_preorder_of_at? (leads : root.at? way = some e) : e ∈ root.preorder := by
  induction way generalizing root with
  | nil => exact Option.some.inj leads ▸ self_mem_preorder root
  | cons i way ih =>
    obtain ⟨child, here, leads⟩ := at?_cons.mp leads
    have inside := child_mem_preorder (List.mem_of_getElem? here) root (self_mem_preorder root)
    exact (preorder_sublist root inside).subset (ih leads)

theorem find?_isError_eq_none_iff : root.preorder.find? (·.isError) = none ↔ root.Clean := by
  simp [Clean]

theorem Flagged.guarded (flagged : root.Flagged) : root.Guarded := by
  intro n mem _ unflawed e below
  by_contra error
  have flawed : n.mark.flawed = true := (flagged n mem).mpr ⟨e, below, Bool.not_eq_false _ ▸ error⟩
  rw [unflawed] at flawed
  cases flawed

theorem Guarded.of_mem (guarded : root.Guarded) (mem : n ∈ root.preorder) : n.Guarded :=
  fun x below => guarded x ((preorder_sublist root mem).subset below)

mutual

/-- What is left out makes no difference where it is clean. -/
theorem firstError?_eq_find? : ∀ n : Node, n.Guarded →
    n.firstError? = n.preorder.find? (·.isError)
  | mk m children, guarded => by
    rw [firstError?, preorder]
    cases error : (mk m children).isError with
    | true => rw [if_pos rfl, List.find?_cons_of_pos error]
    | false =>
      rw [if_neg Bool.false_ne_true, List.find?_cons_of_neg (by simpa using error)]
      cases flawed : m.flawed with
      | true =>
        rw [if_pos rfl]
        exact firstErrorIn?_eq_find? children fun n mem =>
          guarded.of_mem (List.mem_cons_of_mem _ (mem_preorderAll mem))
      | false =>
        have clean : (mk m children).Clean := guarded _ (self_mem_preorder _) error flawed
        rw [if_neg Bool.false_ne_true, eq_comm, List.find?_eq_none]
        exact fun e mem => Bool.not_eq_true _ ▸ clean e (List.mem_cons_of_mem _ mem)

@[inherit_doc firstError?_eq_find?]
theorem firstErrorIn?_eq_find? : ∀ nodes : List Node, (∀ n ∈ nodes, n.Guarded) →
    firstErrorIn? nodes = (preorderAll nodes).find? (·.isError)
  | [], _ => rfl
  | n :: rest, guarded => by
    obtain ⟨here, others⟩ := List.forall_mem_cons.mp guarded
    rw [firstErrorIn?, preorderAll, List.find?_append, firstError?_eq_find? n here,
      firstErrorIn?_eq_find? rest others, Option.orElse_eq_orElse, Option.orElse_eq_or]

end

theorem guarded_iff :
    root.Guarded ↔ ∀ n ∈ root.preorder, n.firstError? = n.preorder.find? (·.isError) := by
  constructor
  · exact fun guarded n mem => firstError?_eq_find? n (guarded.of_mem mem)
  · intro agree n mem sound unflawed
    have passed : n.firstError? = none := by
      obtain ⟨m, children⟩ := n
      rw [firstError?, sound, if_neg Bool.false_ne_true, if_neg]
      exact ne_true_of_eq_false unflawed
    exact find?_isError_eq_none_iff.mp ((agree n mem).symm.trans passed)

mutual

/-- The first error in the order of the text is at the end of the first way to any. -/
theorem exists_isFirstError : ∀ root : Node, root.preorder.find? (·.isError) = some n →
    ∃ way, IsFirstError root way n
  | mk m children, found => by
    rw [preorder, List.find?_cons] at found
    split at found
    next error =>
      exact ⟨[], congrArg some (Option.some.inj found), Option.some.inj found ▸ error, by simp⟩
    next sound =>
      obtain ⟨i, child, way, here, first, before⟩ := exists_isFirstErrorIn children found
      refine ⟨i :: way, at?_cons.mpr ⟨child, here, first.leads⟩, first.error, ?_⟩
      rintro (_ | ⟨j, earlier⟩) less e leads
      · exact Option.some.inj leads ▸ sound
      obtain ⟨other, there, leads⟩ := at?_cons.mp leads
      rcases List.cons_lt_cons_iff.mp less with aside | ⟨rfl, below⟩
      · exact before j aside other there e (mem_preorder_of_at? leads)
      · obtain rfl : other = child := Option.some.inj (there.symm.trans here)
        exact first.clean earlier below e leads

@[inherit_doc exists_isFirstError]
theorem exists_isFirstErrorIn : ∀ nodes : List Node,
    (preorderAll nodes).find? (·.isError) = some n →
    ∃ (i : Nat) (child : Node) (way : List Nat), nodes[i]? = some child ∧
      IsFirstError child way n ∧ ∀ j < i, ∀ other, nodes[j]? = some other → other.Clean
  | first :: rest, found => by
    rw [preorderAll, List.find?_append] at found
    cases here : first.preorder.find? (·.isError) with
    | some e =>
      rw [here, Option.some_or] at found
      obtain ⟨way, isFirst⟩ := exists_isFirstError first (here.trans found)
      exact ⟨0, first, way, rfl, isFirst, by simp⟩
    | none =>
      rw [here, Option.none_or] at found
      obtain ⟨i, child, way, there, isFirst, before⟩ := exists_isFirstErrorIn rest found
      refine ⟨i + 1, child, way, there, isFirst, ?_⟩
      rintro (_ | j) less other known
      · exact Option.some.inj known ▸ find?_isError_eq_none_iff.mp here
      · exact before j (Nat.lt_of_succ_lt_succ less) other known

end

theorem IsFirstError.unique {way' : List Nat} {n' : Node} (first : IsFirstError root way n)
    (first' : IsFirstError root way' n') : n = n' := by
  rcases lt_trichotomy way way' with less | rfl | less
  · exact absurd first.error (Bool.not_eq_true _ ▸ first'.clean way less n first.leads)
  · exact Option.some.inj (first.leads.symm.trans first'.leads)
  · exact absurd first'.error (Bool.not_eq_true _ ▸ first.clean way' less n' first'.leads)

theorem IsFirstError.not_clean (first : IsFirstError root way n) : ¬root.Clean := by
  intro clean
  have sound := clean n (mem_preorder_of_at? first.leads)
  rw [first.error] at sound
  cases sound

theorem find?_isError_eq_some_iff :
    root.preorder.find? (·.isError) = some n ↔ ∃ way, IsFirstError root way n := by
  refine ⟨exists_isFirstError root, fun ⟨way, first⟩ => ?_⟩
  cases found : root.preorder.find? (·.isError) with
  | none => exact absurd (find?_isError_eq_none_iff.mp found) first.not_clean
  | some e =>
    obtain ⟨way', first'⟩ := exists_isFirstError root found
    rw [first'.unique first]

end Node

namespace Script

open Node

variable {n root : Node} {parser : Parser} {path : String} {dialect : Dialect} {source : Source}
  {way : List Nat}

/-- What reading a script comes to by its syntax tree. -/
structure Judges (path : String) (root : Node) (result : Except Failure Node) : Prop where
  accepted : ∀ tree, result = .ok tree ↔ tree = root ∧ root.Clean
  refused : ∀ failure, result = .error failure ↔
    ∃ way n, IsFirstError root way n ∧ failure = .unparsed path (describeError n)

theorem judges_of_clean (clean : root.Clean) : Judges path root (.ok root) where
  accepted tree := by simp [clean, eq_comm]
  refused failure := by
    refine iff_of_false nofun ?_
    rintro ⟨way, n, first, -⟩
    exact first.not_clean clean

theorem judges_of_isFirstError (first : IsFirstError root way n) :
    Judges path root (.error (.unparsed path (describeError n))) where
  accepted tree := iff_of_false nofun fun ⟨_, clean⟩ => first.not_clean clean
  refused failure := by
    constructor
    · intro eq
      exact ⟨way, n, first, (Except.error.inj eq).symm⟩
    · rintro ⟨way', n', first', rfl⟩
      rw [first.unique first']

theorem check_eq_ok_iff {tree : Option Node} :
    check path tree = .ok root ↔ tree = some root ∧ root.firstError? = none := by
  cases tree with
  | none => simp [check]
  | some tree =>
    rw [check, Option.some.injEq]
    cases found : tree.firstError? with
    | none =>
      rw [Except.ok.injEq]
      exact ⟨fun eq => ⟨eq, eq ▸ found⟩, And.left⟩
    | some n =>
      refine iff_of_false nofun ?_
      rintro ⟨rfl, clean⟩
      cases found.symm.trans clean

theorem read_eq_ok_iff :
    read path source parser = .ok root ↔ ∃ dialect, Dialect.ofPath? path = some dialect ∧
      parser dialect source = some root ∧ root.firstError? = none := by
  rw [read]
  cases Dialect.ofPath? path with
  | none => simp
  | some dialect =>
    simp only [Option.some.injEq, exists_eq_left']
    exact check_eq_ok_iff

theorem read_of_parsed (known : Dialect.ofPath? path = some dialect)
    (parsed : parser dialect source = some root) :
    read path source parser = check path (some root) := by
  rw [read, known]
  exact congrArg (check path) parsed

theorem judges_check (guarded : root.Guarded) (path : String) :
    Judges path root (check path (some root)) := by
  have search := firstError?_eq_find? root guarded
  rw [check]
  cases found : root.firstError? with
  | none => exact judges_of_clean (find?_isError_eq_none_iff.mp (search.symm.trans found))
  | some n =>
    obtain ⟨way, first⟩ := find?_isError_eq_some_iff.mp (search.symm.trans found)
    exact judges_of_isFirstError first

theorem read_judges (flagged : root.Flagged) :
    (∀ n ∈ root.preorder, n.firstError? = n.preorder.find? (·.isError)) ∧
      (root.firstError? = none ↔ root.Clean) ∧
      (∀ n, root.firstError? = some n ↔ ∃ way, IsFirstError root way n) ∧
      ∀ {parser path dialect source}, Dialect.ofPath? path = some dialect →
        parser dialect source = some root → Judges path root (read path source parser) := by
  have search := guarded_iff.mp flagged.guarded
  have whole := search root (self_mem_preorder root)
  refine ⟨search, ?_, fun n => ?_, fun {parser path dialect source} known parsed => ?_⟩
  · rw [whole, find?_isError_eq_none_iff]
  · rw [whole, find?_isError_eq_some_iff]
  · rw [read_of_parsed known parsed]
    exact judges_check flagged.guarded path

def brokenText : String := "f(a;\nb ) c"

def brokenPart (kind : Kind) (start stop : Nat) (flawed : Bool) (children : List Node) : Node :=
  .mk {
    kind
    flawed
    start := (Source.ofString brokenText).positionAt start
    stop := (Source.ofString brokenText).positionAt stop } children

def unreadPart : Node :=
  brokenPart .error 2 4 true [
    brokenPart (.category .identifier) 2 3 false [],
    brokenPart (.text ";") 3 4 false []]

def brokenTree : Node :=
  brokenPart (.category .program) 0 10 true [
    brokenPart (.category .expressionStatement) 0 8 true [
      brokenPart (.category .callExpression) 0 8 true [
        brokenPart (.category .identifier) 0 1 false [],
        brokenPart (.category .arguments) 1 8 true [
          brokenPart (.text "(") 1 2 false [],
          unreadPart,
          brokenPart (.category .identifier) 5 6 false [],
          brokenPart (.text ")") 7 8 false []]],
      missing],
    brokenPart (.category .expressionStatement) 9 10 false [
      brokenPart (.category .identifier) 9 10 false []]]
where
  missing : Node :=
    let place := (Source.ofString brokenText).positionAt 8
    .mk { kind := .text ";", missing := true, flawed := true, start := place, stop := place } []

def brokenParser : Parser := fun _ source =>
  if source.chars = brokenText.toList then some brokenTree else none

theorem read_judges_broken :
    brokenTree.Flagged ∧ brokenTree.firstError? = some unreadPart ∧
      (∃ way, IsFirstError brokenTree way unreadPart) ∧
      Dialect.ofPath? "a.js" = some .javaScript ∧
      brokenParser .javaScript (.ofString brokenText) = some brokenTree ∧
      Judges "a.js" brokenTree (read "a.js" (.ofString brokenText) brokenParser) ∧
      read "a.js" (.ofString brokenText) brokenParser =
        .error (.unparsed "a.js" "syntax error at 1:3") := by
  have flagged : brokenTree.Flagged := by
    unfold Flagged
    decide +kernel
  obtain ⟨-, -, firsts, judged⟩ := read_judges flagged
  have found : brokenTree.firstError? = some unreadPart := by rfl
  have known : Dialect.ofPath? "a.js" = some .javaScript := by decide +kernel
  have parsed : brokenParser .javaScript (.ofString brokenText) = some brokenTree := by rfl
  exact ⟨flagged, found, (firsts unreadPart).mp found, known, parsed, judged known parsed, by rfl⟩

end Script

end CodeSurvey
