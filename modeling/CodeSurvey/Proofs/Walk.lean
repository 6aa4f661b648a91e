import CodeSurvey.Loading.Walk
import CodeSurvey.Proofs.FileSystem

namespace CodeSurvey.Loading.WalkOptions

variable {o : WalkOptions} {fuel nodes : Nat} {levels : List Level} {above : List (List String)}
  {place target path : List String} {name : String} {node found : FileNode}
  {entries : List (String × FileNode)} {file : List String × FileNode}

theorem target?_cases (h : o.target? above place name node = some (target, found)) :
    found = node ∨ o.root.descend? target = some found := by
  unfold target? at h
  split at h
  next link =>
    split at h
    next =>
      split at h
      next =>
        split at h
        next there =>
          split at h
          next => cases h
          next =>
            obtain ⟨rfl, rfl⟩ := Prod.mk.inj (Option.some.inj h)
            exact .inr there
        next => cases h
      next => cases h
    next => exact .inl (Prod.mk.inj (Option.some.inj h)).2.symm
  next => exact .inl (Prod.mk.inj (Option.some.inj h)).2.symm

theorem proper_of_target? (root : o.root.Proper) (proper : node.Proper)
    (h : o.target? above place name node = some (target, found)) : found.Proper := by
  rcases target?_cases h with rfl | there
  · exact proper
  · exact root.descend? there

theorem files_entry (e : String × FileNode) :
    o.files (fuel + 1) levels above path [e] = [] ∨
      ∃ target found, o.target? above (above.headD []) e.1 e.2 = some (target, found) ∧
        o.leavesOut levels (path ++ [e.1]) found.isFolder = false ∧
        ((found.isRegular = true ∧
            o.files (fuel + 1) levels above path [e] = [(path ++ [e.1], found)]) ∨
          ∃ inner levels', found = .folder inner ∧
            o.files (fuel + 1) levels above path [e] =
              o.files fuel levels' (target :: above) (path ++ [e.1]) inner) := by
  obtain ⟨name, node⟩ := e
  rw [files, List.flatMap_singleton]
  dsimp only
  split
  next => exact .inl rfl
  next target found at_target =>
    by_cases out : o.leavesOut levels (path ++ [name]) found.isFolder = true
    · exact .inl (if_pos out)
    rw [if_neg out]
    cases found with
    | link target => exact .inl rfl
    | folder inner =>
      exact .inr ⟨_, _, at_target, Bool.eq_false_iff.mpr out, .inr ⟨inner, _, rfl, rfl⟩⟩
    | file | unreadable =>
      exact .inr ⟨_, _, at_target, Bool.eq_false_iff.mpr out, .inl ⟨rfl, rfl⟩⟩

theorem files_cons (e : String × FileNode) (entries : List (String × FileNode)) :
    o.files (fuel + 1) levels above path (e :: entries) =
      o.files (fuel + 1) levels above path [e] ++ o.files (fuel + 1) levels above path entries := by
  simp only [files, List.flatMap_cons, List.flatMap_nil, List.append_nil]

theorem mem_files_entry (h : file ∈ o.files fuel levels above path entries) :
    ∃ e ∈ entries, file ∈ o.files fuel levels above path [e] := by
  cases fuel with
  | zero => cases h
  | succ fuel =>
    induction entries with
    | nil => cases h
    | cons first rest ih =>
      rw [files_cons] at h
      rcases List.mem_append.mp h with h | h
      · exact ⟨first, List.mem_cons_self, h⟩
      · obtain ⟨e, mem, h⟩ := ih h
        exact ⟨e, List.mem_cons_of_mem _ mem, h⟩

/-- A way down from a folder, no step of which was left out. All steps but the last lead to
folders. -/
inductive Kept (o : WalkOptions) : (path way : List String) → Prop where
  | file {levels : List Level} {path : List String} {name : String}
    (kept : o.leavesOut levels (path ++ [name]) false = false) : Kept o path [name]
  | folder {levels : List Level} {path way : List String} {name : String}
    (kept : o.leavesOut levels (path ++ [name]) true = false) (below : Kept o (path ++ [name]) way) :
    Kept o path (name :: way)

/-- What a walk finds below a folder is a regular file, at the end of a way that was kept. -/
theorem exists_way (root : o.root.Proper) (proper : (FileNode.folder entries).Proper)
    (h : file ∈ o.files fuel levels above path entries) :
    file.2.isRegular = true ∧ ∃ e ∈ entries, ∃ rest, file.1 = path ++ e.1 :: rest ∧
      (∀ step ∈ e.1 :: rest, Paths.IsName step) ∧ o.Kept path (e.1 :: rest) := by
  induction fuel generalizing levels above path entries with
  | zero => cases h
  | succ fuel ih =>
    obtain ⟨e, mem, h⟩ := mem_files_entry h
    cases proper with
    | folder distinct names within =>
      rcases files_entry (o := o) e with none | ⟨target, found, at_target, kept, here | below⟩
      · rw [none] at h
        cases h
      · obtain ⟨regular, eq⟩ := here
        rw [eq] at h
        obtain rfl := List.mem_singleton.mp h
        rw [FileNode.isFolder_eq_false regular] at kept
        exact ⟨regular, e, mem, [], rfl, by simpa using names e mem, .file kept⟩
      · obtain ⟨inner, levels', rfl, eq⟩ := below
        rw [eq] at h
        obtain ⟨regular, e', -, rest, way, names', kept'⟩ :=
          ih (proper_of_target? root (within e mem) at_target) h
        refine ⟨regular, e, mem, e'.1 :: rest, by simp [way], ?_, .folder kept kept'⟩
        exact List.forall_mem_cons.mpr ⟨names e mem, names'⟩

theorem nodup_files (root : o.root.Proper) (proper : (FileNode.folder entries).Proper) :
    ((o.files fuel levels above path entries).map (·.1)).Nodup := by
  induction fuel generalizing levels above path entries with
  | zero => exact List.nodup_nil
  | succ fuel ih =>
    induction entries with
    | nil => exact List.nodup_nil
    | cons e rest ihEntries =>
      have properFirst := proper.single List.mem_cons_self
      cases proper with
      | folder distinct names within =>
        obtain ⟨new, distinct⟩ := List.nodup_cons.mp distinct
        have properRest : (FileNode.folder rest).Proper :=
          .folder distinct (fun e he => names e (List.mem_cons_of_mem _ he))
            fun e he => within e (List.mem_cons_of_mem _ he)
        rw [files_cons, List.map_append, List.nodup_append]
        refine ⟨?_, ihEntries properRest, ?_⟩
        · rcases files_entry (o := o) e with none | ⟨target, found, at_target, -, ⟨-, eq⟩ | below⟩
          · rw [none]
            exact List.nodup_nil
          · rw [eq]
            exact List.nodup_singleton _
          · obtain ⟨inner, levels', rfl, eq⟩ := below
            rw [eq]
            exact ih (proper_of_target? root (within e List.mem_cons_self) at_target)
        · -- paths of different entries go on with different names
          intro p hp q hq
          obtain ⟨file, hfile, rfl⟩ := List.mem_map.mp hp
          obtain ⟨other, hother, rfl⟩ := List.mem_map.mp hq
          obtain ⟨-, e₁, mem₁, rest₁, way₁, -⟩ := exists_way root properFirst hfile
          obtain ⟨-, e₂, mem₂, rest₂, way₂, -⟩ := exists_way root properRest hother
          obtain rfl := List.mem_singleton.mp mem₁
          rw [way₁, way₂]
          intro same
          have name := (List.cons.inj (List.append_cancel_left same)).1
          exact new (List.mem_map.mpr ⟨e₂, mem₂, name.symm⟩)

theorem walk_cases (root : o.root.Proper)
    (noLink : ∀ target, o.root.descend? o.start ≠ some (.link target)) (nodes : Nat) :
    (∃ node, node.isRegular = true ∧ o.walk nodes = [([], node)]) ∨ o.walk nodes = [] ∨
      ∃ entries levels, (FileNode.folder entries).Proper ∧
        o.walk nodes = o.files (maxNesting nodes) levels [o.start] [] entries := by
  unfold walk
  split
  next entries here => exact .inr (.inr ⟨entries, _, root.descend? here, rfl⟩)
  next node notFolder here =>
    refine .inl ⟨node, ?_, rfl⟩
    cases node with
    | file | unreadable => rfl
    | folder entries => exact absurd rfl (notFolder entries)
    | link target => exact absurd here (noLink target)
  next => exact .inr (.inl rfl)

/-- What holds of the files that a walk finds: each is a regular file, with a path of its own as a
text. -/
structure Finds (found : List (List String × FileNode)) : Prop where
  regular : ∀ file ∈ found, file.2.isRegular = true
  names : ∀ file ∈ found, ∀ name ∈ file.1, Paths.IsName name
  distinct : (found.map fun file => Paths.joined file.1).Nodup

theorem finds_walk (root : o.root.Proper)
    (noLink : ∀ target, o.root.descend? o.start ≠ some (.link target)) (nodes : Nat) :
    Finds (o.walk nodes) := by
  rcases walk_cases root noLink nodes with ⟨node, regular, eq⟩ | eq | ⟨entries, levels, proper, eq⟩
  · rw [eq]
    exact ⟨by simpa using regular, by simp, List.nodup_singleton _⟩
  · rw [eq]
    exact ⟨nofun, nofun, List.nodup_nil⟩
  · rw [eq]
    have way (file : List String × FileNode)
        (h : file ∈ o.files (maxNesting nodes) levels [o.start] [] entries) :
        file.1 ≠ [] ∧ ∀ name ∈ file.1, Paths.IsName name := by
      obtain ⟨-, e, -, rest, way, names, -⟩ := exists_way root proper h
      rw [way, List.nil_append]
      exact ⟨List.cons_ne_nil _ _, names⟩
    refine ⟨fun file h => (exists_way root proper h).1, fun file h => (way file h).2, ?_⟩
    have below : ∀ p ∈ (o.files (maxNesting nodes) levels [o.start] [] entries).map (·.1),
        Paths.segments (Paths.joined p) = p := by
      intro p hp
      obtain ⟨file, h, rfl⟩ := List.mem_map.mp hp
      exact Paths.segments_joined (way file h).1 fun name mem => ((way file h).2 name mem).plain
    have names := (nodup_files root proper).map_on fun p hp q hq same =>
      (below p hp).symm.trans ((congrArg Paths.segments same).trans (below q hq))
    rwa [List.map_map] at names

end CodeSurvey.Loading.WalkOptions
