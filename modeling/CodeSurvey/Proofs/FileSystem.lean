import CodeSurvey.Loading.FileSystem
import CodeSurvey.Proofs.Components
import Mathlib.Data.List.Basic
import Mathlib.Data.List.Nodup

namespace CodeSurvey.Loading.FileNode

/-- What holds in any file system: the names in a folder differ, and each is one step down. -/
inductive Proper : FileNode → Prop where
  | file (content : ByteArray) : Proper (file content)
  | unreadable (size : Nat) : Proper (unreadable size)
  | link (target : String) : Proper (link target)
  | folder {entries : List (String × FileNode)} (distinct : (entries.map (·.1)).Nodup)
    (names : ∀ e ∈ entries, Paths.IsName e.1) (within : ∀ e ∈ entries, Proper e.2) :
    Proper (folder entries)

/-- Whether a node is a file, be it readable or not. -/
def isRegular : FileNode → Bool
  | file _ | unreadable _ => true
  | folder _ | link _ => false

variable {root node child : FileNode} {name : String} {place : List String}
  {entries : List (String × FileNode)}

theorem isFolder_eq_false (h : node.isRegular = true) : node.isFolder = false := by
  cases node <;> first | rfl | cases h

theorem exists_entries_of_child? (h : node.child? name = some child) :
    ∃ entries, node = .folder entries ∧ (name, child) ∈ entries := by
  cases node with
  | folder entries =>
    obtain ⟨e, found, rfl⟩ := Option.map_eq_some_iff.mp h
    have same : e.1 = name := by simpa using List.find?_some found
    exact ⟨entries, rfl, same ▸ List.mem_of_find?_eq_some found⟩
  | file | unreadable | link => cases h

theorem Proper.child? (h : node.Proper) (found : node.child? name = some child) : child.Proper := by
  obtain ⟨entries, rfl, mem⟩ := exists_entries_of_child? found
  cases h with
  | folder _ _ within => exact within _ mem

theorem Proper.single (h : (FileNode.folder entries).Proper) {e : String × FileNode} (mem : e ∈ entries) :
    (FileNode.folder [e]).Proper := by
  cases h with
  | folder _ names within =>
    exact .folder (List.nodup_singleton _) (by simpa using names e mem) (by simpa using within e mem)

theorem descend?_append (root : FileNode) (first second : List String) :
    root.descend? (first ++ second) = (root.descend? first).bind (·.descend? second) := by
  induction first generalizing root with
  | nil => rfl
  | cons step first ih =>
    rw [List.cons_append, descend?, descend?]
    split
    next child _ => exact ih child
    next => rfl

theorem descend?_concat (root : FileNode) (place : List String) (step : String) :
    root.descend? (place ++ [step]) = (root.descend? place).bind (·.child? step) := by
  rw [descend?_append]
  refine congrArg _ (funext fun node => ?_)
  rw [descend?]
  split
  next child h => rw [h, descend?]
  next h => exact h.symm

/-- What goes over from each node to its children holds of all below. -/
theorem descend?_induction {holds : FileNode → Prop}
    (goesOver : ∀ {node child name}, holds node → node.child? name = some child → holds child)
    (h : holds root) (found : root.descend? place = some node) : holds node := by
  induction place generalizing root with
  | nil => exact Option.some.inj found ▸ h
  | cons step place ih =>
    rw [descend?] at found
    split at found
    next child hc => exact ih (goesOver h hc) found
    next => cases found

theorem Proper.descend? (h : root.Proper) (found : root.descend? place = some node) :
    node.Proper :=
  descend?_induction Proper.child? h found

theorem mem_putEntry {e : String × FileNode} (mem : e ∈ putEntry name node entries) :
    e = (name, node) ∨ e ∈ entries := by
  induction entries with
  | nil => exact .inl (List.mem_singleton.mp mem)
  | cons first rest ih =>
    rw [putEntry] at mem
    split at mem
    next same =>
      rcases List.mem_cons.mp mem with eq | mem
      · exact .inl (eq.trans (by rw [same]))
      · exact .inr (List.mem_cons_of_mem _ mem)
    next =>
      rcases List.mem_cons.mp mem with rfl | mem
      · exact .inr List.mem_cons_self
      · exact (ih mem).imp_right (List.mem_cons_of_mem _)

theorem putEntry_distinct (distinct : (entries.map (·.1)).Nodup) :
    ((putEntry name node entries).map (·.1)).Nodup := by
  induction entries with
  | nil => exact List.nodup_singleton name
  | cons first rest ih =>
    obtain ⟨new, distinct⟩ := List.nodup_cons.mp distinct
    rw [putEntry]
    split
    next => exact List.nodup_cons.mpr ⟨new, distinct⟩
    next other =>
      refine List.nodup_cons.mpr ⟨fun mem => ?_, ih distinct⟩
      obtain ⟨e, he, same⟩ := List.mem_map.mp mem
      rcases mem_putEntry he with rfl | he
      · exact other same.symm
      · exact new (same ▸ List.mem_map_of_mem he)

theorem Proper.put (h : root.Proper) (hn : node.Proper)
    (names : ∀ step ∈ place, Paths.IsName step) : (FileNode.put node place root).Proper := by
  induction place generalizing root with
  | nil => exact hn
  | cons step place ih =>
    obtain ⟨first, names⟩ := List.forall_mem_cons.mp names
    have inner : (FileNode.put node place ((root.child? step).getD (.folder []))).Proper := by
      cases hc : root.child? step with
      | some child => exact ih (h.child? hc) names
      | none => exact ih (.folder List.nodup_nil nofun nofun) names
    have grown {entries : List (String × FileNode)} (proper : (FileNode.folder entries).Proper) :
        (FileNode.folder (putEntry step
          (FileNode.put node place ((root.child? step).getD (.folder []))) entries)).Proper := by
      cases proper with
      | folder distinct all within =>
        refine .folder (putEntry_distinct distinct) (fun e he => ?_) fun e he => ?_
        · rcases mem_putEntry he with rfl | he
          · exact first
          · exact all e he
        · rcases mem_putEntry he with rfl | he
          · exact inner
          · exact within e he
    cases root with
    | folder entries => exact grown h
    | file | unreadable | link => exact grown (.folder List.nodup_nil nofun nofun)

theorem descend?_tail (here : root.descend? place.reverse = some (.folder entries)) :
    ∃ entries, root.descend? place.tail.reverse = some (.folder entries) := by
  cases place with
  | nil => exact ⟨entries, here⟩
  | cons last above =>
    rw [List.reverse_cons, descend?_concat] at here
    obtain ⟨node, up, found⟩ := Option.bind_eq_some_iff.mp here
    obtain ⟨inner, rfl, -⟩ := exists_entries_of_child? found
    exact ⟨inner, up⟩

theorem lookUp_not_link {fuel links : Nat} {place found : List String} {steps : List String}
    (h : root.lookUp fuel links place steps = some found)
    (start : steps = [] → ∀ target, root.descend? place.reverse ≠ some (.link target))
    (target : String) : root.descend? found.reverse ≠ some (.link target) := by
  have folder {place : List String} {entries : List (String × FileNode)}
      (here : root.descend? place = some (.folder entries)) (target : String) :
      root.descend? place ≠ some (.link target) := by
    simp [here]
  fun_induction lookUp root fuel links place steps with
  | case1 | case5 | case8 | case9 => cases h
  | case2 fuel links place => exact Option.some.inj h ▸ start rfl target
  | case3 fuel links place step rest entries here _ ih => exact ih h fun _ => folder here
  | case4 fuel links place rest entries here _ ih =>
    obtain ⟨above, up⟩ := descend?_tail here
    exact ih h fun _ => folder up
  | case6 fuel links place step rest entries here _ _ target' _ _ ih =>
    refine ih h fun none => absurd (List.append_eq_nil_iff.mp none).1 (Paths.segments_ne_nil target')
  | case7 fuel links place step rest entries here _ _ child notLink found ih =>
    refine ih h fun _ target down => ?_
    rw [List.reverse_cons, descend?_concat, here, Option.bind_some, found] at down
    exact notLink target (Option.some.inj down)

theorem resolveFrom?_not_link {start : List String} {path : String}
    (h : root.resolveFrom? start path = some place) (target : String) :
    root.descend? place ≠ some (.link target) := by
  unfold resolveFrom? at h
  split at h
  next => cases h
  next =>
    obtain ⟨found, looked, rfl⟩ := Option.map_eq_some_iff.mp h
    exact lookUp_not_link looked (fun none => absurd none (Paths.segments_ne_nil path)) target

end CodeSurvey.Loading.FileNode

namespace CodeSurvey.Loading.Disk

theorem resolve?_not_link {disk : Disk} {path : String} {place : List String}
    (h : disk.resolve? path = some place) (target : String) :
    disk.top.descend? place ≠ some (.link target) :=
  FileNode.resolveFrom?_not_link h target

end CodeSurvey.Loading.Disk
