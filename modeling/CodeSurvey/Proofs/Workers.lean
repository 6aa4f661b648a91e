import CodeSurvey.Collection.Sum
import CodeSurvey.Loading.Workers
import Mathlib.Data.List.Basic
import Mathlib.Data.List.Nodup
import Mathlib.Data.List.Range

namespace CodeSurvey.Loading

namespace Stage

variable {α β : Type} (work : α → β)

/-- The result that an item has or will have. -/
def outcome : Stage α β → β
  | waiting item => work item
  | counted _ result | reported result => result

/-- The number of an item that was not reported yet. -/
def number? : Stage α β → Option Nat
  | counted n _ => some n
  | waiting _ | reported _ => none

/-- How many steps are left for an item. -/
def stepsLeft : Stage α β → Nat
  | waiting _ => 2
  | counted .. => 1
  | reported _ => 0

end Stage

namespace Workers

variable {α β : Type} {work : α → β} {w w' : Workers α β} {items : List α} {i : Nat}
  {schedule : List Nat}

/-- A step does an item and counts it, or reports the number of an item. -/
theorem step_cases (h : w.step work i = some w') :
    ∃ before after,
      (∃ item, w.stages = before ++ .waiting item :: after ∧
        w' = { stages := before ++ .counted (w.count + 1) (work item) :: after,
               count := w.count + 1, reports := w.reports }) ∨
      ∃ n result, w.stages = before ++ .counted n result :: after ∧
        w' = { stages := before ++ .reported result :: after, count := w.count,
               reports := w.reports ++ [(n, w.stages.length)] } := by
  have split {stage : Stage α β} (at_i : w.stages[i]? = some stage) (next : Stage α β) :
      w.stages = w.stages.take i ++ stage :: w.stages.drop (i + 1) ∧
        w.stages.set i next = w.stages.take i ++ next :: w.stages.drop (i + 1) := by
    obtain ⟨lt, rfl⟩ := List.getElem?_eq_some_iff.mp at_i
    exact ⟨by simp, List.set_eq_take_append_cons_drop.trans (if_pos lt)⟩
  refine ⟨w.stages.take i, w.stages.drop (i + 1), ?_⟩
  unfold step at h
  split at h
  next item at_i =>
    obtain ⟨eq, set⟩ := split at_i (.counted (w.count + 1) (work item))
    refine .inl ⟨item, eq, ?_⟩
    rw [← set]
    exact (Option.some.inj h).symm
  next n result at_i =>
    obtain ⟨eq, set⟩ := split at_i (.reported result)
    refine .inr ⟨n, result, eq, ?_⟩
    rw [← set]
    exact (Option.some.inj h).symm
  next => cases h
  next => cases h

/-- What holds at any time while items are worked on. -/
structure Consistent (work : α → β) (items : List α) (w : Workers α β) : Prop where
  outcomes : w.stages.map (·.outcome work) = items.map work
  numbers : (w.stages.filterMap (·.number?) ++ w.reports.map (·.1)).Perm (List.range' 1 w.count)
  count : w.count + w.stages.countP (·.isWaiting) = items.length
  totals : ∀ report ∈ w.reports, report.2 = items.length

theorem Consistent.start : Consistent work items (start items) where
  outcomes := by simp [Workers.start, Stage.outcome, Function.comp_def]
  numbers := by simp [Workers.start, Stage.number?, List.filterMap_map]
  count := by simp [Workers.start, Stage.isWaiting, List.countP_map, Function.comp_def]
  totals := by simp [Workers.start]

theorem Consistent.length_stages (h : Consistent work items w) : w.stages.length = items.length := by
  simpa using congrArg List.length h.outcomes

theorem Consistent.step (h : Consistent work items w) (next : w.step work i = some w') :
    Consistent work items w' := by
  have length := h.length_stages
  obtain ⟨outcomes, numbers, count, totals⟩ := h
  obtain ⟨before, after, ⟨item, eq, rfl⟩ | ⟨n, result, eq, rfl⟩⟩ := step_cases next
  · rw [eq] at outcomes numbers count
    refine ⟨by simpa [Stage.outcome] using outcomes, ?_, ?_, totals⟩
    · -- the number that is added is the one after the count
      have added := (numbers.cons (w.count + 1)).trans (List.perm_append_singleton _ _).symm
      rw [List.range'_concat, Nat.one_mul, Nat.add_comm 1]
      simp only [List.filterMap_append, List.filterMap_cons, Stage.number?, List.append_assoc,
        List.cons_append] at added ⊢
      exact List.perm_middle.trans added
    · simp only [List.countP_append, List.countP_cons, Stage.isWaiting, if_true] at count ⊢
      rw [if_neg (by decide)]
      omega
  · rw [eq] at outcomes numbers count
    refine ⟨by simpa [Stage.outcome] using outcomes, ?_, ?_, ?_⟩
    · -- the number that is reported moves from the stages to the reports
      simp only [List.filterMap_append, List.filterMap_cons, Stage.number?, List.append_assoc,
        List.cons_append, List.map_append, List.map_cons, List.map_nil] at numbers ⊢
      rw [← List.append_assoc, ← List.append_assoc]
      refine (List.perm_append_singleton n _).trans (.trans ?_ numbers)
      rw [List.append_assoc]
      exact List.perm_middle.symm
    · simpa [Stage.isWaiting] using count
    · intro report mem
      rcases List.mem_append.mp mem with mem | mem
      · exact totals report mem
      · rw [List.mem_singleton.mp mem, length]

theorem Consistent.run (h : Consistent work items w) (ran : w.run work schedule = some w') :
    Consistent work items w' := by
  induction schedule generalizing w with
  | nil => exact Option.some.inj ran ▸ h
  | cons i schedule ih =>
    obtain ⟨between, first, rest⟩ := Option.bind_eq_some_iff.mp ran
    exact ih (h.step first) rest

def stepsLeft (w : Workers α β) : Nat := sumOf (·.stepsLeft) w.stages

theorem stepsLeft_start (items : List α) :
    (start items : Workers α β).stepsLeft = 2 * items.length := by
  rw [stepsLeft, start]
  induction items with
  | nil => rfl
  | cons item rest ih =>
    rw [List.map_cons, sumOf, ih, Stage.stepsLeft, List.length_cons, Nat.mul_succ, Nat.add_comm]

theorem stepsLeft_step (h : w.step work i = some w') : w'.stepsLeft + 1 = w.stepsLeft := by
  obtain ⟨before, after, ⟨item, eq, rfl⟩ | ⟨n, result, eq, rfl⟩⟩ := step_cases h <;>
    · simp only [stepsLeft, eq, sumOf_append, sumOf, Stage.stepsLeft]
      omega

theorem length_add_stepsLeft (ran : w.run work schedule = some w') :
    schedule.length + w'.stepsLeft = w.stepsLeft := by
  induction schedule generalizing w with
  | nil => rw [Option.some.inj ran, List.length_nil, Nat.zero_add]
  | cons i schedule ih =>
    obtain ⟨between, first, rest⟩ := Option.bind_eq_some_iff.mp ran
    have left := stepsLeft_step first
    have later := ih rest
    rw [List.length_cons]
    omega

theorem exists_step (work : α → β) (h : w.isDone = false) : ∃ i w', w.step work i = some w' := by
  obtain ⟨stage, mem, open_⟩ := List.all_eq_false.mp h
  obtain ⟨i, lt, rfl⟩ := List.mem_iff_getElem.mp mem
  have at_i := List.getElem?_eq_getElem lt
  cases hs : w.stages[i] with
  | waiting item => exact ⟨i, _, by rw [step, at_i, hs]⟩
  | counted n result => exact ⟨i, _, by rw [step, at_i, hs]⟩
  | reported result => rw [hs] at open_; exact absurd rfl open_

theorem exists_run_done (work : α → β) (w : Workers α β) :
    ∃ schedule w', w.run work schedule = some w' ∧ w'.isDone = true := by
  induction hn : w.stepsLeft generalizing w with
  | zero =>
    cases hd : w.isDone with
    | true => exact ⟨[], w, rfl, hd⟩
    | false =>
      obtain ⟨i, w', h⟩ := exists_step work hd
      have left := stepsLeft_step h
      omega
  | succ n ih =>
    cases hd : w.isDone with
    | true => exact ⟨[], w, rfl, hd⟩
    | false =>
      obtain ⟨i, between, first⟩ := exists_step work hd
      have left := stepsLeft_step first
      obtain ⟨schedule, w', rest, done⟩ := ih between (by omega)
      exact ⟨i :: schedule, w', by rw [run, first]; exact rest, done⟩

theorem stages_of_isDone (done : w.isDone = true) : w.stages = w.results.map .reported := by
  rw [results, List.map_filterMap]
  refine ((List.filterMap_congr fun stage mem => ?_).trans List.filterMap_some).symm
  have reported := List.all_eq_true.mp done stage mem
  cases stage with
  | reported result => rfl
  | waiting item => exact absurd reported Bool.false_ne_true
  | counted n result => exact absurd reported Bool.false_ne_true

/-- When all items are done, no trace of the order is left in the results, nor in the reports once
they are sorted. -/
theorem run_done (ran : (start items).run work schedule = some w) (done : w.isDone = true) :
    w.results = items.map work ∧
      w.reports.mergeSort (·.1 ≤ ·.1) =
        (List.range items.length).map fun n => (n + 1, items.length) := by
  obtain ⟨outcomes, numbers, count, totals⟩ := Consistent.start.run ran
  have stages := stages_of_isDone done
  constructor
  · rw [← outcomes, stages]
    simp [Stage.outcome, Function.comp_def]
  have waiting : w.stages.countP (·.isWaiting) = 0 := by
    rw [stages]
    simp [Stage.isWaiting]
  have unreported : w.stages.filterMap (·.number?) = [] := by
    rw [stages]
    simp [Stage.number?]
  rw [waiting, Nat.add_zero] at count
  rw [unreported, List.nil_append, count, List.range'_eq_map_range] at numbers
  have paired : w.reports = (w.reports.map (·.1)).map fun n => (n, items.length) := by
    rw [List.map_map]
    exact (List.map_id _).symm.trans
      (List.map_congr_left fun report mem => Prod.ext rfl (totals report mem))
  have perm : w.reports.Perm ((List.range items.length).map fun n => (n + 1, items.length)) := by
    rw [paired]
    refine (numbers.map _).trans (.of_eq ?_)
    simp [Function.comp_def, Nat.add_comm]
  have sorted : (w.reports.mergeSort (·.1 ≤ ·.1)).Pairwise (·.1 ≤ ·.1) := by
    simpa using @List.pairwise_mergeSort _ (fun a b : Nat × Nat => a.1 ≤ b.1)
      (by simpa using fun _ _ _ => Nat.le_trans) (by simp [Nat.le_total]) w.reports
  refine ((List.mergeSort_perm _ _).trans perm).eq_of_pairwise ?_ sorted ?_
  · rintro a b ha hb hab hba
    obtain ⟨n, -, rfl⟩ := List.mem_map.mp hb
    exact Prod.ext (Nat.le_antisymm hab hba) (totals a ((List.mergeSort_perm _ _).mem_iff.mp ha))
  · rw [List.pairwise_map]
    exact List.pairwise_lt_range.imp fun lt => Nat.succ_le_succ (Nat.le_of_lt lt)

end Workers

end CodeSurvey.Loading
