namespace CodeSurvey.Loading

inductive Stage (α β : Type) where
  | waiting (item : α)
  /-- The item is done and counted as number `n`. -/
  | counted (n : Nat) (result : β)
  | reported (result : β)

namespace Stage

variable {α β : Type}

def isWaiting : Stage α β → Bool
  | waiting _ => true
  | counted .. | reported _ => false

def isReported : Stage α β → Bool
  | reported _ => true
  | waiting _ | counted .. => false

def result? : Stage α β → Option β
  | waiting _ => none
  | counted _ result | reported result => some result

end Stage

structure Workers (α β : Type) where
  stages : List (Stage α β)
  count : Nat := 0
  /-- The reports until now: how many items are done, of how many. -/
  reports : List (Nat × Nat) := []

namespace Workers

variable {α β : Type}

def start (items : List α) : Workers α β := { stages := items.map .waiting }

variable (work : α → β)

def step (w : Workers α β) (i : Nat) : Option (Workers α β) :=
  match w.stages[i]? with
  | some (.waiting item) => some { w with
      stages := w.stages.set i (.counted (w.count + 1) (work item))
      count := w.count + 1 }
  | some (.counted n result) => some { w with
      stages := w.stages.set i (.reported result)
      reports := w.reports ++ [(n, w.stages.length)] }
  | some (.reported _) | none => none

/-- Steps for items in some order. -/
def run : List Nat → Workers α β → Option (Workers α β)
  | [], w => some w
  | i :: schedule, w => (w.step work i).bind (run schedule)

def isDone (w : Workers α β) : Bool := w.stages.all (·.isReported)

/-- The results in the order of the items. -/
def results (w : Workers α β) : List β := w.stages.filterMap (·.result?)

end Workers

end CodeSurvey.Loading
