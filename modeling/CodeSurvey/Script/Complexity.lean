import CodeSurvey.Syntax.Node

namespace CodeSurvey.Script

/-- Phrases that are decisions, whatever they hold. -/
def branchings : List Category := [.ifStatement, .forStatement, .whileStatement, .doStatement,
  .switchCase, .switchDefault, .ternaryExpression]

/-- Operators that evaluate their right side on a condition. -/
def conditionalOperators : List String := ["&&", "||", "??"]

def isDecision (n : Node) : Bool :=
  n.isAny branchings || n.isA .binaryExpression &&
    (n.child? .operator).any fun operator => conditionalOperators.any operator.isText

mutual

def decisions : Node → Nat
  | .mk m children => (if isDecision (.mk m children) then 1 else 0) + decisionsIn children

def decisionsIn : List Node → Nat
  | [] => 0
  | n :: rest => decisions n + decisionsIn rest

end

/-- The largest number of decisions that is told apart from larger ones. -/
def maxDecisions : Nat := 4294967295

def complexity (n : Node) : Nat := (1 + UInt32.ofNat (min (decisions n) maxDecisions)).toNat

end CodeSurvey.Script
