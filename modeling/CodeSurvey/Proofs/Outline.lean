import CodeSurvey.Proofs.Digest
import CodeSurvey.Proofs.FirstErrors
import CodeSurvey.Proofs.Inventory

namespace CodeSurvey

namespace Digest

open Node Script

variable (s : Source)

def topDeclarations (root : Node) : List Node :=
  root.namedChildren.flatMap fun n => (declarationOf? n).toList

theorem topItems_eq (root : Node) : topItems s root = (topDeclarations root).flatMap (itemsOf s) := by
  rw [topItems, topDeclarations, List.flatMap_assoc]
  congr
  funext n
  cases declarationOf? n <;> simp

theorem survey_eq_ok_iff {path content : String} {parser : Parser} {noted : FileSurvey} :
    Script.survey path content parser = .ok noted ↔
      ∃ root, Script.read path (.ofString content) parser = .ok root ∧
        surveyTree (.ofString content) root = noted := by
  rw [show Script.survey path content parser = (Script.read path (.ofString content) parser).map
    (surveyTree (.ofString content)) from rfl]
  cases Script.read path (.ofString content) parser <;> simp [Except.map]

theorem parsed_of_read {path : String} {source : Source} {parser : Parser} {root : Node}
    (h : Script.read path source parser = .ok root) :
    ∃ dialect, parser dialect source = some root ∧ root.firstError? = none := by
  obtain ⟨dialect, -, parsed, clean⟩ := read_eq_ok_iff.mp h
  exact ⟨dialect, parsed, clean⟩

end Digest

end CodeSurvey
