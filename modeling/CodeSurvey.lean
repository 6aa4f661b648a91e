import CodeSurvey.Main
import CodeSurvey.Proofs.DrawnTree
import CodeSurvey.Proofs.ImportIndex
import CodeSurvey.Proofs.Outline
import CodeSurvey.Proofs.Gathering
import CodeSurvey.Proofs.PowersOfTen
import CodeSurvey.Proofs.Structure
import CodeSurvey.Proofs.ShortestDecimal
import CodeSurvey.Proofs.JsonTexts
import CodeSurvey.Proofs.JsonValues
import CodeSurvey.Proofs.Decoding
import CodeSurvey.Proofs.Bounds
import CodeSurvey.Proofs.Export
import CodeSurvey.Loading.Workers
import CodeSurvey.Proofs.Workers
import CodeSurvey.Proofs.FileSystem
import CodeSurvey.Proofs.Walk
import CodeSurvey.Proofs.Loading
import CodeSurvey.Proofs.Overrides
import CodeSurvey.Proofs.Comments
import CodeSurvey.Proofs.ImportStatements
import CodeSurvey.Proofs.Decisions
import CodeSurvey.Proofs.WantedFiles
import CodeSurvey.Proofs.ReadTree
import CodeSurvey.Proofs.ProjectPaths
import CodeSurvey.Proofs.AddedFiles
import CodeSurvey.Proofs.IndexTexts
import CodeSurvey.Proofs.Sections
import CodeSurvey.Proofs.StructureTexts
import CodeSurvey.Proofs.Literals
import CodeSurvey.Proofs.TreeLines
import CodeSurvey.Proofs.Stretches
import CodeSurvey.Proofs.WellFormed
import CodeSurvey.Proofs.IndexRuns
import CodeSurvey.Proofs.RulePatterns
import CodeSurvey.Proofs.KeyRules
import CodeSurvey.Proofs.AddedPatterns
import CodeSurvey.Proofs.WiderOptions
import CodeSurvey.Proofs.ConfigTexts
import CodeSurvey.Proofs.PickedLines
import CodeSurvey.Proofs.TomlWords
import CodeSurvey.Proofs.SizeLimits
import CodeSurvey.Proofs.FirstErrors
