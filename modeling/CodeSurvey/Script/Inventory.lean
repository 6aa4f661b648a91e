import CodeSurvey.Script.Declaration
import CodeSurvey.Script.Reading

namespace CodeSurvey.Script

variable (s : Source)

def import? (n : Node) : Option ImportRecord :=
  (n.child? .source).map fun source =>
    let clause := n.namedChildren.find? (·.isA .importClause)
    { specifiers := (clause.map fun c => collapsed (c.text s)).getD ""
      source := unquote (source.text s) }

/-- What an export statement imports to export it again; a star stands for everything. -/
def reexport? (n : Node) : Option ImportRecord :=
  (n.child? .source).map fun source =>
    let clause := n.namedChildren.find? (·.isAny [.exportClause, .namespaceExport])
    { specifiers := (clause.map fun c => collapsed (c.text s)).getD "*"
      source := unquote (source.text s) }

def exportedName? (specifier : Node) : Option String :=
  if specifier.isA .exportSpecifier then
    (specifier.child? .otherName <|> specifier.child? .name).map fun n => unquote (n.text s)
  else none

def namesOfDeclaration (d : Node) : List String :=
  if d.isAny variableDeclarations then declaredNames s d
  else if d.isAny (functionDeclarations ++ classDeclarations) then
    ((d.child? .name).map (·.text s)).toList
  else []

def exportedNames (n : Node) : List String :=
  if n.children.any (·.isText "default") then ["default"]
  else
    match n.child? .declaration with
    | some d => namesOfDeclaration s d
    | none => (n.namedChildren.filter (·.isA .exportClause)).flatMap fun clause =>
        clause.namedChildren.filterMap (exportedName? s)

/-- Notes what a node says itself. Variables are noted only at the top of a script. -/
def note (top : Bool) (n : Node) (survey : FileSurvey) : FileSurvey :=
  if n.isA .importStatement then
    { survey with imports := survey.imports ++ (import? s n).toList }
  else if n.isA .exportStatement then
    { survey with
      imports := survey.imports ++ (reexport? s n).toList
      exports := (exportedNames s n).foldl pushUnique survey.exports }
  else if n.isAny functionDeclarations then
    { survey with functions := survey.functions ++ (functionRecord? s n).toList }
  else if n.isAny classDeclarations then
    { survey with classes := survey.classes ++ (classRecord? s n).toList }
  else if n.isAny variableDeclarations && top then
    { survey with variableNames := (declaredNames s n).foldl pushUnique survey.variableNames }
  else survey

def leadsToTop (top : Bool) (n : Node) : Bool :=
  n.isA .program || n.isA .exportStatement && top

mutual

def walk (top : Bool) : Node → FileSurvey → FileSurvey
  | .mk m children, survey =>
    walkAll (leadsToTop top (.mk m children)) children (note s top (.mk m children) survey)

def walkAll (top : Bool) : List Node → FileSurvey → FileSurvey
  | [], survey => survey
  | n :: rest, survey => walkAll top rest (if n.isNamed then walk top n survey else survey)

end

def surveyTree (root : Node) : FileSurvey :=
  { walk s true root {} with complexity := complexity root }

def survey (path : String) (content : String) (parser : Parser := .standard) :
    Except Failure FileSurvey :=
  let source := Source.ofString content
  (read path source parser).map (surveyTree source)

def surveyFile (path : String) (content : String) (parser : Parser := .standard) : FileSurvey :=
  if isScript path then
    match survey path content parser with
    | .ok result => result
    | .error _ => {}
  else .placeholder path

end CodeSurvey.Script
