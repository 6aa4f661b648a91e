namespace CodeSurvey.CommandLine

inductive Color where
  | boldGreen
  | boldYellow
  | yellow
  | cyan
  | dim
deriving DecidableEq, Repr

namespace Color

def code : Color → String
  | boldGreen => "1;32"
  | boldYellow => "1;33"
  | yellow => "33"
  | cyan => "36"
  | dim => "2"

def paint (wanted : Bool) (c : Color) (s : String) : String :=
  if wanted then "\x1b[" ++ c.code ++ "m" ++ s ++ "\x1b[0m" else s

end Color

end CodeSurvey.CommandLine
