/-
Quiz.CommandLine.Usage — what the program says about itself.
-/
import Quiz.CommandLine.Arguments

namespace Quiz.CommandLine

/-- How the program is called. -/
def usage (program : String) : String :=
  "usage: " ++ program ++ " [-h] [--check] [--screen ID] [--placeholder KEY=VALUE]\n"
    ++ String.ofList (List.replicate (program.length + 8) ' ') ++ "[--verbose]\n"
    ++ String.ofList (List.replicate (program.length + 8) ' ') ++ "quiz\n"

/-- What is said about arguments that do not fit. -/
def usageError (program : String) (fault : UsageFault) : String :=
  program ++ ": error: " ++ fault.message

/-- The lines about one argument. -/
def helpEntry (name about : String) : String :=
  let indent := String.ofList (List.replicate 24 ' ')
  let head := "  " ++ name
  if head.length + 2 ≤ 24 then
    head ++ String.ofList (List.replicate (24 - head.length) ' ') ++ about ++ "\n"
  else head ++ "\n" ++ indent ++ about ++ "\n"

/-- All about the program. -/
def help (program : String) : String :=
  usage program
    ++ "\nFunnel Player — play quiz screens in the terminal.\n"
    ++ "\npositional arguments:\n"
    ++ helpEntry "quiz" "Quiz JSON: one screen, an array, or \x7b\"screens\": [...]\x7d"
    ++ "\noptions:\n"
    ++ helpEntry "-h, --help" "show this help message and exit"
    ++ helpEntry "--check" "Validate the quiz and exit"
    ++ helpEntry "--screen ID" "Start at the screen with this id"
    ++ helpEntry "--placeholder KEY=VALUE" "Substitute a placeholder (repeatable)"
    ++ helpEntry "--verbose" "Log debug output to stderr"
    ++ "\nControls, one to a line:\n"
    ++ helpEntry "1-9" "Pick an option / answer a popup"
    ++ helpEntry "- / +" "Move between selections and inputs"
    ++ helpEntry "=TEXT" "Type into the answer box"
    ++ helpEntry "an empty line" "Press the screen button"
    ++ helpEntry "b" "Leave a branch, or go back one screen"
    ++ helpEntry "r" "Play again, once the quiz is complete"
    ++ helpEntry "q" "Quit"

end Quiz.CommandLine
