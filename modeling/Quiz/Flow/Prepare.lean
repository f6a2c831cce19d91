/-
Quiz.Flow.Prepare — a raw quiz turned into screens: placeholders are
replaced, conditional screens get their buttons, and what results has to
be valid.
-/
import Quiz.Screen.BranchButton
import Quiz.Screen.Placeholder
import Quiz.Screen.Source
import Quiz.Settings

namespace Quiz

/-- Why a quiz cannot be played. -/
inductive PrepareFault where
  /-- Something of this sort stands where conditional screens should. -/
  | branches (sort : String)
  | source (fault : SourceFault)

/-- The wording of a prepare fault. -/
def PrepareFault.message : PrepareFault → String
  | .branches sort => "'" ++ sort ++ "' object has no attribute 'values'"
  | .source fault => fault.message

namespace Prepare

/-- Adds buttons to one raw screen; the label says whether it is the last. -/
def withButtons (settings : Settings) (isLast : Bool) (raw : Json) : Except PrepareFault Json :=
  match raw with
  | .obj fs =>
    match addBranchButtons (if isLast then settings.finishLabel else settings.continueLabel) fs with
    | .ok fs => .ok (.obj fs)
    | .error sort => .error (.branches sort)
  | j => .ok j

/-- Adds buttons to raw screens in order. -/
def withAllButtons (settings : Settings) : List Json → Except PrepareFault (List Json)
  | [] => .ok []
  | raw :: rest =>
    match withButtons settings rest.isEmpty raw with
    | .error fault => .error fault
    | .ok first =>
      match withAllButtons settings rest with
      | .error fault => .error fault
      | .ok others => .ok (first :: others)

/-- Adds buttons to the screens of a document, in whatever form they come. -/
def withSourceButtons (settings : Settings) (value : Json) : Except PrepareFault Json :=
  match value with
  | .arr raws => (withAllButtons settings raws).map .arr
  | .obj fs =>
    match Table.get? fs "screens" with
    | some (.arr raws) =>
      (withAllButtons settings raws).map fun raws => .obj (Table.put fs "screens" (.arr raws))
    | _ => withButtons settings true value
  | j => .ok j

end Prepare

/-- The screens of a raw quiz. Beside them, or beside the fault, is what
was worth a warning. -/
def prepareScreens (settings : Settings) (placeholders : Placeholders) (value : Json) :
    Except PrepareFault (List Screen) × List Warning :=
  match Prepare.withSourceButtons settings (applyPlaceholders placeholders value) with
  | .error fault => (.error fault, [])
  | .ok ready =>
    match normalizeSource settings.maxNestingDepth ready with
    | (.error fault, warnings) => (.error (.source fault), warnings)
    | (.ok (_, screens), warnings) => (.ok screens, warnings)

end Quiz
