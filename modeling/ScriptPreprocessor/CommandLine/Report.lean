import ScriptPreprocessor.CommandLine.Command
import ScriptPreprocessor.Diagnostic.Rendering
import ScriptPreprocessor.Run.Preprocessor

namespace ScriptPreprocessor

/-!
# Reports

What the command line shows of a run: the diagnostics and a line that sums them up for people, or
one JSON value for programs.  A few words are coloured, unless that is not wanted.
-/

inductive Emphasis where
  | bold
  | red
  | yellow

/-- The number that selects an emphasis in an escape sequence of a terminal. -/
def Emphasis.code : Emphasis → Text
  | .bold => "1".toList
  | .red => "31".toList
  | .yellow => "33".toList

def Text.emphasized (text : Text) (emphasis : Emphasis) (isColored : Bool) : Text :=
  if isColored then
    "\x1b[".toList ++ emphasis.code ++ 'm' :: text ++ "\x1b[0m".toList
  else text

/-! ## JSON -/

def MacroSpan.toJson (span : MacroSpan) : Json :=
  .object
    [("expanded_start".toList, .ofNat span.expandedStart),
      ("expanded_end".toList, .ofNat span.expandedEnd),
      ("original_column".toList, .ofNat span.sourceColumn),
      ("original_len".toList, .ofNat span.sourceLength)]

def Origin.toJson (origin : Origin) : Json :=
  .object [("unit".toList, .ofText origin.unit), ("line".toList, .ofNat origin.line)]

/-- A line entry as a JSON object.  The spans are left out when there are none. -/
def LineEntry.toJson (entry : LineEntry) : Json :=
  .object <|
    [("expanded_line".toList, .ofNat entry.expandedLine),
      ("origin".toList, entry.origin.toJson)] ++
    if entry.spans.isEmpty then []
    else [("macro_spans".toList, .array (entry.spans.map MacroSpan.toJson))]

def LineMap.toJson (map : LineMap) : Json :=
  .array (map.entries.toList.map LineEntry.toJson)

namespace RunOutput

def errorCount (output : RunOutput) : Nat :=
  Diagnostic.count .error output.diagnostics

def warningCount (output : RunOutput) : Nat :=
  Diagnostic.count .warning output.diagnostics

def toJson (output : RunOutput) (script : Text) : Json :=
  .object
    [("script".toList, .ofText script),
      ("expanded".toList, .ofText output.expanded),
      ("diagnostics".toList, Diagnostic.toJsonArray output.diagnostics),
      ("lineMap".toList, output.lineMap.toJson),
      ("summary".toList, .object
        [("includes".toList, .ofNat output.units.length),
          ("lines".toList, .ofNat output.lineMap.size),
          ("errors".toList, .ofNat output.errorCount),
          ("warnings".toList, .ofNat output.warningCount)])]

/-! ## Text -/

def countOf (number : Nat) (things : Text) (emphasis : Emphasis) (isColored : Bool) : List Text :=
  if number = 0 then []
  else [Text.emphasized (Text.ofNat number ++ ' ' :: things) emphasis isColored]

/-- The line that sums a run up.  There is none when there are neither errors nor warnings, whatever
else is among the diagnostics. -/
def summaryLine (output : RunOutput) (isColored : Bool) : Text :=
  let counts :=
    countOf output.errorCount "errors".toList .red isColored ++
      countOf output.warningCount "warnings".toList .yellow isColored
  if counts.isEmpty then []
  else
    Text.emphasized "Summary:".toList .bold isColored ++ ' ' :: Text.join ", ".toList counts ++
      " (".toList ++ Text.ofNat output.lineMap.size ++ " lines, ".toList ++
      Text.ofNat output.units.length ++ " includes)\n".toList

/-- The diagnostics of a run of a unit among the lines that they point to.  The lines are looked for
in the unit itself and in those that it has included. -/
def shownDiagnostics (output : RunOutput) (unit : SourceUnit) (diagnostics : List Diagnostic) :
    Text :=
  Diagnostic.renderAll (unit :: output.units) diagnostics ++ ['\n']

def remarks (output : RunOutput) (unit : SourceUnit) (isColored : Bool) : Text :=
  (if output.diagnostics.isEmpty then [] else output.shownDiagnostics unit output.diagnostics) ++
    output.summaryLine isColored

def messageReport (output : RunOutput) (unit : SourceUnit) (messages : List Diagnostic)
    (format : ReportFormat) (isColored : Bool) : Text :=
  match format with
  | .json => (Diagnostic.toJsonArray messages).render ++ ['\n']
  | .human =>
    if messages.isEmpty then
      Text.emphasized "!".toList .yellow isColored ++
        " No compiler messages recognized\n".toList
    else output.shownDiagnostics unit messages

end RunOutput

end ScriptPreprocessor
