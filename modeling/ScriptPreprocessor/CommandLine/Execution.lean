import ScriptPreprocessor.CommandLine.Outcome
import ScriptPreprocessor.CommandLine.Report

namespace ScriptPreprocessor

/-!
# Executed commands

What each command does with the files around it.  A command line that is misused has no outcome.
-/

def commandSummaries : List (Text × Text) :=
  [("preprocess".toList, "Expand directives and print the result".toList),
    ("save".toList, "Print the saved form of a script".toList),
    ("load".toList, "Recover the source from a saved document".toList),
    ("remap".toList, "Map compiler messages back to the sources".toList),
    ("config".toList, "Manage configuration files".toList),
    ("version".toList, "Show the version".toList),
    ("help".toList, "Show this text".toList)]

def helpText : Text :=
  "Usage: ".toList ++ programName ++ " [OPTIONS] [COMMAND]\n\nCommands:\n".toList ++
    commandSummaries.flatMap fun (name, purpose) =>
      "  ".toList ++ name ++ ": ".toList ++ purpose ++ ['\n']

def versionLine : Text :=
  programName ++ ' ' :: programVersion ++ ['\n']

namespace ConfigurationFormat

def fileName : ConfigurationFormat → Text
  | .toml => ".lslpprc.toml".toList
  | .json => ".lslpprc.json".toList

def render (configuration : Configuration) : ConfigurationFormat → Text
  | .toml => configuration.renderToml
  | .json => configuration.renderJson

end ConfigurationFormat

namespace Invocation

def runScript (invocation : Invocation) (surroundings : Surroundings) (choice : ScriptChoice) :
    Except CommandFailure (LiveSession × RunOutput) := do
  let script ← Script.load surroundings invocation.configurationFile choice
  let session ← script.run surroundings.clock
  return (session, ← session.finish.mapError .failure)

/-- Preprocesses a script and shows or writes the expanded text.  Errors in the script make the
command fail only behind its report: the text is delivered all the same, so that it can be looked
at. -/
def preprocess (invocation : Invocation) (surroundings : Surroundings) (choice : ScriptChoice)
    (format : ReportFormat) (destination : Option Text) : Except CommandFailure Outcome := do
  let (session, output) ← invocation.runScript surroundings choice
  let tree := surroundings.tree
  let failure := if output.hasErrors then some (.erroneousScript choice.file) else none
  match format with
  | .human =>
    return (Outcome.deliver tree output.expanded destination).andThen []
      (output.remarks session.source invocation.isColored) failure
  | .json =>
    let written :=
      if destination.isSome then Outcome.deliver tree output.expanded destination else { tree }
    return written.andThen ((output.toJson session.source.name).render ++ ['\n']) [] failure

/-- The text that a script is saved as.  A script without anything to preprocess stays as it is,
since its stored form would only repeat it.  An include script is stored without being expanded. -/
def savedText (invocation : Invocation) (surroundings : Surroundings) (choice : ScriptChoice)
    (asInclude : Bool) : Except CommandFailure Text := do
  let script ← Script.load surroundings invocation.configurationFile choice
  if asInclude then return Document.saveInclude script.unit.text
  else if !needsPreprocessing script.unit.text then return script.unit.text
  else
    let session ← script.run surroundings.clock
    session.saveForm.mapError .failure

/-- Recovers the source from a document, or the text that was last compiled.  Only a document that
was stored with its compiled text can give the latter back. -/
def loadedText (surroundings : Surroundings) (file : Text) (compiled : Bool) :
    Except CommandFailure Text := do
  let text ← (surroundings.tree.readText file).mapError (.unreadableDocument file)
  let loaded := Document.load text
  if !compiled then return loaded.text
  else
    match loaded.compiled with
    | some text => return text
    | none => throw (.notCompiled file)

/-- Moves compiler messages back to the units of a script, and reports them. -/
def remap (invocation : Invocation) (surroundings : Surroundings) (choice : ScriptChoice)
    (messages : List Text) (format : ReportFormat) : Except CommandFailure Outcome := do
  let (session, output) ← invocation.runScript surroundings choice
  let recorded := session.messageDiagnostics output messages
  return { tree := surroundings.tree
           output := output.messageReport session.source recorded format invocation.isColored }

/-- Writes a new configuration file.  One that is there is only overwritten on demand. -/
def createConfiguration (surroundings : Surroundings) (format : ConfigurationFormat)
    (overwrite : Bool) : Outcome :=
  let tree := surroundings.tree
  let file := format.fileName
  if tree.pathExists file && !overwrite then .failed tree (.configurationExists file)
  else
    match tree.write file (Utf8.encode (format.render .starter)) with
    | .error problem => .failed tree (.unwritableConfiguration file problem.message)
    | .ok tree =>
      { tree
        output :=
          "✅ Created configuration file: ".toList ++ file ++
            "\n   Edit the file to set include folders and predefined macros.\n".toList }

def perform (invocation : Invocation) (surroundings : Surroundings) : Outcome :=
  let tree := surroundings.tree
  match invocation.command with
  | .preprocess choice format destination =>
    .ofAttempt tree (invocation.preprocess surroundings choice format destination)
  | .save choice asInclude destination =>
    .ofAttempt tree <| (invocation.savedText surroundings choice asInclude).map fun text =>
      .deliver tree text destination
  | .load file compiled destination =>
    .ofAttempt tree <| (loadedText surroundings file compiled).map fun text =>
      .deliver tree text destination
  | .remap choice messages format =>
    .ofAttempt tree (invocation.remap surroundings choice messages format)
  | .createConfiguration format overwrite => createConfiguration surroundings format overwrite
  | .showConfiguration =>
    .ofAttempt tree <|
      (surroundings.configuration invocation.configurationFile ['.']).map fun configuration =>
        { tree, output := configuration.renderToml }
  | .showVersion => { tree, output := versionLine }
  | .showHelp => { tree, output := helpText }

end Invocation

def runCommandLine (surroundings : Surroundings) (arguments : List Text) : Option Outcome :=
  (Invocation.parse? arguments).map fun invocation => invocation.perform surroundings

/-- The exit code of a command line: two for a misuse, one for a failure, and zero otherwise. -/
def exitCode (outcome : Option Outcome) : Nat :=
  match outcome with
  | none => 2
  | some outcome => if outcome.failure.isSome then 1 else 0

end ScriptPreprocessor
