import Tomasulo.CommandLine.Invocation
import Tomasulo.Configuration.Document
import Tomasulo.Instruction.Description
import Tomasulo.Run.Document
import Tomasulo.Run.Report

/-!
# Responses

What the program writes for an invocation, and the code with which it ends.  Files are given by a
function, so nothing here reads any: a command that needs a file asks for its content or for the
reason why there is none.  The source is asked for before the configuration.
-/

namespace Tomasulo.CommandLine

/-- What a run of the program leaves behind. -/
structure Response where
  code : Nat
  stdout : String
  stderr : String

namespace Response

/-- Success with some output. -/
def success (output : String) : Response :=
  ⟨0, output, ""⟩

/-- Failure with a line about it. -/
def failure (code : Nat) (line : String) : Response :=
  ⟨code, "", line ++ "\n"⟩

end Response

/-- The contents of files, or why they cannot be read. -/
abbrev Files := String → Except String String

/-- The configuration that options ask for; a cap given as an option replaces the configured one and
is judged only when the run begins. -/
def configuration (files : Files) (output : Output) : Except Response Configuration := do
  let configuration ← match output.configPath with
    | none => pure {}
    | some path =>
        match files path with
        | .error reason => .error (.failure 2 s!"Error reading config {path}: {reason}")
        | .ok document =>
            match Configuration.ofDocument document with
            | .error error => .error (.failure 2 s!"Error in config {path}: {error.message}")
            | .ok configuration => pure configuration
  return { configuration with maxCycles := output.maxCycles.getD configuration.maxCycles }

/-- Simulates a source and writes the run. -/
def simulate (files : Files) (source : String) (output : Output) : Response :=
  match configuration files output with
  | .error response => response
  | .ok configuration =>
      match History.ofSource source configuration with
      | .error error => .failure 1 s!"Error: {error.message}"
      | .ok history =>
          let window := configuration.queueWindow
          if output.json then .success ((history.document window).pretty ++ "\n")
          else .success (history.text window output.quiet)

/-- One instruction in a listing. -/
def instructionLine (instruction : Instruction) : String :=
  Text.alignRight 3 (toString instruction.codeOrder) ++ "  " ++
    Text.alignLeft 28 instruction.line ++ " " ++ instruction.operation.description ++ "\n"

/-- One section in a listing. -/
def sectionLine (part : Section) : String :=
  s!"{part.name}: [" ++ ", ".intercalate (part.members.map toString) ++ "]\n"

/-- A listing with descriptions, sections and initial values. -/
def listingText (listing : Listing) : String :=
  let values := listing.initialValues.entries.map fun entry =>
    s!"{entry.1} = {Value.full entry.2}\n"
  String.join (listing.instructions.map instructionLine) ++ "\n" ++
    String.join (listing.sections.map sectionLine) ++
    (if values.isEmpty then "" else "\n" ++ String.join values)

/-- Lists a source. -/
def list (source : String) : Response :=
  match Listing.ofSource? source with
  | none => .failure 1 "Error: the source contains no recognizable instruction"
  | some listing => .success (listingText listing)

/-- Hands the source at a path to a command. -/
def withSource (files : Files) (path : String) (command : String → Response) : Response :=
  match files path with
  | .error reason => .failure 1 s!"Error reading {path}: {reason}"
  | .ok source => command source

/-- The name and version of the program. -/
def versionLine : String :=
  "tomasim 0.3.0\n"

/-- How the program is used. -/
def helpText : String :=
  "Usage: tomasim <COMMAND>\n\nCommands:\n  run <FILE>       Simulate an assembly file\n" ++
    "  template <NAME>  Simulate a built-in example program\n" ++
    "  parse <FILE>     List the instructions of an assembly file\n"

/-- What an invocation leads to. -/
def respond (files : Files) : Invocation → Response
  | .run path output => withSource files path fun source => simulate files source output
  | .template template showSource output =>
      if showSource then .success (template.source ++ "\n")
      else simulate files template.source output
  | .parse path => withSource files path list
  | .help => .success helpText
  | .version => .success versionLine

/-- The files that an invocation may ask for. -/
def Invocation.paths : Invocation → List String
  | .run path output => path :: output.configPath.toList
  | .template _ _ output => output.configPath.toList
  | .parse path => [path]
  | .help | .version => []

/-- What a command line leads to. -/
def answer (files : Files) (words : List String) : Response :=
  match read words with
  | .error error => .failure 2 s!"error: {error.message}\n\n{helpText}"
  | .ok invocation => respond files invocation

end Tomasulo.CommandLine
