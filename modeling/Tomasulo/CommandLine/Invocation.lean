import Tomasulo.Template
import Tomasulo.Text.Numeral

/-!
# Invocations

The command line names a command, its one argument and options in any order.  Long options take a
value behind an equals sign or as the next word, short ones in the same word or as the next one, and
short options without a value may share a word.  After `--` every word is an argument.  An option may
be given once; a word that begins with a dash is never the value of an option before it.
-/

namespace Tomasulo.CommandLine

/-- What the options of a simulating command ask for. -/
structure Output where
  configPath : Option String := none
  maxCycles : Option Nat := none
  json : Bool := false
  quiet : Bool := false
deriving DecidableEq

/-- What the command line asks for. -/
inductive Invocation where
  | run (path : String) (output : Output)
  | template (template : Template) (showSource : Bool) (output : Output)
  | parse (path : String)
  | help
  | version
deriving DecidableEq

/-- Why a command line is refused. -/
inductive UsageError where
  | missingCommand
  | unknownCommand (word : String)
  | unexpected (word : String)
  | missingValue (word : String)
  | invalidValue (word value : String)
  | repeated (word : String)
  | missingArgument
deriving DecidableEq

/-- The text of a refusal. -/
def UsageError.message : UsageError → String
  | missingCommand => "a command is required"
  | unknownCommand word => "unrecognized command '" ++ word ++ "'"
  | unexpected word => "unexpected argument '" ++ word ++ "' found"
  | missingValue word => "a value is required for '" ++ word ++ "'"
  | invalidValue word value => "invalid value '" ++ value ++ "' for '" ++ word ++ "'"
  | repeated word => "the argument '" ++ word ++ "' cannot be used multiple times"
  | missingArgument => "a required argument was not provided"

/-- Options of the simulating commands. -/
inductive Switch where
  | config
  | maxCycles
  | json
  | quiet
  | source
deriving DecidableEq

namespace Switch

/-- The long form of an option. -/
def long : Switch → String
  | config => "config"
  | maxCycles => "max-cycles"
  | json => "json"
  | quiet => "quiet"
  | source => "source"

/-- The short form of an option, if it has one. -/
def short? : Switch → Option Char
  | config => some 'c'
  | quiet => some 'q'
  | _ => none

/-- Whether an option takes a value. -/
def takesValue : Switch → Bool
  | config | maxCycles => true
  | _ => false

/-- The option as it is spelled in messages. -/
def word (switch : Switch) : String :=
  "--" ++ switch.long

end Switch

/-- One thing given on a command line. -/
inductive Item where
  | argument (text : String)
  | switch (switch : Switch) (value : Option String)
  | help

/-- Whether a word stands for an option rather than an argument or a value. -/
def isOption (word : List Char) : Bool :=
  match word with
  | '-' :: _ :: _ => true
  | _ => false

/-- A long option: its name, and the value behind an equals sign if there is one. -/
def splitLong (word : List Char) : String × Option String :=
  let name := word.takeWhile (· != '=')
  match word.drop name.length with
  | [] => (String.ofList name, none)
  | _ :: value => (String.ofList name, some (String.ofList value))

/-- The options of a word of short options: those without a value, and at the end possibly one that
takes a value, with what the word says about it. -/
def shortOptions (switches : List Switch) (word : String) :
    List Char → Except UsageError (List Item × Option (Switch × Option String))
  | [] => .ok ([], none)
  | c :: rest =>
      match switches.find? (·.short? == some c) with
      | none => if c = 'h' then .ok ([.help], none) else .error (.unexpected word)
      | some switch =>
          if switch.takesValue then
            match rest with
            | [] => .ok ([], some (switch, none))
            | '=' :: value => .ok ([], some (switch, some (String.ofList value)))
            | value => .ok ([], some (switch, some (String.ofList value)))
          else do
            let (items, last) ← shortOptions switches word rest
            return (.switch switch none :: items, last)

/-- What the words after a command give.  `pending` is an option that still needs its value. -/
def items (switches : List Switch) (pending : Option Switch) :
    List String → Except UsageError (List Item)
  | [] =>
      match pending with
      | none => .ok []
      | some switch => .error (.missingValue switch.word)
  | word :: rest =>
      let chars := word.toList
      match pending with
      | some switch =>
          if isOption chars then .error (.missingValue switch.word)
          else do return .switch switch (some word) :: (← items switches none rest)
      | none =>
          match chars with
          | ['-', '-'] => .ok (rest.map .argument)
          | '-' :: '-' :: long =>
              let (name, value) := splitLong long
              match switches.find? (·.long == name) with
              | none =>
                  if name == "help" && value.isNone then .ok [.help] else .error (.unexpected word)
              | some switch =>
                  match switch.takesValue, value with
                  | true, none => items switches (some switch) rest
                  | false, some _ => .error (.unexpected word)
                  | _, value => do return .switch switch value :: (← items switches none rest)
          | '-' :: c :: short => do
              let (given, last) ← shortOptions switches word (c :: short)
              if given.any fun item => item matches .help then return given
              match last with
              | none => return given ++ (← items switches none rest)
              | some (switch, none) => return given ++ (← items switches (some switch) rest)
              | some (switch, some value) =>
                  return given ++ .switch switch (some value) :: (← items switches none rest)
          | _ => do return .argument word :: (← items switches none rest)

/-- What has been given so far. -/
structure Given where
  argument : Option String := none
  configPath : Option String := none
  maxCycles : Option Nat := none
  json : Bool := false
  quiet : Bool := false
  source : Bool := false
  help : Bool := false

namespace Given

/-- Sets an option that may be given once. -/
def flag (switch : Switch) (already : Bool) (given : Given) : Except UsageError Given :=
  if already then .error (.repeated switch.word) else .ok given

/-- Takes one more thing from the command line; nothing counts after a request for help.  `admits`
says which texts can be the argument. -/
def take (admits : String → Bool) (given : Given) : Item → Except UsageError Given
  | .help => .ok { given with help := true }
  | .argument text =>
      if given.argument.isSome then .error (.unexpected text)
      else if admits text then .ok { given with argument := some text }
      else .error (.invalidValue "the argument" text)
  | .switch .json _ => flag .json given.json { given with json := true }
  | .switch .quiet _ => flag .quiet given.quiet { given with quiet := true }
  | .switch .source _ => flag .source given.source { given with source := true }
  | .switch .config value =>
      let path := value.getD ""
      if path.isEmpty then .error (.missingValue Switch.config.word)
      else flag .config given.configPath.isSome { given with configPath := some path }
  | .switch .maxCycles value =>
      let text := value.getD ""
      match Text.unsignedWord? text.toList with
      | none => .error (.invalidValue Switch.maxCycles.word text)
      | some n => flag .maxCycles given.maxCycles.isSome { given with maxCycles := some n }

/-- The options of a simulating command. -/
def output (given : Given) : Output :=
  { configPath := given.configPath
    maxCycles := given.maxCycles
    json := given.json
    quiet := given.quiet }

/-- The argument of a command. -/
def argument? (given : Given) : Except UsageError String :=
  match given.argument with
  | none => .error .missingArgument
  | some text => .ok text

/-- The template that the argument names. -/
def template? (given : Given) : Except UsageError Template := do
  let text ← given.argument?
  match Template.ofName? text with
  | none => .error (.invalidValue "the argument" text)
  | some template => .ok template

end Given

/-- Whether a text can be a path, which is never empty. -/
def isPath (text : String) : Bool :=
  !text.isEmpty

/-- Whether a text names a template. -/
def isTemplate (text : String) : Bool :=
  (Template.ofName? text).isSome

/-- Reads what follows a command and makes an invocation of it. -/
def readCommand (switches : List Switch) (admits : String → Bool)
    (make : Given → Except UsageError Invocation) (words : List String) :
    Except UsageError Invocation := do
  let given ← (← items switches none words).foldlM (Given.take admits) {}
  if given.help then return .help else make given

/-- Reads what follows a request for help: nothing, or the one command that it is about. -/
def readHelp : List String → Except UsageError Invocation
  | [] => .ok .help
  | word :: rest =>
      if ["run", "template", "parse", "help"].contains word then
        match rest with
        | [] => .ok .help
        | next :: _ => .error (.unknownCommand next)
      else .error (.unknownCommand word)

/-- Reads a command line. -/
def read : List String → Except UsageError Invocation
  | [] => .error .missingCommand
  | command :: words =>
      let simulating : List Switch := [.config, .maxCycles, .json, .quiet]
      match command with
      | "run" =>
          readCommand simulating isPath (fun given => return .run (← given.argument?) given.output)
            words
      | "template" =>
          readCommand (.source :: simulating) isTemplate
            (fun given => return .template (← given.template?) given.source given.output) words
      | "parse" => readCommand [] isPath (fun given => return .parse (← given.argument?)) words
      | "help" => readHelp words
      | "--help" => .ok .help
      | "--version" => .ok .version
      | _ =>
          match command.toList with
          | '-' :: 'h' :: _ => .ok .help
          | '-' :: 'V' :: _ => .ok .version
          | _ => .error (.unknownCommand command)

end Tomasulo.CommandLine
