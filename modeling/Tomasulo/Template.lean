/-!
# Templates

Small programs that show one thing each.
-/

namespace Tomasulo

/-- The programs that come with the simulator. -/
inductive Template where
  /-- Loads and all four operations in a straight line. -/
  | default
  /-- Reading a register after it is written. -/
  | raw
  /-- Writing a register after it is read. -/
  | war
  /-- Writing a register twice. -/
  | waw
  /-- Counting in a loop. -/
  | loop
deriving DecidableEq

namespace Template

/-- All templates in menu order. -/
def all : List Template :=
  [.default, .raw, .war, .waw, .loop]

/-- The name by which a template is asked for. -/
def name : Template → String
  | .default => "default"
  | .raw => "raw"
  | .war => "war"
  | .waw => "waw"
  | .loop => "loop"

/-- The lines of a template. -/
def lines : Template → List String
  | .default =>
      ["flw f6, 32(a2)", "flw f2, 44(a3)", "fmul.s f0, f2, f4", "fsub.s f8, f2, f6",
        "fdiv.s f10, f0, f6", "fadd.s f6, f6, f2"]
  | .raw => ["fmul.s f4, f1, f2", "fadd.s f5, f1, f4"]
  | .war => ["fmul.s f4, f1, f5", "fadd.s f5, f1, f2"]
  | .waw => ["fmul.s f6, f1, f2", "fadd.s f6, f3, f4"]
  | .loop =>
      ["# x1 counts up until it reaches x2", "loop:", "addi x1, x1, 1", "blt x1, x2, loop"]

/-- The text of a template. -/
def source (template : Template) : String :=
  "\n".intercalate template.lines

/-- A text with its ASCII letters in lower case. -/
def lowered (text : String) : String :=
  String.ofList (text.toList.map Char.toLower)

/-- The template of a name, in any mixture of cases. -/
def ofName? (text : String) : Option Template :=
  all.find? fun template => template.name == lowered text

/-- What is said about a name that no template has. -/
def unknownMessage (text : String) : String :=
  let names := ", ".intercalate (all.map name)
  s!"unknown template `{text}` (expected one of: {names})"

end Template

end Tomasulo
