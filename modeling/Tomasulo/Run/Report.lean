import Tomasulo.Machine.Dump
import Tomasulo.Run.History

/-!
# Runs as text

The text of a run tells every cycle and dumps its state, then sets the actions of each instruction in
a table with one column to a cycle, and ends with the statistics.  Columns are filled up with spaces
to a width counted in characters; a text that is already wider is left as it is.
-/

namespace Tomasulo.Text

/-- A run of spaces. -/
def spaces (n : Nat) : String :=
  String.ofList (List.replicate n ' ')

/-- Fills a text up on its right. -/
def alignLeft (width : Nat) (text : String) : String :=
  text ++ spaces (width - text.length)

/-- Fills a text up on its left. -/
def alignRight (width : Nat) (text : String) : String :=
  spaces (width - text.length) ++ text

end Tomasulo.Text

namespace Tomasulo

/-- The narration and the dump of a frame, with a blank line at the end. -/
def Frame.text (listing : Listing) (window : Option Nat) (frame : Frame) : String :=
  String.join (frame.steps.map fun step => s!"  > {step.event.narration}\n") ++
    frame.state.dump listing window ++ "\n"

namespace History

/-- The width of the first column of the table: the length of the longest instruction in bytes. -/
def lineWidth (history : History) : Nat :=
  (history.listing.instructions.map (·.line.utf8ByteSize)).foldl max 0

/-- One row of the table. -/
def tableRow (width : Nat) (head : String) (cells : List String) : String :=
  Text.alignLeft width head ++ " " ++ String.join (cells.map (Text.alignRight 7)) ++ "\n"

/-- The table of actions, headed by the numbers of the cycles. -/
def table (history : History) : String :=
  let width := history.lineWidth
  let cycles := (List.range history.frames.length).drop 1
  let label : Option Action → String
    | none => "."
    | some action => action.label
  let rows := (history.listing.instructions.zip history.timeline).map fun entry =>
    tableRow width entry.1.line ((entry.2.drop 1).map label)
  tableRow width "" (cycles.map toString) ++ String.join rows

/-- The notice at the end of a run that was cut short. -/
def notice (history : History) : String :=
  match history.completion with
  | .finished => ""
  | .cycleLimit =>
      s!"\n[!] Stopped after {history.statistics.cycles} cycles; the program did not finish.\n"

/-- The text of a run, with or without its single cycles. -/
def text (history : History) (window : Option Nat) (quiet : Bool) : String :=
  let cycles :=
    if quiet then ""
    else String.join (history.frames.map (Frame.text history.listing window))
  cycles ++ history.table ++ "\n" ++ history.statistics.text ++ history.notice

end History

end Tomasulo
