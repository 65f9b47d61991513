import Tomasulo.Json.Escape
import Tomasulo.Machine.Cycle

/-!
# Statistics

Counters over the cycles of a run that made progress.
-/

namespace Tomasulo

/-- What a cycle adds to the counters. -/
structure Tally where
  issued : Bool
  stalled : Bool
  broadcast : Bool
  storesCommitted : Nat
  control : Option Control

/-- What a report adds to the counters. -/
def Report.tally (report : Report) : Tally :=
  { issued := report.issued
    stalled := report.stalled
    broadcast := report.broadcast
    storesCommitted := report.storesCommitted
    control := report.control? }

/-- Counters of a run. -/
structure Statistics where
  cycles : Nat := 0
  /-- Instructions that entered a station. -/
  issued : Nat := 0
  /-- Cycles in which the next instruction had to wait. -/
  stalls : Nat := 0
  /-- Results published. -/
  broadcasts : Nat := 0
  /-- Stores that wrote memory. -/
  storeCommits : Nat := 0
  branchesTaken : Nat := 0
  branchesNotTaken : Nat := 0
  jumps : Nat := 0
  /-- Whether the run was cut short. -/
  truncated : Bool := false
deriving DecidableEq

namespace Statistics

/-- Adds a cycle. -/
def record (statistics : Statistics) (tally : Tally) : Statistics :=
  { statistics with
    cycles := statistics.cycles + 1
    issued := statistics.issued + tally.issued.toNat
    stalls := statistics.stalls + tally.stalled.toNat
    broadcasts := statistics.broadcasts + tally.broadcast.toNat
    storeCommits := statistics.storeCommits + tally.storesCommitted
    branchesTaken := statistics.branchesTaken + (tally.control == some .taken).toNat
    branchesNotTaken := statistics.branchesNotTaken + (tally.control == some .notTaken).toNat
    jumps := statistics.jumps + (tally.control == some .jump).toNat }

/-- Instructions per cycle. -/
def perCycle (statistics : Statistics) : Float :=
  if statistics.cycles = 0 then 0
  else Float.ofNat statistics.issued / Float.ofNat statistics.cycles

/-- Stalled cycles in percent of all. -/
def stallPercentage (statistics : Statistics) : Float :=
  Float.ofNat statistics.stalls / Float.ofNat (max statistics.cycles 1) * 100

/-- The lines of a report. -/
def lines (statistics : Statistics) : List String :=
  let double := String.ofList (List.replicate 58 '=')
  let single := String.ofList (List.replicate 58 '-')
  let perCycle := Decimal.fixed 4 statistics.perCycle
  let percentage := Decimal.fixed 2 statistics.stallPercentage
  [double,
    "TOMASULO SIMULATION STATISTICS",
    double,
    s!"sim_cycles               {statistics.cycles}",
    s!"sim_issued               {statistics.issued}",
    s!"sim_ipc                  {perCycle}",
    s!"sim_truncated            {statistics.truncated}",
    single,
    s!"  stalls.issue           {statistics.stalls} ({percentage}%)",
    s!"  cdb.broadcasts         {statistics.broadcasts}",
    s!"  mem.store_commits      {statistics.storeCommits}",
    s!"  branch.taken           {statistics.branchesTaken}",
    s!"  branch.not_taken       {statistics.branchesNotTaken}",
    s!"  jumps                  {statistics.jumps}",
    double]

/-- The text of a report, without a line break at its end. -/
def text (statistics : Statistics) : String :=
  "\n".intercalate statistics.lines

/-- The object of the counters. -/
def document (statistics : Statistics) : Json :=
  .ofFields
    [("cycles", .ofNat statistics.cycles), ("issued", .ofNat statistics.issued),
      ("stalls", .ofNat statistics.stalls), ("broadcasts", .ofNat statistics.broadcasts),
      ("store_commits", .ofNat statistics.storeCommits),
      ("branches_taken", .ofNat statistics.branchesTaken),
      ("branches_not_taken", .ofNat statistics.branchesNotTaken),
      ("jumps", .ofNat statistics.jumps), ("truncated", .bool statistics.truncated)]

end Statistics

end Tomasulo
