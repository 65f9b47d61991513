import Tomasulo.Listing.Document
import Tomasulo.Run.History

/-!
# Histories as JSON

The object of a history holds the listing, the states and the narrated steps side by side, the
counters and how the run ended.  Values that come in several kinds are objects whose member `state`
names the kind.
-/

namespace Tomasulo

/-- An object that names its kind first. -/
def kindDocument (kind : String) (fields : List (String × Json)) : Json :=
  .ofFields (("state", .ofString kind) :: fields)

/-- The object of a register. -/
def Register.document : Register → Json
  | .empty => kindDocument "empty" []
  | .ready value => kindDocument "ready" [("value", .ofFloat value)]
  | .pending station => kindDocument "pending" [("value", .ofNat station)]

/-- The object of an operand. -/
def Operand.document : Operand → Json
  | .empty => kindDocument "empty" []
  | .ready value => kindDocument "ready" [("value", .ofFloat value)]
  | .waiting station => kindDocument "waiting" [("value", .ofNat station)]

/-- The object of an address. -/
def Address.document : Address → Json
  | .symbolic base offset =>
      kindDocument "offset" [("base", .ofString base), ("offset", .ofInt offset)]
  | .effective address base baseValue offset =>
      kindDocument "effective"
        [("addr", .ofInt address), ("base", .ofString base), ("base_value", .ofFloat baseValue),
          ("offset", .ofInt offset)]

/-- The operation of a station: a word, or an object for arithmetic. -/
def StationOp.document : StationOp → Json
  | .alu op => .ofFields [("alu", .ofString op.label)]
  | .load => .ofString "load"
  | .store => .ofString "store"

/-- The name of a station class in documents. -/
def StationClass.document : StationClass → Json
  | .loadStore => .ofString "load_store"
  | .add => .ofString "add"
  | .mul => .ofString "mul"

/-- The object of a slot. -/
def Slot.document (slot : Slot) : Json :=
  .ofFields
    [("mnemonic", .ofString slot.mnemonic), ("code_order", .ofNat slot.codeOrder),
      ("seq", .ofNat slot.seq), ("op", slot.op.document), ("j", slot.j.document),
      ("k", slot.k.document), ("address", .ofOption Address.document slot.address),
      ("step", .ofNat slot.step), ("result", .ofOption Json.ofFloat slot.result)]

/-- The object of a station. -/
def Station.document (station : Station) : Json :=
  .ofFields
    [("name", .ofString station.name), ("class", station.stationClass.document),
      ("delay", .ofNat station.delay), ("fu_busy", .bool station.working),
      ("slot", .ofOption Slot.document station.slot)]

/-- The object of a lookahead. -/
def Lookahead.document (ahead : Lookahead) : Json :=
  .ofFields [("visible", .ofList .ofNat ahead.visible), ("remaining", .ofList .ofNat ahead.remaining)]

/-- The members of the object of a cursor. -/
def Cursor.fields (listing : Listing) (window : Option Nat) (cursor : Cursor) :
    List (String × Json) :=
  let sectionName := (listing.sections[cursor.sectionIndex]?).map Section.name
  [("section", .ofOption Json.ofString sectionName),
    ("next", .ofOption Json.ofNat (cursor.current? listing)),
    ("fetched", .ofNat cursor.fetched),
    ("execution_order", .ofList .ofNat cursor.executionOrder),
    ("queue", (cursor.lookahead listing window).document)]

/-- The object of a state. -/
def State.document (listing : Listing) (window : Option Nat) (state : State) : Json :=
  .ofFields
    [("cycle", .ofNat state.cycle),
      ("program", .ofFields (state.cursor.fields listing window)),
      ("registers",
        .ofFields (state.registers.entries.map fun entry => (entry.1, entry.2.document))),
      ("stations", .ofList Station.document state.stations),
      ("memory",
        .ofFields (state.memory.entries.map fun entry =>
          (toString entry.1, .ofOption Json.ofFloat entry.2))),
      ("actions", .ofList (.ofOption fun action => .ofString action.label) state.actions)]

/-- The object of a step. -/
def Step.document (listing : Listing) (window : Option Nat) (step : Step) : Json :=
  .ofFields
    [("narration", .ofString step.event.narration), ("state", step.state.document listing window)]

/-- The name of a way to end in documents. -/
def Completion.label : Completion → String
  | .finished => "finished"
  | .cycleLimit => "cycle_limit"

/-- The document of a history. -/
def History.document (history : History) (window : Option Nat) : Json :=
  let listing := history.listing
  .ofFields
    [("listing", listing.document),
      ("states", .ofList (·.document listing window) history.states),
      ("traces",
        .ofList (fun frame => .ofList (·.document listing window) frame.steps) history.frames),
      ("stats", history.statistics.document),
      ("completion", .ofString history.completion.label)]

end Tomasulo
