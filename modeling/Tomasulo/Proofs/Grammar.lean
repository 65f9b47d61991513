import Mathlib.Computability.RegularExpressions
import Mathlib.Data.List.ReduceOption
import Tomasulo.Proofs.Career
import Tomasulo.Proofs.Cycle

/-!
# The grammar of timelines

A row of the timeline says what one instruction does, cycle by cycle, with pauses in between.  This module
gives the words that rows of a form of instruction may spell (`Operation.pattern`) and derives them from
careers.

* Which actions a career consists of is proved by induction on it (`Career.course`).
* Pauses may stand anywhere, so a row spells a word with pauses between its actions (`mem_spread`).  The
  exception is arithmetic, whose unit never pauses between its first and its last step (`Unbroken`).
-/

namespace Tomasulo

/-- A pattern of what an instruction does, cycle by cycle. -/
abbrev Pattern :=
  RegularExpression (Option Action)

namespace Pattern

/-- Cycles in which the instruction does nothing. -/
def pause : Pattern :=
  .star (.char none)

/-- A cycle in which it acts. -/
def mark (action : Action) : Pattern :=
  .char (some action)

/-- The steps of a load; one that takes a single step may need a second one to read its cell. -/
def accesses (delay : Nat) : Pattern :=
  if delay = 1 then mark .exec * pause + (mark .exec * pause) ^ 2 else (mark .exec * pause) ^ delay

end Pattern

open Pattern

/-- What an instruction does until it has completed, in stations of a delay. -/
def Operation.pattern (delay : Nat) : Operation → Pattern
  | .branch .. => pause * (mark .branch * pause)
  | .jump .. => pause * (mark .jump * pause)
  | .load .. => pause * (mark .issue * pause) * accesses delay * (mark .write * pause)
  | .store .. =>
      pause * (mark .issue * pause) * (mark .exec * pause) *
        (mark .write * pause) ^ max 1 (delay - 1)
  | .loadImmediate .. | .arithmetic .. | .arithmeticImmediate .. =>
      pause * (mark .issue * pause) * mark .exec ^ delay * (pause * (mark .write * pause))

/-- The actions of an instruction that has completed, in stations of a delay. -/
inductive Operation.Course (delay : Nat) (operation : Operation) (actions : List Action) : Prop
  | branched {comparison : Comparison} {lhs rhs target : String}
      (hoperation : operation = .branch comparison lhs rhs target) (hactions : actions = [.branch])
  | jumped {target : String} (hoperation : operation = .jump target) (hactions : actions = [.jump])
  | computed {op : AluOp} (hdelay : 0 < delay) (hop : operation.stationOp? = some (.alu op))
      (hactions : actions = .issue :: (List.replicate delay .exec ++ [.write]))
  | loaded {accesses : Nat} (hop : operation.stationOp? = some .load)
      (haccesses : accesses = delay ∨ delay = 1 ∧ accesses = 2)
      (hactions : actions = .issue :: (List.replicate accesses .exec ++ [.write]))
  | stored (hop : operation.stationOp? = some .store)
      (hactions : actions = .issue :: .exec :: List.replicate (max 1 (delay - 1)) .write)

/-- The actions so far of the instruction in a station of a delay. -/
inductive Slot.Behind (delay : Nat) (slot : Slot) (actions : List Action) : Prop
  | computing {op : AluOp} (hop : slot.op = .alu op)
      (hactions : actions = .issue :: List.replicate (delay - slot.step) .exec)
  | loading {accesses : Nat} (hop : slot.op = .load)
      (haccesses : accesses = delay - slot.step ∨
        delay = 1 ∧ accesses = 2 ∧ slot.result.isSome = true)
      (hactions : actions = .issue :: List.replicate accesses .exec)
  | entered (hop : slot.op = .store) (hstep : slot.step = delay) (hactions : actions = [.issue])
  | storing (hop : slot.op = .store) (hstep : slot.step < delay)
      (hshort : slot.step = 0 → delay = 1)
      (hactions : actions = .issue :: .exec :: List.replicate (delay - 1 - slot.step) .write)

/-! ## The actions of a career -/

section Courses

variable {delay : Nat} {instruction : Instruction} {slot old next : Slot} {events : List Event}
  {actions : List Action} {event : Event}

theorem Slot.Behind.of_alu (hbehind : slot.Behind delay actions) {op : AluOp}
    (hop : slot.op = .alu op) : actions = .issue :: List.replicate (delay - slot.step) .exec := by
  cases hbehind with
  | computing _ hactions => exact hactions
  | loading hload => simp [hload] at hop
  | entered hstore => simp [hstore] at hop
  | storing hstore => simp [hstore] at hop

theorem Slot.Behind.of_load (hbehind : slot.Behind delay actions) (hop : slot.op = .load) :
    ∃ accesses, (accesses = delay - slot.step ∨
        delay = 1 ∧ accesses = 2 ∧ slot.result.isSome = true) ∧
      actions = .issue :: List.replicate accesses .exec := by
  cases hbehind with
  | computing halu => simp [halu] at hop
  | loading _ haccesses hactions => exact ⟨_, haccesses, hactions⟩
  | entered hstore => simp [hstore] at hop
  | storing hstore => simp [hstore] at hop

theorem Slot.Behind.of_store (hbehind : slot.Behind delay actions) (hop : slot.op = .store) :
    slot.step = delay ∧ actions = [.issue] ∨
      slot.step < delay ∧ (slot.step = 0 → delay = 1) ∧
        actions = .issue :: .exec :: List.replicate (delay - 1 - slot.step) .write := by
  cases hbehind with
  | computing halu => simp [halu] at hop
  | loading hload => simp [hload] at hop
  | entered _ hfull hactions => exact .inl ⟨hfull, hactions⟩
  | storing _ hless hshort hactions => exact .inr ⟨hless, hshort, hactions⟩

theorem Operation.Course.of_alu {operation : Operation} (hcourse : operation.Course delay actions)
    {op : AluOp} (hop : operation.stationOp? = some (.alu op)) :
    actions = .issue :: (List.replicate delay .exec ++ [.write]) := by
  cases hcourse with
  | branched hoperation => simp [hoperation, stationOp?] at hop
  | jumped hoperation => simp [hoperation, stationOp?] at hop
  | computed _ _ hactions => exact hactions
  | loaded hload => simp [hload] at hop
  | stored hstore => simp [hstore] at hop

theorem Slot.Behind.receive (hbehind : slot.Behind delay actions) (producer : Nat) (value : Float) :
    (slot.receive producer value).Behind delay actions := by
  cases hbehind with
  | computing hop hactions => exact .computing hop hactions
  | loading hop haccesses hactions => exact .loading hop haccesses hactions
  | entered hop hstep hactions => exact .entered hop hstep hactions
  | storing hop hstep hshort hactions => exact .storing hop hstep hshort hactions

theorem Slot.behind_capture? {registers : RegisterFile} {seq : Nat}
    (hcapture : Slot.capture? registers instruction seq delay = some slot) :
    slot.Behind delay [.issue] := by
  have hstep : slot.step = delay := by
    obtain ⟨line, mnemonic, codeOrder, operation⟩ := instruction
    cases operation <;> first
      | (obtain rfl := Option.some.inj hcapture; rfl)
      | exact absurd hcapture (by simp [Slot.capture?])
  have hnone : List.replicate (delay - slot.step) Action.exec = [] := by simp [hstep]
  cases hop : slot.op with
  | alu op => exact .computing hop (by rw [hnone])
  | load => exact .loading hop (.inl rfl) (by rw [hnone])
  | store => exact .entered hop hstep rfl

/-- A load whose countdown is over has its value, unless it takes a single step. -/
theorem Slot.Fits.short_of_unread (hfits : slot.Fits instruction delay) (hop : slot.op = .load)
    (hdone : slot.step = 0) (hunread : slot.result = none) : delay = 1 := by
  obtain ⟨dest, base, offset, hoperation⟩ := hfits.exists_load hop
  have hshaped := hfits.shaped
  rw [hoperation] at hshaped
  exact hshaped.2.2.2.2 hdone hunread

theorem replicate_snoc {α : Type} (count : Nat) (entry : α) :
    List.replicate count entry ++ [entry] = List.replicate (count + 1) entry :=
  List.replicate_succ'.symm

/-- An access that has its address has begun its countdown. -/
theorem Slot.Fits.step_lt (hfits : slot.Fits instruction delay) (hmemory : slot.IsMemory)
    (hlocated : ∃ address, slot.effective? = some address) : slot.step < delay := by
  rcases hfits.symbolic_or_effective hmemory with ⟨hnone, -⟩ | ⟨-, hbegun⟩
  · obtain ⟨address, haddress⟩ := hlocated
    exact absurd (hnone.symm.trans haddress) (by simp)
  · exact hbegun

/-- An access that has no address yet has not begun its countdown. -/
theorem Slot.Fits.step_eq (hfits : slot.Fits instruction delay) (hmemory : slot.IsMemory)
    (hpending : slot.effective? = none) : slot.step = delay := by
  rcases hfits.symbolic_or_effective hmemory with ⟨-, hdue, -⟩ | ⟨⟨_, haddress⟩, -⟩
  · exact hdue
  · exact absurd (hpending.symm.trans haddress) (by simp)

/-- A step of work adds its action. -/
theorem Slot.Behind.advance (hbehind : old.Behind delay actions) (hdelay : 0 < delay)
    (hfits : old.Fits instruction delay) (hadvances : old.Advances next event) :
    next.Behind delay (actions ++ [event.action]) := by
  have hop := hadvances.op
  have hstep := hadvances.step
  have hworks := hadvances.works
  have hle := hfits.step_le
  generalize event.action = action at hworks
  cases hworks with
  | compute hold hpositive =>
      refine .computing (hop.trans hold) ?_
      rw [hbehind.of_alu hold, List.cons_append, replicate_snoc, hstep]
      congr 2
      omega
  | locate hmemory hpending =>
      have hfull := hfits.step_eq hmemory hpending
      rcases hmemory with hload | hstore
      · obtain ⟨accesses, rfl | ⟨-, -, hresult⟩, hactions⟩ := hbehind.of_load hload
        · refine .loading (hop.trans hload) (.inl rfl) ?_
          rw [hactions, List.cons_append, replicate_snoc, hstep]
          congr 2
          omega
        · have hdone := hfits.result_of_load hload hresult
          omega
      · rcases hbehind.of_store hstore with ⟨-, hactions⟩ | ⟨hless, -⟩
        · refine .storing (hop.trans hstore) (by omega) (by omega) ?_
          rw [hactions, hstep, hfull, Nat.sub_self]
          rfl
        · omega
  | load hold hlocated hunread _ hread =>
      have hless := hfits.step_lt (.inl hold) hlocated
      obtain ⟨accesses, haccesses, hactions⟩ := hbehind.of_load hold
      rw [hactions, List.cons_append, replicate_snoc]
      rcases haccesses with rfl | ⟨-, -, hresult⟩
      · rcases Nat.eq_zero_or_pos old.step with hdone | hpositive
        · -- The single step is over, and the cell is read in a second one.
          have hshort := hfits.short_of_unread hold hdone hunread
          exact .loading (hop.trans hold) (.inr ⟨hshort, by omega, hread (by omega)⟩) rfl
        · exact .loading (hop.trans hold) (.inl (by omega)) rfl
      · simp [hunread] at hresult
  | store hold hlocated _ hmore =>
      have hless := hfits.step_lt (.inr hold) hlocated
      rcases hbehind.of_store hold with ⟨hfull, -⟩ | ⟨-, -, hactions⟩
      · omega
      · refine .storing (hop.trans hold) (by omega) (by omega) ?_
        rw [hactions, List.cons_append, List.cons_append, replicate_snoc, hstep]
        congr 3
        omega

/-- The last step completes the course. -/
theorem Slot.Behind.leave (hbehind : old.Behind delay actions) (hdelay : 0 < delay)
    (hfits : old.Fits instruction delay) (hleaves : old.Leaves event) :
    instruction.operation.Course delay (actions ++ [event.action]) := by
  have hstationOp {op : StationOp} (hop : old.op = op) : instruction.operation.stationOp? = some op :=
    hfits.stationOp?_eq.trans (congrArg some hop)
  cases hleaves with
  | publish hstore hdone hresult =>
      cases hop : old.op with
      | alu op =>
          refine .computed hdelay (hstationOp hop) ?_
          rw [hbehind.of_alu hop, hdone]
          rfl
      | load =>
          obtain ⟨accesses, haccesses, hactions⟩ := hbehind.of_load hop
          refine .loaded (hstationOp hop) ?_ (congrArg (· ++ [_]) hactions)
          rcases haccesses with haccesses | ⟨hshort, htwo, -⟩
          · exact .inl (by omega)
          · exact .inr ⟨hshort, htwo⟩
      | store => exact absurd hop hstore
  | store hop hlocated hlast =>
      have hless := hfits.step_lt (.inr hop) hlocated
      rcases hbehind.of_store hop with ⟨hfull, -⟩ | ⟨-, hshort, hactions⟩
      · omega
      · refine .stored (hstationOp hop) ?_
        rw [hactions, List.cons_append, List.cons_append]
        congr 2
        refine (replicate_snoc ..).trans (congrArg (List.replicate · _) ?_)
        omega

/-- The actions of a career, by what is left in the station. -/
theorem Career.course {slot? : Option Slot} (hcareer : Career delay instruction slot? events) :
    match slot? with
    | some slot => 0 < delay ∧ slot.Behind delay (events.map Event.action)
    | none => instruction.operation.Course delay (events.map Event.action) := by
  induction hcareer with
  | entered hdelay hcapture => exact ⟨hdelay, Slot.behind_capture? hcapture⟩
  | steered hsteers =>
      cases hsteers with
      | branched hoperation => exact .branched hoperation rfl
      | jumped hoperation => exact .jumped hoperation rfl
  | received _ producer value ih => exact ⟨ih.1, ih.2.receive producer value⟩
  | advanced _ hfits hadvances ih =>
      rw [List.map_append]
      exact ⟨ih.1, ih.2.advance ih.1 hfits hadvances⟩
  | left _ hfits hleaves ih =>
      rw [List.map_append]
      exact ih.2.leave ih.1 hfits hleaves

end Courses

/-! ## Words -/

section Words

variable {delay : Nat} {row : List (Option Action)} {actions : List Action}

theorem nil_mem_pause : [] ∈ pause.matches' :=
  Language.nil_mem_kstar _

/-- Pauses may stand in front of, between and behind the actions of a row. -/
theorem mem_spread (row : List (Option Action)) :
    row ∈ pause.matches' * (row.reduceOption.map fun action => (mark action * pause).matches').prod := by
  induction row with
  | nil => exact ⟨[], nil_mem_pause, [], rfl, rfl⟩
  | cons first rest ih =>
      cases first with
      | none =>
          obtain ⟨pauses, hpauses, later, hlater, hrest⟩ := ih
          have hmore : none :: pauses ∈ pause.matches' :=
            mul_kstar_le_kstar (a := ({[none]} : Language (Option Action))) ⟨[none], rfl, pauses, hpauses, rfl⟩
          exact ⟨none :: pauses, hmore, later, hlater, congrArg (none :: ·) hrest⟩
      | some action =>
          rw [List.reduceOption_cons_of_some, List.map_cons, List.prod_cons]
          refine ⟨[], nil_mem_pause, some action :: rest, ?_, rfl⟩
          rw [RegularExpression.matches'_mul, mul_assoc]
          exact ⟨[some action], rfl, rest, ih, rfl⟩

/-- Whether the unit never pauses between its first step and its last. -/
def Unbroken (delay : Nat) (row : List (Option Action)) : Prop :=
  ∀ before entry later, row = before ++ entry :: later → 0 < before.reduceOption.count .exec →
    before.reduceOption.count .exec < delay → entry = some .exec

theorem unbroken_nil : Unbroken delay [] := by
  intro before entry later hrow
  simp at hrow

theorem unbroken_snoc {entry : Option Action} (hunbroken : Unbroken delay row)
    (hentry : 0 < row.reduceOption.count .exec → row.reduceOption.count .exec < delay →
      entry = some .exec) : Unbroken delay (row ++ [entry]) := by
  intro before other later hrow hpositive hless
  rcases List.eq_nil_or_concat later with rfl | ⟨rest, last, rfl⟩
  · obtain ⟨rfl, hsame⟩ := List.append_inj' hrow rfl
    obtain rfl : entry = other := by simpa using hsame
    exact hentry hpositive hless
  · refine hunbroken before other rest ?_ hpositive hless
    rw [List.concat_eq_append, ← List.cons_append, ← List.append_assoc] at hrow
    exact (List.append_inj' hrow rfl).1

theorem unbroken_replicate (hunbroken : Unbroken delay row) (count : Nat) :
    Unbroken delay (row ++ List.replicate count (some .exec)) := by
  induction count with
  | zero => simpa using hunbroken
  | succ count ih =>
      rw [← replicate_snoc, ← List.append_assoc]
      exact unbroken_snoc ih fun _ _ => rfl

/-- After its first step the unit takes all others at once. -/
theorem Unbroken.steps {before later : List (Option Action)} {left : Nat}
    (hunbroken : Unbroken delay (before ++ later))
    (hpositive : 0 < before.reduceOption.count .exec)
    (hcount : before.reduceOption.count .exec + left = delay)
    (hlater : later.reduceOption = List.replicate left .exec ++ actions) :
    ∃ rest, later = List.replicate left (some .exec) ++ rest ∧ rest.reduceOption = actions := by
  induction left generalizing before later with
  | zero => exact ⟨later, rfl, hlater⟩
  | succ left ih =>
      cases later with
      | nil => simp [List.replicate_succ, List.reduceOption] at hlater
      | cons entry later =>
          obtain rfl := hunbroken before entry later rfl hpositive (by omega)
          rw [List.reduceOption_cons_of_some, List.replicate_succ, List.cons_append,
            List.cons.injEq] at hlater
          have hmore : (before ++ [some Action.exec]).reduceOption.count .exec =
              before.reduceOption.count .exec + 1 := by
            simp [List.reduceOption_append]
          have hthen : Unbroken delay ((before ++ [some Action.exec]) ++ later) := by simpa using hunbroken
          obtain ⟨rest, rfl, hrest⟩ := ih hthen (by omega) (by omega) hlater.2
          exact ⟨rest, rfl, hrest⟩

theorem reduceOption_map_some {α : Type} (entries : List α) :
    (entries.map some).reduceOption = entries := by
  simp [List.reduceOption]

/-- A row splits at any of its actions. -/
theorem exists_split {before later : List Action} {action : Action}
    (hactions : row.reduceOption = before ++ action :: later) :
    ∃ front back, row = front ++ some action :: back ∧ front.reduceOption = before ∧
      back.reduceOption = later := by
  rw [← List.singleton_append, ← List.append_assoc] at hactions
  obtain ⟨upTo, behind, rfl, hupTo, hbehind⟩ := (List.reduceOption_eq_append_iff ..).mp hactions
  rw [← List.concat_eq_append] at hupTo
  obtain ⟨front, pauses, rfl, hfront, hpauses⟩ := (List.reduceOption_eq_concat_iff ..).mp hupTo
  exact ⟨front, pauses ++ behind, by simp, hfront, by simp [List.reduceOption_append, hpauses, hbehind]⟩

theorem mem_spread_singleton {action : Action} (hactions : row.reduceOption = [action]) :
    row ∈ (pause * (mark action * pause)).matches' := by
  simpa [hactions] using mem_spread row

theorem replicate_mem_mark (action : Action) (count : Nat) :
    List.replicate count (some action) ∈ (mark action ^ count).matches' := by
  rw [RegularExpression.matches'_pow]
  induction count with
  | zero => rfl
  | succ count ih =>
      rw [pow_succ']
      exact ⟨[some action], rfl, _, ih, rfl⟩

theorem mem_accesses {accesses : Nat} (hcount : accesses = delay ∨ delay = 1 ∧ accesses = 2)
    (hrow : row ∈ (mark .exec * pause).matches' ^ accesses) :
    row ∈ (Pattern.accesses delay).matches' := by
  rw [← RegularExpression.matches'_pow] at hrow
  unfold Pattern.accesses
  rcases hcount with rfl | ⟨rfl, rfl⟩
  · split
    case isTrue hshort =>
      subst hshort
      rw [RegularExpression.matches'_pow, pow_one] at hrow
      exact .inl hrow
    case isFalse => exact hrow
  · rw [if_pos rfl]
    exact .inr hrow

/-- Arithmetic that took its steps at once spells its pattern. -/
theorem Unbroken.mem_computing (hunbroken : Unbroken delay row) (hdelay : 0 < delay)
    (hactions : row.reduceOption = .issue :: (List.replicate delay .exec ++ [.write])) :
    row ∈ (pause * (mark .issue * pause) * mark .exec ^ delay *
      (pause * (mark .write * pause))).matches' := by
  obtain ⟨left, rfl⟩ := Nat.exists_eq_succ_of_ne_zero hdelay.ne'
  have hfirst : row.reduceOption =
      [.issue] ++ Action.exec :: (List.replicate left .exec ++ [.write]) := by
    rw [hactions, List.replicate_succ]
    rfl
  obtain ⟨front, back, rfl, hfront, hback⟩ := exists_split hfirst
  have hcount : (front ++ [some Action.exec]).reduceOption.count .exec = 1 := by
    rw [List.reduceOption_append, hfront]
    rfl
  rw [List.append_cons] at hunbroken
  obtain ⟨rest, rfl, hrest⟩ := hunbroken.steps (by omega) (by omega) hback
  have hword : front ++ some Action.exec :: (List.replicate left (some .exec) ++ rest) =
      front ++ List.replicate (left + 1) (some .exec) ++ rest := by
    simp [List.replicate_succ]
  rw [hword]
  exact ⟨_, ⟨front, mem_spread_singleton hfront, _, replicate_mem_mark .exec (left + 1), rfl⟩, rest,
    mem_spread_singleton hrest, rfl⟩

theorem Operation.pattern_of_alu {operation : Operation} {op : AluOp}
    (hop : operation.stationOp? = some (.alu op)) : operation.pattern delay =
      pause * (mark .issue * pause) * mark .exec ^ delay * (pause * (mark .write * pause)) := by
  cases operation <;> first
    | rfl
    | exact absurd hop (by simp [stationOp?])

theorem Operation.pattern_of_load {operation : Operation}
    (hop : operation.stationOp? = some .load) : operation.pattern delay =
      pause * (mark .issue * pause) * accesses delay * (mark .write * pause) := by
  cases operation <;> first
    | rfl
    | exact absurd hop (by simp [stationOp?])

theorem Operation.pattern_of_store {operation : Operation}
    (hop : operation.stationOp? = some .store) : operation.pattern delay =
      pause * (mark .issue * pause) * (mark .exec * pause) *
        (mark .write * pause) ^ max 1 (delay - 1) := by
  cases operation <;> first
    | rfl
    | exact absurd hop (by simp [stationOp?])

/-- A row whose actions are complete spells a word of the pattern. -/
theorem Operation.Course.mem_pattern {operation : Operation}
    (hcourse : operation.Course delay row.reduceOption)
    (hunbroken : ∀ op, operation.stationOp? = some (.alu op) → Unbroken delay row) :
    row ∈ (operation.pattern delay).matches' := by
  have hspread := mem_spread row
  cases hcourse with
  | branched hoperation hactions =>
      rw [hoperation]
      exact mem_spread_singleton hactions
  | jumped hoperation hactions =>
      rw [hoperation]
      exact mem_spread_singleton hactions
  | @computed op hdelay hop hactions =>
      rw [Operation.pattern_of_alu hop]
      exact (hunbroken op hop).mem_computing hdelay hactions
  | loaded hop haccesses hactions =>
      rw [Operation.pattern_of_load hop]
      simp only [hactions, List.map_cons, List.map_append, List.map_replicate, List.map_nil,
        List.prod_cons, List.prod_append, List.prod_replicate, List.prod_nil, mul_one,
        ← mul_assoc] at hspread
      obtain ⟨_, ⟨start, hstart, middle, hmiddle, rfl⟩, back, hback, hsplit⟩ := hspread
      exact ⟨_, ⟨start, hstart, middle, mem_accesses haccesses hmiddle, rfl⟩, back, hback, hsplit⟩
  | stored hop hactions =>
      rw [Operation.pattern_of_store hop]
      simpa [hactions, mul_assoc] using hspread

/-- The actions of an instruction in a station can be completed to a word of the pattern. -/
theorem Slot.Behind.exists_word {instruction : Instruction} {slot : Slot}
    (hbehind : slot.Behind delay row.reduceOption) (hdelay : 0 < delay)
    (hfits : slot.Fits instruction delay)
    (hunbroken : ∀ op, slot.op = .alu op → Unbroken delay row) :
    ∃ word ∈ (instruction.operation.pattern delay).matches', row <+: word := by
  have hstationOp := hfits.stationOp?_eq
  have hle := hfits.step_le
  suffices hmissing : ∃ missing : List Action,
      instruction.operation.Course delay (row.reduceOption ++ missing) ∧
        ∀ op, slot.op = .alu op → Unbroken delay (row ++ missing.map some) by
    obtain ⟨missing, hcourse, hmore⟩ := hmissing
    refine ⟨row ++ missing.map some, Operation.Course.mem_pattern ?_ fun op hop => ?_,
      List.prefix_append ..⟩
    · rwa [List.reduceOption_append, reduceOption_map_some]
    · exact hmore op (Option.some.inj (hstationOp.symm.trans hop))
  have hother (hne : ∀ op, slot.op ≠ .alu op) (missing : List Action) (op : AluOp)
      (halu : slot.op = .alu op) : Unbroken delay (row ++ missing.map some) := absurd halu (hne op)
  cases hbehind with
  | computing hop hactions =>
      refine ⟨List.replicate slot.step .exec ++ [.write], ?_, fun op halu => ?_⟩
      · refine .computed hdelay (hstationOp.trans (congrArg some hop)) ?_
        rw [hactions, List.cons_append, ← List.append_assoc, List.replicate_append_replicate,
          Nat.sub_add_cancel hle]
      · -- With all steps taken, the row may also end with its publication.
        have hsteps := unbroken_replicate (hunbroken op halu) slot.step
        rw [List.map_append, List.map_replicate, ← List.append_assoc]
        refine unbroken_snoc hsteps fun _ hless => absurd hless ?_
        rw [List.reduceOption_append, hactions, ← List.map_replicate, reduceOption_map_some,
          List.count_append, List.count_cons_of_ne (by decide), List.count_replicate_self,
          List.count_replicate_self]
        omega
  | @loading accesses hop haccesses hactions =>
      refine ⟨List.replicate (delay - accesses) .exec ++ [.write], ?_,
        hother (fun op halu => by simp [hop] at halu) _⟩
      have hall : accesses + (delay - accesses) = delay ∨
          delay = 1 ∧ accesses + (delay - accesses) = 2 := by
        rcases haccesses with rfl | ⟨rfl, rfl, -⟩
        · exact .inl (by omega)
        · exact .inr ⟨rfl, rfl⟩
      refine .loaded (hstationOp.trans (congrArg some hop)) hall ?_
      rw [hactions, List.cons_append, ← List.append_assoc, List.replicate_append_replicate]
  | entered hop hfull hactions =>
      refine ⟨.exec :: List.replicate (max 1 (delay - 1)) .write, ?_,
        hother (fun op halu => by simp [hop] at halu) _⟩
      exact .stored (hstationOp.trans (congrArg some hop)) (by rw [hactions]; rfl)
  | storing hop hless hshort hactions =>
      refine ⟨List.replicate (max 1 (delay - 1) - (delay - 1 - slot.step)) .write, ?_,
        hother (fun op halu => by simp [hop] at halu) _⟩
      refine .stored (hstationOp.trans (congrArg some hop)) ?_
      rw [hactions, List.cons_append, List.cons_append, List.replicate_append_replicate]
      congr 3
      omega

end Words

end Tomasulo
