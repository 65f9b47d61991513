import Mathlib.Data.List.TakeWhile
import Mathlib.Tactic
import Tomasulo.Proofs.Checked

/-!
# Which configurations are sound

A configuration can run if it allows a cycle, has a station, and every class in use takes time
(`Configuration.Runnable`).  `Configuration.Judged` says of a refusal that it is given exactly when it is
deserved; of the classes that take no time the first one is to be named.

The stations are counted within a word, and three counts can leave it.  `Checked.survey` is the visit to the
classes with an addition that faults.  Without faults the sum is only looked at behind the last class, so it is
a multiple of `2 ^ 64` that is taken for the lack of stations, and nothing else (`Configuration.Wraps`).

Main statement: `error?_judged_iff`.
-/

namespace Tomasulo

/-! ## Judgements -/

/-- Stations that exist and take no time. -/
def Bank.Idle (bank : Bank) : Prop :=
  0 < bank.count ∧ bank.delay = 0

instance (bank : Bank) : Decidable bank.Idle :=
  inferInstanceAs (Decidable (_ ∧ _))

/-- A class is the first one in pool order whose stations exist and take no time. -/
def Banks.FirstIdle (banks : Banks) (stationClass : StationClass) : Prop :=
  ∃ before bank after, banks.classes = before ++ (stationClass, bank) :: after ∧ bank.Idle ∧
    ∀ entry ∈ before, ¬ entry.2.Idle

/-- No stations that exist take no time. -/
def Banks.Timed (banks : Banks) : Prop :=
  ∀ entry ∈ banks.classes, ¬ entry.2.Idle

/-- The number of stations of the classes in a list. -/
def stationCount (classes : List (StationClass × Bank)) : Nat :=
  (classes.map fun entry => entry.2.count).sum

namespace Configuration

/-- The numbers of a configuration fit into their words. -/
structure Words (configuration : Configuration) : Prop where
  maxCycles : configuration.maxCycles < Word.limit
  queueWindow : ∀ window ∈ configuration.queueWindow, window < Word.limit
  count : ∀ entry ∈ configuration.stations.classes, entry.2.count < Word.limit
  delay : ∀ entry ∈ configuration.stations.classes, entry.2.delay < Word.halfLimit

/-- A run has at least one cycle and one station, and every class in use takes time. -/
structure Runnable (configuration : Configuration) : Prop where
  cycle : 1 ≤ configuration.maxCycles
  time : ∀ entry ∈ configuration.stations.classes, 0 < entry.2.count → 1 ≤ entry.2.delay
  station : ∃ entry ∈ configuration.stations.classes, 0 < entry.2.count

/-- A refusal, or its absence, is what a configuration deserves. -/
structure Judged (configuration : Configuration) (refusal : Option ConfigurationError) : Prop where
  accepted : refusal = none ↔ configuration.Runnable
  zeroCycles : refusal = some .zeroCycles ↔ configuration.maxCycles = 0
  /-- A class is named only if the run has a cycle, and then it is the first one. -/
  zeroDelay : ∀ stationClass, refusal = some (.zeroDelay stationClass) ↔
    configuration.maxCycles ≠ 0 ∧ configuration.stations.FirstIdle stationClass
  /-- The lack of stations is reported last. -/
  noStations : refusal = some .noStations ↔
    configuration.maxCycles ≠ 0 ∧ configuration.stations.Timed ∧
      ∀ entry ∈ configuration.stations.classes, entry.2.count = 0

/-- Nothing else is wrong, there are stations, and counting them within a word comes to zero. -/
structure Wraps (configuration : Configuration) : Prop where
  cycle : configuration.maxCycles ≠ 0
  time : configuration.stations.Timed
  station : 0 < stationCount configuration.stations.classes
  multiple : Word.limit ∣ stationCount configuration.stations.classes

/-- The classes that are counted: those before the first one that takes no time. -/
def counted (configuration : Configuration) : List (StationClass × Bank) :=
  configuration.stations.classes.takeWhile fun entry => ¬ entry.2.Idle

end Configuration

namespace Checked

/-- Adds within a word. -/
def add (m n : Nat) : Except Fault Nat :=
  if m + n < Word.limit then .ok (m + n) else .error .counter

/-- Visits the classes in pool order and counts their stations, up to a class that takes no time. -/
def survey (total : Nat) : List (StationClass × Bank) → Except Fault (Option ConfigurationError)
  | [] => return if total = 0 then some .noStations else none
  | (stationClass, bank) :: rest =>
      if bank.Idle then return some (.zeroDelay stationClass)
      else do
        let total ← add total bank.count
        survey total rest

/-- Why a configuration cannot run a cycle, if it cannot; with additions that fault. -/
def error? (configuration : Configuration) : Except Fault (Option ConfigurationError) :=
  if configuration.maxCycles = 0 then return some .zeroCycles
  else survey 0 configuration.stations.classes

end Checked

/-! ## What is reported -/

theorem Bank.decide_idle (bank : Bank) :
    decide bank.Idle = (decide (0 < bank.count) && bank.delay == 0) := by
  rw [Bool.eq_iff_iff, decide_eq_true_iff]
  simp [Idle]

section Counting

variable {banks : Banks} {entry : StationClass × Bank} {classes : List (StationClass × Bank)}

@[simp]
theorem stationCount_nil : stationCount [] = 0 :=
  rfl

@[simp]
theorem stationCount_cons :
    stationCount (entry :: classes) = entry.2.count + stationCount classes := by
  simp [stationCount]

theorem stationCount_eq_zero_iff : stationCount classes = 0 ↔ ∀ entry ∈ classes, entry.2.count = 0 := by
  induction classes with
  | nil => simp
  | cons entry classes ih => simp [ih]

theorem Banks.total_eq : banks.total = stationCount banks.classes % Word.limit := by
  simp only [total, classes, stationCount_cons, stationCount_nil, Nat.add_zero, Nat.add_assoc]

end Counting

namespace Configuration

variable {configuration : Configuration} {stationClass : StationClass}

theorem idleClass?_eq_some_iff :
    configuration.idleClass? = some stationClass ↔ configuration.stations.FirstIdle stationClass := by
  simp only [idleClass?, Option.map_eq_some_iff, List.find?_eq_some_iff_append, Banks.FirstIdle, Bank.Idle,
    Bool.and_eq_true, Bool.not_eq_true', ← Bool.not_eq_true, decide_eq_true_eq, beq_iff_eq]
  constructor
  · rintro ⟨⟨_, bank⟩, ⟨hidle, before, after, hclasses, hbefore⟩, rfl⟩
    exact ⟨before, bank, after, hclasses, hidle, hbefore⟩
  · rintro ⟨before, bank, after, hclasses, hidle, hbefore⟩
    exact ⟨(stationClass, bank), ⟨hidle, before, after, hclasses, hbefore⟩, rfl⟩

theorem idleClass?_eq_none_iff : configuration.idleClass? = none ↔ configuration.stations.Timed := by
  simp [idleClass?, Banks.Timed, Bank.Idle]

theorem timed_iff_forall_not_firstIdle :
    configuration.stations.Timed ↔ ∀ stationClass, ¬ configuration.stations.FirstIdle stationClass := by
  simp only [← idleClass?_eq_none_iff, ← idleClass?_eq_some_iff, Option.eq_none_iff_forall_ne_some, ne_eq]

theorem counted_of_timed (htimed : configuration.stations.Timed) :
    configuration.counted = configuration.stations.classes :=
  List.takeWhile_eq_self_iff.mpr fun entry hmember => by simpa using htimed entry hmember

theorem error?_of_maxCycles_eq_zero (hzero : configuration.maxCycles = 0) :
    configuration.error? = some .zeroCycles := by
  rw [error?, if_pos hzero]

theorem error?_of_firstIdle (hcycles : configuration.maxCycles ≠ 0)
    (hfirst : configuration.stations.FirstIdle stationClass) :
    configuration.error? = some (.zeroDelay stationClass) := by
  rw [error?, if_neg hcycles, idleClass?_eq_some_iff.mpr hfirst]

theorem error?_of_timed (hcycles : configuration.maxCycles ≠ 0) (htimed : configuration.stations.Timed) :
    configuration.error? =
      if stationCount configuration.stations.classes % Word.limit = 0 then some .noStations else none := by
  rw [error?, if_neg hcycles, idleClass?_eq_none_iff.mpr htimed, Banks.total_eq]

/-! ## When it is deserved -/

theorem runnable_iff : configuration.Runnable ↔
    configuration.maxCycles ≠ 0 ∧ configuration.stations.Timed ∧
      stationCount configuration.stations.classes ≠ 0 := by
  have htimed : configuration.stations.Timed ↔
      ∀ entry ∈ configuration.stations.classes, 0 < entry.2.count → 1 ≤ entry.2.delay := by
    simp only [Banks.Timed, Bank.Idle, not_and, Nat.one_le_iff_ne_zero]
  have hstation : stationCount configuration.stations.classes ≠ 0 ↔
      ∃ entry ∈ configuration.stations.classes, 0 < entry.2.count := by
    simp only [Ne, stationCount_eq_zero_iff, not_forall, exists_prop, Nat.pos_iff_ne_zero]
  rw [htimed, hstation, ← Nat.one_le_iff_ne_zero]
  exact ⟨fun ⟨hcycle, htime, hsome⟩ => ⟨hcycle, htime, hsome⟩,
    fun ⟨hcycle, htime, hsome⟩ => ⟨hcycle, htime, hsome⟩⟩

theorem judged_of_maxCycles_eq_zero (hzero : configuration.maxCycles = 0) :
    configuration.Judged (some .zeroCycles) where
  accepted := by simp [runnable_iff, hzero]
  zeroCycles := by simp [hzero]
  zeroDelay := by simp [hzero]
  noStations := by simp [hzero]

theorem judged_of_firstIdle (hcycles : configuration.maxCycles ≠ 0)
    (hfirst : configuration.stations.FirstIdle stationClass) :
    configuration.Judged (some (.zeroDelay stationClass)) := by
  have htimed : ¬ configuration.stations.Timed := fun htimed =>
    timed_iff_forall_not_firstIdle.mp htimed _ hfirst
  -- Two first classes are the same one, as the search finds only one.
  have hunique (other : StationClass) :
      configuration.stations.FirstIdle other ↔ stationClass = other := by
    rw [← idleClass?_eq_some_iff, idleClass?_eq_some_iff.mpr hfirst, Option.some_inj]
  exact ⟨by simp [runnable_iff, htimed], by simpa using hcycles, by simp [hcycles, hunique],
    by simp [htimed]⟩

theorem judged_of_timed (hcycles : configuration.maxCycles ≠ 0) (htimed : configuration.stations.Timed) :
    configuration.Judged
      (if stationCount configuration.stations.classes = 0 then some .noStations else none) := by
  have hfirst := timed_iff_forall_not_firstIdle.mp htimed
  by_cases hcount : stationCount configuration.stations.classes = 0
  · rw [if_pos hcount]
    exact ⟨by simp [runnable_iff, hcount], by simpa using hcycles, by simp [hfirst],
      iff_of_true rfl ⟨hcycles, htimed, stationCount_eq_zero_iff.mp hcount⟩⟩
  · rw [if_neg hcount]
    exact ⟨iff_of_true rfl (runnable_iff.mpr ⟨hcycles, htimed, hcount⟩), by simpa using hcycles,
      by simp [hfirst],
      iff_of_false (by simp) fun hnone => hcount (stationCount_eq_zero_iff.mpr hnone.2.2)⟩

/-- A configuration is misjudged only if its stations are counted to zero. -/
theorem judged_error?_iff : configuration.Judged configuration.error? ↔ ¬ configuration.Wraps := by
  constructor
  · intro hjudged hwraps
    have hreported : configuration.error? = some .noStations := by
      rw [error?_of_timed hwraps.cycle hwraps.time, if_pos (Nat.mod_eq_zero_of_dvd hwraps.multiple)]
    obtain ⟨-, -, hzero⟩ := hjudged.noStations.mp hreported
    exact hwraps.station.ne' (stationCount_eq_zero_iff.mpr hzero)
  · intro hwraps
    by_cases hcycles : configuration.maxCycles = 0
    · rw [error?_of_maxCycles_eq_zero hcycles]
      exact judged_of_maxCycles_eq_zero hcycles
    by_cases htimed : configuration.stations.Timed
    · have hsame : stationCount configuration.stations.classes % Word.limit = 0 ↔
          stationCount configuration.stations.classes = 0 := by
        refine ⟨fun hmod => ?_, fun hzero => by rw [hzero, Nat.zero_mod]⟩
        by_contra hpositive
        exact hwraps ⟨hcycles, htimed, Nat.pos_of_ne_zero hpositive, Nat.dvd_of_mod_eq_zero hmod⟩
      rw [error?_of_timed hcycles htimed]
      simpa only [hsame] using judged_of_timed hcycles htimed
    · rw [timed_iff_forall_not_firstIdle, not_forall_not] at htimed
      obtain ⟨stationClass, hfirst⟩ := htimed
      rw [error?_of_firstIdle hcycles hfirst]
      exact judged_of_firstIdle hcycles hfirst

end Configuration

/-! ## Counting with faults -/

namespace Checked

/-- Behind the classes that are counted the visit comes to a class that takes no time, or to the end. -/
theorem survey_eq {total : Nat} (classes : List (StationClass × Bank)) (htotal : total < Word.limit) :
    survey total classes =
      if total + stationCount (classes.takeWhile fun entry => ¬ entry.2.Idle) < Word.limit then
        .ok (match (classes.find? fun entry => entry.2.Idle).map Prod.fst with
          | some stationClass => some (.zeroDelay stationClass)
          | none => if total + stationCount classes = 0 then some .noStations else none)
      else .error .counter := by
  induction classes generalizing total with
  | nil =>
      rw [survey, List.takeWhile_nil, stationCount_nil, Nat.add_zero, if_pos htotal]
      rfl
  | cons entry classes ih =>
      obtain ⟨stationClass, bank⟩ := entry
      rw [survey]
      by_cases hidle : bank.Idle
      · rw [if_pos hidle, List.takeWhile_cons_of_neg (by simpa using hidle), stationCount_nil, Nat.add_zero,
          if_pos htotal, List.find?_cons_of_pos (by simpa using hidle)]
        rfl
      · rw [if_neg hidle, List.takeWhile_cons_of_pos (by simpa using hidle),
          List.find?_cons_of_neg (by simpa using hidle), stationCount_cons, stationCount_cons,
          ← Nat.add_assoc, ← Nat.add_assoc, add]
        by_cases hsum : total + bank.count < Word.limit
        · rw [if_pos hsum, ok_bind, ih hsum]
        · rw [if_neg hsum, if_neg (by dsimp only; omega)]
          rfl

/-- If the stations that are counted fit into a word, the visit reports what is reported without faults. -/
theorem error?_eq (configuration : Configuration) :
    error? configuration =
      if configuration.maxCycles = 0 ∨ stationCount configuration.counted < Word.limit then
        .ok configuration.error?
      else .error .counter := by
  by_cases hcycles : configuration.maxCycles = 0
  · rw [error?, if_pos hcycles, if_pos (.inl hcycles), configuration.error?_of_maxCycles_eq_zero hcycles]
    rfl
  have hfind : (configuration.stations.classes.find? fun entry => entry.2.Idle).map Prod.fst =
      configuration.idleClass? := by
    simp only [Configuration.idleClass?, Bank.decide_idle]
  rw [error?, if_neg hcycles, survey_eq _ (by decide), hfind, Nat.zero_add, Nat.zero_add]
  simp only [hcycles, false_or]
  refine ite_congr rfl (fun hfits => congrArg Except.ok ?_) fun _ => rfl
  rw [Configuration.error?, if_neg hcycles]
  cases hidle : configuration.idleClass? with
  | some stationClass => rfl
  | none =>
      have htimed := configuration.idleClass?_eq_none_iff.mp hidle
      rw [Configuration.counted_of_timed htimed] at hfits
      rw [Banks.total_eq, Nat.mod_eq_of_lt hfits]

end Checked

/-! ## Main statement -/

/-- What validation reports is what a configuration deserves, unless nothing is wrong with it but that the number
of its stations is a multiple of `2 ^ 64`.  An addition leaves its word if and only if a run has a cycle and the
classes before the first one that takes no time have at least `2 ^ 64` stations; if none does, the report is
right. -/
theorem error?_judged_iff (configuration : Configuration) :
    (configuration.Judged configuration.error? ↔ ¬ configuration.Wraps) ∧
      Checked.error? configuration =
        (if configuration.maxCycles = 0 ∨ stationCount configuration.counted < Word.limit then
          .ok configuration.error?
        else .error .counter) ∧
      ∀ refusal, Checked.error? configuration = .ok refusal → configuration.Judged refusal := by
  refine ⟨configuration.judged_error?_iff, Checked.error?_eq configuration, fun refusal hreported => ?_⟩
  rw [Checked.error?_eq] at hreported
  split at hreported
  case isFalse => cases hreported
  case isTrue hfits =>
    obtain rfl := Except.ok.inj hreported
    refine configuration.judged_error?_iff.mpr fun hwraps => ?_
    have hsmall := hfits.resolve_left hwraps.cycle
    rw [Configuration.counted_of_timed hwraps.time] at hsmall
    exact Nat.not_dvd_of_pos_of_lt hwraps.station hsmall hwraps.multiple

namespace Crowded

/-- Two classes of `2 ^ 63` stations, the second of which takes the given time. -/
def configuration (delay : Nat) : Configuration where
  stations := ⟨⟨0x8000000000000000, 1⟩, ⟨0x8000000000000000, delay⟩, ⟨0, 1⟩⟩

theorem words : (configuration 1).Words where
  maxCycles := by decide
  queueWindow := by simp [configuration]
  count := by decide
  delay := by decide

theorem wraps : (configuration 1).Wraps where
  cycle := by decide
  time := by simp [configuration, Banks.Timed, Banks.classes, Bank.Idle]
  station := by decide
  multiple := by decide

end Crowded

/-- A class that takes no time is reported before it is counted. -/
theorem error?_judged_iff_crowded :
    Checked.error? (Crowded.configuration 0) = .ok (some (.zeroDelay .add)) ∧
      (Crowded.configuration 0).Judged (some (.zeroDelay .add)) ∧
      Checked.error? (Crowded.configuration 1) = .error .counter := by
  obtain ⟨-, -, hjudged⟩ := error?_judged_iff (Crowded.configuration 0)
  have hreported : Checked.error? (Crowded.configuration 0) = .ok (some (.zeroDelay .add)) := by rfl
  exact ⟨hreported, hjudged _ hreported, by rfl⟩

/-- Validation can report the lack of stations where there are some, although all numbers fit into words. -/
theorem not_always_judged :
    ¬ ∀ configuration : Configuration, configuration.Words →
      configuration.Judged configuration.error? := by
  intro halways
  exact (Crowded.configuration 1).judged_error?_iff.mp (halways _ Crowded.words) Crowded.wraps

end Tomasulo
