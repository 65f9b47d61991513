import Mathlib.Tactic
import Tomasulo.Station.Hazard

/-!
# Two views of a pool

A pool is a list of stations, but the machine only ever asks two things of a station number: what the
station holds (`Pool.slot?`) and how long its functional unit takes (`Pool.delay`).  This module says
what each operation on a pool does to these two views, so that no later proof looks into the list:

* an operation on one station changes what that station holds and nothing else (`slot?_put`,
  `slot?_work`, `slot?_release`);
* a publication reaches every station (`slot?_receive`);
* no operation changes a delay.

It then reads the decisions of the plan through the same views: membership in the list of occupied
stations, the hazard guards, and the order by age.  `head?_byAge` is the arbitration rule: the chosen
station holds the oldest instruction that satisfies the condition.
-/

namespace Tomasulo
namespace Pool

variable {pool : Pool} {id other : Nat} {slot : Slot}

/-- How long the functional unit of a station takes; zero for a number that no station has. -/
def delay (pool : Pool) (id : Nat) : Nat :=
  (pool[id]?.map Station.delay).getD 0

theorem slot?_eq_some_iff :
    pool.slot? id = some slot ↔ ∃ station, pool[id]? = some station ∧ station.slot = some slot := by
  unfold slot?
  rw [Option.bind_eq_some_iff]

theorem lt_length_of_slot? (hslot : pool.slot? id = some slot) : id < pool.length := by
  obtain ⟨station, hstation, -⟩ := slot?_eq_some_iff.mp hslot
  exact (List.getElem?_eq_some_iff.mp hstation).1

theorem delay_eq {station : Station} (hstation : pool[id]? = some station) :
    pool.delay id = station.delay := by
  simp [delay, hstation]

/-- Where all stations take time, every number in range has a positive delay. -/
theorem delay_pos (hdelays : ∀ station ∈ pool, 0 < station.delay) (hbound : id < pool.length) :
    0 < pool.delay id := by
  rw [delay_eq (List.getElem?_eq_getElem hbound)]
  exact hdelays _ (List.getElem_mem hbound)

/-! ## What an operation does to the views -/

theorem slot?_modify (f : Station → Station) :
    slot? (pool.modify id f) other =
      if id = other then (pool[other]?.map f).bind Station.slot else pool.slot? other := by
  unfold slot?
  rw [List.getElem?_modify]
  by_cases hsame : id = other
  · simp only [hsame, if_true]
    rfl
  · simp [hsame]

theorem slot?_put (hbound : id < pool.length) :
    (pool.put id slot).slot? other = if other = id then some slot else pool.slot? other := by
  unfold put
  rw [slot?_modify]
  by_cases hsame : id = other
  · subst hsame
    simp [List.getElem?_eq_getElem hbound]
  · rw [if_neg hsame, if_neg (Ne.symm hsame)]

theorem slot?_work (hbound : id < pool.length) :
    (pool.work id slot).slot? other = if other = id then some slot else pool.slot? other := by
  unfold work
  rw [slot?_modify]
  by_cases hsame : id = other
  · subst hsame
    simp [List.getElem?_eq_getElem hbound]
  · rw [if_neg hsame, if_neg (Ne.symm hsame)]

@[simp]
theorem slot?_release :
    (pool.release id).slot? other = if other = id then none else pool.slot? other := by
  unfold release
  rw [slot?_modify]
  by_cases hsame : id = other
  · subst hsame
    cases pool[id]? <;> simp
  · rw [if_neg hsame, if_neg (Ne.symm hsame)]

@[simp]
theorem slot?_receive (producer : Nat) (value : Float) :
    (pool.receive producer value).slot? id = (pool.slot? id).map (Slot.receive producer value) := by
  unfold receive slot?
  rw [List.getElem?_map]
  cases pool[id]? <;> rfl

@[simp]
theorem slot?_rest : pool.rest.slot? id = pool.slot? id := by
  unfold rest slot?
  rw [List.getElem?_map]
  cases pool[id]? <;> rfl

theorem delay_modify (f : Station → Station) (hdelay : ∀ station, (f station).delay = station.delay) :
    delay (pool.modify id f) other = pool.delay other := by
  unfold delay
  rw [List.getElem?_modify]
  cases pool[other]? with
  | none => rfl
  | some station =>
      by_cases hsame : id = other
      · simp [hsame, hdelay]
      · simp [hsame]

@[simp]
theorem delay_put : (pool.put id slot).delay other = pool.delay other :=
  delay_modify _ fun _ => rfl

@[simp]
theorem delay_work : (pool.work id slot).delay other = pool.delay other :=
  delay_modify _ fun _ => rfl

@[simp]
theorem delay_release : (pool.release id).delay other = pool.delay other :=
  delay_modify _ fun _ => rfl

@[simp]
theorem delay_receive (producer : Nat) (value : Float) :
    (pool.receive producer value).delay id = pool.delay id := by
  unfold receive delay
  rw [List.getElem?_map]
  cases pool[id]? <;> rfl

@[simp]
theorem delay_rest : pool.rest.delay id = pool.delay id := by
  unfold rest delay
  rw [List.getElem?_map]
  cases pool[id]? <;> rfl

@[simp]
theorem length_put : (pool.put id slot).length = pool.length := by
  simp [put]

@[simp]
theorem length_work : (pool.work id slot).length = pool.length := by
  simp [work]

@[simp]
theorem length_release : (pool.release id).length = pool.length := by
  simp [release]

@[simp]
theorem length_receive (producer : Nat) (value : Float) :
    (pool.receive producer value).length = pool.length := by
  simp [receive]

@[simp]
theorem length_rest : pool.rest.length = pool.length := by
  simp [rest]

/-! ## Occupied stations -/

theorem mem_occupied_iff {entry : Occupied} :
    entry ∈ pool.occupied ↔
      pool[entry.id]? = some entry.station ∧ entry.station.slot = some entry.slot := by
  unfold occupied
  rw [List.mem_filterMap]
  constructor
  · rintro ⟨⟨station, n⟩, hmem, hentry⟩
    obtain ⟨held, hheld, rfl⟩ := Option.map_eq_some_iff.mp hentry
    exact ⟨List.mem_zipIdx_iff_getElem?.mp hmem, hheld⟩
  · rintro ⟨hstation, hheld⟩
    exact ⟨(entry.station, entry.id), List.mem_zipIdx_iff_getElem?.mpr hstation, by simp [hheld]⟩

theorem slot?_of_mem_occupied {entry : Occupied} (hentry : entry ∈ pool.occupied) :
    pool.slot? entry.id = some entry.slot :=
  slot?_eq_some_iff.mpr ⟨entry.station, mem_occupied_iff.mp hentry⟩

theorem lt_length_of_mem_occupied {entry : Occupied} (hentry : entry ∈ pool.occupied) :
    entry.id < pool.length :=
  lt_length_of_slot? (slot?_of_mem_occupied hentry)

theorem delay_of_mem_occupied {entry : Occupied} (hentry : entry ∈ pool.occupied) :
    pool.delay entry.id = entry.station.delay :=
  delay_eq (mem_occupied_iff.mp hentry).1

theorem exists_occupied_of_slot? (hslot : pool.slot? id = some slot) :
    ∃ entry ∈ pool.occupied, entry.id = id ∧ entry.slot = slot := by
  obtain ⟨station, hstation, hheld⟩ := slot?_eq_some_iff.mp hslot
  exact ⟨⟨id, station, slot⟩, mem_occupied_iff.mpr ⟨hstation, hheld⟩, rfl, rfl⟩

theorem occupied_ids_sorted : (pool.occupied.map Occupied.id).Pairwise (· < ·) := by
  unfold occupied
  rw [List.pairwise_map, List.pairwise_filterMap]
  -- Filtering keeps the order of the indices.
  have hindex : pool.zipIdx.Pairwise fun a b => a.2 < b.2 := by
    rw [List.pairwise_iff_getElem]
    intro i j hi hj hij
    simpa using hij
  refine hindex.imp fun {a b} hlt x hx y hy => ?_
  obtain ⟨_, _, rfl⟩ := Option.map_eq_some_iff.mp hx
  obtain ⟨_, _, rfl⟩ := Option.map_eq_some_iff.mp hy
  exact hlt

theorem anyBusy_eq_false_iff : pool.anyBusy = false ↔ ∀ id, pool.slot? id = none := by
  unfold anyBusy
  rw [List.any_eq_false]
  constructor
  · intro hidle id
    cases hslot : pool.slot? id with
    | none => rfl
    | some slot =>
        obtain ⟨station, hstation, hheld⟩ := slot?_eq_some_iff.mp hslot
        exact absurd (by simp [Station.isBusy, hheld]) (hidle station (List.mem_of_getElem? hstation))
  · intro hfree station hstation
    obtain ⟨n, hn⟩ := List.mem_iff_getElem?.mp hstation
    have hnone := hfree n
    unfold slot? at hnone
    rw [hn, Option.bind_some] at hnone
    simp [Station.isBusy, hnone]

theorem freeFor?_spec {opClass : OpClass} (hfree : pool.freeFor? opClass = some id) :
    ∃ station, pool[id]? = some station ∧ station.slot = none ∧
      station.stationClass.accepts opClass = true := by
  unfold freeFor? at hfree
  obtain ⟨hbound, hstation, -⟩ := List.findIdx?_eq_some_iff_getElem.mp hfree
  rw [Bool.and_eq_true] at hstation
  refine ⟨pool[id], List.getElem?_eq_getElem hbound, ?_, hstation.2⟩
  simpa [Station.isBusy] using hstation.1

/-! ## Order by age -/

theorem insertByAge_perm (entry : Occupied) (entries : List Occupied) :
    (insertByAge entry entries).Perm (entry :: entries) := by
  induction entries with
  | nil => exact .refl _
  | cons other rest ih =>
      unfold insertByAge
      split
      · exact .refl _
      · exact (ih.cons other).trans (.swap entry other rest)

theorem insertByAge_sorted {entry : Occupied} {entries : List Occupied}
    (hsorted : entries.Pairwise fun a b => a.slot.seq ≤ b.slot.seq) :
    (insertByAge entry entries).Pairwise fun a b => a.slot.seq ≤ b.slot.seq := by
  induction entries with
  | nil => simp [insertByAge]
  | cons other rest ih =>
      obtain ⟨hleast, hrest⟩ := List.pairwise_cons.mp hsorted
      unfold insertByAge
      split
      case isTrue hle =>
        refine List.pairwise_cons.mpr ⟨fun later hlater => ?_, hsorted⟩
        rcases List.mem_cons.mp hlater with rfl | hlater
        · exact hle
        · exact hle.trans (hleast later hlater)
      case isFalse hgt =>
        -- Behind `other` stands the new entry or what stood there before.
        refine List.pairwise_cons.mpr ⟨fun later hlater => ?_, ih hrest⟩
        rcases List.mem_cons.mp ((insertByAge_perm entry rest).mem_iff.mp hlater) with rfl | hlater
        · omega
        · exact hleast later hlater

/-- The occupied stations that satisfy a condition, oldest first. -/
theorem foldr_insertByAge (entries : List Occupied) :
    (entries.foldr insertByAge []).Perm entries ∧
      (entries.foldr insertByAge []).Pairwise fun a b => a.slot.seq ≤ b.slot.seq := by
  induction entries with
  | nil => simp
  | cons entry rest ih =>
      exact ⟨(insertByAge_perm entry _).trans (ih.1.cons entry), insertByAge_sorted ih.2⟩

theorem mem_byAge_iff {condition : Occupied → Bool} :
    id ∈ pool.byAge condition ↔ ∃ entry ∈ pool.occupied, entry.id = id ∧ condition entry = true := by
  unfold byAge
  rw [List.mem_map]
  constructor
  · rintro ⟨entry, hmem, rfl⟩
    obtain ⟨hentry, hholds⟩ := List.mem_filter.mp ((foldr_insertByAge _).1.mem_iff.mp hmem)
    exact ⟨entry, hentry, rfl, hholds⟩
  · rintro ⟨entry, hentry, rfl, hholds⟩
    exact ⟨entry, (foldr_insertByAge _).1.mem_iff.mpr (List.mem_filter.mpr ⟨hentry, hholds⟩), rfl⟩

theorem nodup_byAge (condition : Occupied → Bool) : (pool.byAge condition).Nodup := by
  unfold byAge
  rw [((foldr_insertByAge _).1.map Occupied.id).nodup_iff]
  -- Sorting only permutes the stations in use, and their numbers differ.
  have hids : (pool.occupied.map Occupied.id).Nodup := occupied_ids_sorted.imp Nat.ne_of_lt
  exact hids.sublist (List.filter_sublist.map Occupied.id)

/-- Arbitration: the first station by age holds the oldest instruction of all that satisfy the
condition. -/
theorem head?_byAge {condition : Occupied → Bool} (hhead : (pool.byAge condition).head? = some id) :
    ∃ entry ∈ pool.occupied, entry.id = id ∧ condition entry = true ∧
      ∀ rival ∈ pool.occupied, condition rival = true → entry.slot.seq ≤ rival.slot.seq := by
  obtain ⟨hperm, hsorted⟩ := foldr_insertByAge (pool.occupied.filter condition)
  unfold byAge at hhead
  cases hlist : (pool.occupied.filter condition).foldr insertByAge [] with
  | nil => simp [hlist] at hhead
  | cons entry rest =>
      rw [hlist] at hhead hperm hsorted
      obtain ⟨hentry, hholds⟩ := List.mem_filter.mp (hperm.mem_iff.mp (List.mem_cons_self ..))
      refine ⟨entry, hentry, by simpa using hhead, hholds, fun rival hrival hrivalHolds => ?_⟩
      rcases List.mem_cons.mp (hperm.mem_iff.mpr (List.mem_filter.mpr ⟨hrival, hrivalHolds⟩))
        with rfl | hlater
      · exact le_rfl
      · exact (List.pairwise_cons.mp hsorted).1 rival hlater

/-- The age of the instruction in a station, by its position. -/
def age (pool : Pool) (id : Nat) : Nat :=
  ((pool.slot? id).map Slot.seq).getD 0

theorem age_of_mem_occupied {entry : Occupied} (hentry : entry ∈ pool.occupied) :
    pool.age entry.id = entry.slot.seq := by
  rw [age, slot?_of_mem_occupied hentry, Option.map_some, Option.getD_some]

theorem pairwise_byAge (condition : Occupied → Bool) :
    (pool.byAge condition).Pairwise fun a b => pool.age a ≤ pool.age b := by
  obtain ⟨hperm, hsorted⟩ := foldr_insertByAge (pool.occupied.filter condition)
  unfold byAge
  rw [List.pairwise_map]
  refine hsorted.imp_of_mem fun {a b} ha hb hle => ?_
  rw [age_of_mem_occupied (List.mem_filter.mp (hperm.mem_iff.mp ha)).1,
    age_of_mem_occupied (List.mem_filter.mp (hperm.mem_iff.mp hb)).1]
  exact hle

/-! ## Hazards -/

theorem olderConflict_iff {kind : Slot → Bool} :
    pool.olderConflict slot kind = true ↔
      ∃ address, slot.address = some address ∧
        ∃ number older, pool.slot? number = some older ∧ older.seq < slot.seq ∧ kind older = true ∧
          ∃ place, older.address = some place ∧ place.aliases address = true := by
  unfold olderConflict
  cases slot.address with
  | none => simp
  | some address =>
      simp only [List.any_eq_true, Bool.and_eq_true, decide_eq_true_eq, Option.any_eq_true,
        Option.some.injEq, exists_eq_left']
      constructor
      · rintro ⟨entry, hentry, ⟨hage, hkind⟩, place, hplace, halias⟩
        exact ⟨entry.id, entry.slot, slot?_of_mem_occupied hentry, hage, hkind, place, hplace, halias⟩
      · rintro ⟨number, older, holder, hage, hkind, place, hplace, halias⟩
        obtain ⟨entry, hentry, -, rfl⟩ := exists_occupied_of_slot? holder
        exact ⟨entry, hentry, ⟨hage, hkind⟩, place, hplace, halias⟩

theorem loadBlocked_eq (hslot : pool.slot? id = some slot) :
    pool.loadBlocked id = pool.olderConflict slot Slot.isStore := by
  simp [loadBlocked, hslot]

theorem storeBlocked_eq (hslot : pool.slot? id = some slot) :
    pool.storeBlocked id =
      pool.olderConflict slot fun older => older.isLoad || older.isStore := by
  simp [storeBlocked, hslot]

/-! ## The pool of a configuration -/

theorem mem_ofBanks_iff {banks : Banks} {station : Station} :
    station ∈ ofBanks banks ↔
      ∃ entry ∈ banks.classes, station ∈ bank entry.1 entry.2 := by
  simp [ofBanks]

theorem slot?_ofBanks (banks : Banks) : (ofBanks banks).slot? id = none := by
  cases hslot : (ofBanks banks).slot? id with
  | none => rfl
  | some slot =>
      obtain ⟨station, hstation, hheld⟩ := slot?_eq_some_iff.mp hslot
      obtain ⟨entry, -, hbank⟩ := mem_ofBanks_iff.mp (List.mem_of_getElem? hstation)
      obtain ⟨n, -, rfl⟩ := List.mem_map.mp hbank
      exact absurd hheld (by simp)

/-- On a sound configuration every station takes time. -/
theorem delay_ofBanks_pos {configuration : Configuration} (hsound : configuration.error? = none)
    (hbound : id < (ofBanks configuration.stations).length) :
    0 < (ofBanks configuration.stations).delay id := by
  obtain ⟨entry, hentry, hbank⟩ := mem_ofBanks_iff.mp (List.getElem_mem hbound)
  obtain ⟨n, hn, hstation⟩ := List.mem_map.mp hbank
  rw [delay_eq (List.getElem?_eq_getElem hbound), ← hstation]
  have hcount : 0 < entry.2.count := Nat.zero_lt_of_lt (List.mem_range.mp hn)
  -- The search for a class that exists and takes no time has found none.
  have hnone : configuration.stations.classes.find?
      (fun entry => 0 < entry.2.count && entry.2.delay == 0) = none := by
    unfold Configuration.error? Configuration.idleClass? at hsound
    cases hfind : configuration.stations.classes.find?
        (fun entry => 0 < entry.2.count && entry.2.delay == 0) with
    | none => rfl
    | some idle =>
        rw [hfind] at hsound
        split at hsound <;> simp at hsound
  have hentryFine := List.find?_eq_none.mp hnone entry hentry
  have hdelay : entry.2.delay ≠ 0 := by simpa [hcount] using hentryFine
  exact Nat.pos_of_ne_zero hdelay

end Pool
end Tomasulo
