import Mathlib.Tactic
import Tomasulo.Configuration.Document
import Tomasulo.Proofs.Reading
import Tomasulo.Proofs.Statement
import Tomasulo.Proofs.Validation

/-!
# Configurations and the documents that write them

A document writes a configuration (`Configuration.WrittenIn`) if it spells an object with the members of the
configuration.  The members of each object may stand in any order and between members of other names, their
names may be written with escapes, and what has its default may be left out, whole sections included; a class of
stations that is present has both of its members.

Every such document is read as the configuration that it writes, if that one is sound
(`ofDocument_eq_ok_of_written`).
-/

namespace Tomasulo

namespace Json

/-! ## Names -/

/-- What stands between the quotes of a string denotes a text. -/
inductive Denotes : List Char → List Char → Prop where
  | empty : Denotes [] []
  | plain {c : Char} {literal text : List Char} (hslash : c ≠ '\\') (hrest : Denotes literal text) :
      Denotes (c :: literal) (c :: text)
  | short {e c : Char} {literal text : List Char} (hescape : shortEscape? e = some c)
      (hrest : Denotes literal text) : Denotes ('\\' :: e :: literal) (c :: text)
  | unit {a b c d : Char} {code : Nat} {literal text : List Char} (hunit : unit? a b c d = some code)
      (hcode : code < 0xD800 ∨ 0xDFFF < code) (hrest : Denotes literal text) :
      Denotes ('\\' :: 'u' :: a :: b :: c :: d :: literal) (Char.ofNat code :: text)
  /-- The two halves of a character beyond the sixteen-bit units. -/
  | pair {a b c d a' b' c' d' : Char} {high low : Nat} {literal text : List Char}
      (hhigh : unit? a b c d = some high) (hhighs : 0xD800 ≤ high ∧ high < 0xDC00)
      (hlow : unit? a' b' c' d' = some low) (hlows : 0xDC00 ≤ low ∧ low ≤ 0xDFFF)
      (hrest : Denotes literal text) :
      Denotes ('\\' :: 'u' :: a :: b :: c :: d :: '\\' :: 'u' :: a' :: b' :: c' :: d' :: literal)
        (Char.ofNat (0x10000 + (high - 0xD800) * 0x400 + (low - 0xDC00)) :: text)

theorem Denotes.unescapeChars?_eq {literal text : List Char} (hdenotes : Denotes literal text) :
    unescapeChars? literal = some text := by
  induction hdenotes with
  | empty => rfl
  | plain hslash _ ih =>
      rw [unescapeChars?, if_neg hslash, ih]
      · rfl
      all_goals simp [hslash]
  | short hescape _ ih =>
      rw [unescapeChars?, hescape, ih]
      · rfl
      · rintro a b c d rest rfl
        cases hescape
  | unit hunit hcode _ ih =>
      rw [unescapeChars?, hunit, Option.bind_eq_bind, Option.bind_some, if_pos (by simpa using hcode), ih]
      rfl
  | pair hhigh hhighs hlow hlows _ ih =>
      rw [unescapeChars?, hhigh, Option.bind_eq_bind, Option.bind_some, if_neg (by simp; omega),
        if_neg (by omega)]
      simp only [hlow, Option.bind_some, ih]
      rw [if_pos (by simpa using hlows)]
      rfl

/-- Without a backslash a text denotes itself. -/
theorem denotes_self {text : List Char} (htext : '\\' ∉ text) : Denotes text text := by
  induction text with
  | nil => exact .empty
  | cons c text ih =>
      rw [List.mem_cons, not_or] at htext
      exact .plain (Ne.symm htext.1) (ih htext.2)

theorem Denotes.unescape?_eq {literal name : String} (hdenotes : Denotes literal.toList name.toList) :
    unescape? literal = some name := by
  rw [unescape?, hdenotes.unescapeChars?_eq, Option.map_some, String.ofList_toList]

/-! ## Objects -/

/-- The fields that are present, with their names. -/
def present : List String → List (Option Json) → List (String × Json)
  | name :: names, some value :: fields => (name, value) :: present names fields
  | _ :: names, none :: fields => present names fields
  | _, _ => []

section Present

variable {names : List String} {fields : List (Option Json)} {name : String} {field : Option Json}

theorem mem_of_mem_present {entry : String × Json} (hentry : entry ∈ present names fields) :
    entry.1 ∈ names := by
  fun_induction present names fields with
  | case1 name names value fields ih =>
      obtain rfl | hentry := List.mem_cons.mp hentry
      · exact List.mem_cons_self ..
      · exact List.mem_cons_of_mem _ (ih hentry)
  | case2 name names fields ih => exact List.mem_cons_of_mem _ (ih hentry)
  | case3 => cases hentry

theorem filter_present_of_not_mem (hname : name ∉ names) :
    (present names fields).filter (·.1 == name) = [] := by
  refine List.filter_eq_nil_iff.mpr fun entry hentry hsame => hname ?_
  rw [← beq_iff_eq.mp hsame]
  exact mem_of_mem_present hentry

/-- Among the fields that are present, a name finds its own field only. -/
theorem filter_present (hnodup : names.Nodup) (hfield : (name, field) ∈ names.zip fields) :
    (present names fields).filter (·.1 == name) = (field.map (name, ·)).toList := by
  fun_induction present names fields with
  | case1 first names value fields ih =>
      obtain ⟨hfirst, hnodup⟩ := List.nodup_cons.mp hnodup
      obtain hsame | htail := List.mem_cons.mp hfield
      · obtain ⟨rfl, rfl⟩ := Prod.mk.inj hsame
        rw [List.filter_cons_of_pos (by simp), filter_present_of_not_mem hfirst]
        rfl
      · have hother : first ≠ name := fun hsame => hfirst (hsame ▸ (List.of_mem_zip htail).1)
        rw [List.filter_cons_of_neg (by simpa using hother), ih hnodup htail]
  | case2 first names fields ih =>
      obtain ⟨hfirst, hnodup⟩ := List.nodup_cons.mp hnodup
      obtain hsame | htail := List.mem_cons.mp hfield
      · obtain ⟨rfl, rfl⟩ := Prod.mk.inj hsame
        exact filter_present_of_not_mem hfirst
      · exact ih hnodup htail
  | case3 names fields hwritten habsent =>
      cases names with
      | nil => cases hfield
      | cons first names =>
          cases fields with
          | nil => cases hfield
          | cons field fields =>
              cases field with
              | none => exact (habsent _ _ _ rfl rfl).elim
              | some value => exact (hwritten _ _ _ _ rfl rfl).elim

end Present

/-- A value is an object with the given fields, each under its name or absent.  The members may stand in any
order and between others, whose names are not known. -/
inductive HasFields (names : List String) (fields : List (Option Json)) : Json → Prop where
  | mk {members entries : List (String × Json)} (others : List (String × Json))
      (hothers : ∀ other ∈ others, other.1 ∉ names)
      (hentries : entries.Perm (present names fields ++ others))
      (hmembers : List.Forall₂
        (fun member entry => Denotes member.1.toList entry.1.toList ∧ member.2 = entry.2) members entries) :
      HasFields names fields (.object members)

/-- A number literal of digits alone. -/
inductive Counts (n : Nat) : Json → Prop where
  | mk {literal : String} (hliteral : Assembly.Writes literal.toList n) : Counts n (.number literal)

/-- A field has a value: it is written, or left out where the value is the default. -/
inductive Field {α : Type} (default : α) (writes : α → Json → Prop) : α → Option Json → Prop where
  | written {value : α} {json : Json} (hjson : writes value json) : Field default writes value (some json)
  | omitted : Field default writes default none

end Json

/-! ## Configurations -/

/-- A value writes the stations of one class. -/
def Bank.WrittenAs (bank : Bank) (json : Json) : Prop :=
  ∃ count delay, Json.Counts bank.count count ∧ Json.Counts bank.delay delay ∧
    Json.HasFields ["count", "delay"] [some count, some delay] json

/-- A value writes the stations of all classes. -/
def Banks.WrittenAs (banks : Banks) (json : Json) : Prop :=
  ∃ load add mul, Json.Field ({} : Banks).load Bank.WrittenAs banks.load load ∧
    Json.Field ({} : Banks).add Bank.WrittenAs banks.add add ∧
    Json.Field ({} : Banks).mul Bank.WrittenAs banks.mul mul ∧
    Json.HasFields ["load", "add", "mul"] [load, add, mul] json

namespace Configuration

/-- A value writes the section with the cap on cycles. -/
def GeneralWrittenAs (maxCycles : Nat) (json : Json) : Prop :=
  ∃ field, Json.Field ({} : Configuration).maxCycles Json.Counts maxCycles field ∧
    Json.HasFields ["max_cycles"] [field] json

/-- A value writes the length of the lookahead: a number, or null if there is none. -/
inductive WindowWrittenAs : Option Nat → Json → Prop where
  | all : WindowWrittenAs none .null
  | bounded {window : Nat} {json : Json} (hjson : Json.Counts window json) :
      WindowWrittenAs (some window) json

/-- A value writes the section with the length of the lookahead. -/
def ProgramWrittenAs (window : Option Nat) (json : Json) : Prop :=
  ∃ field, Json.Field none WindowWrittenAs window field ∧ Json.HasFields ["queue_window"] [field] json

/-- A value writes a configuration. -/
def WrittenAs (configuration : Configuration) (json : Json) : Prop :=
  ∃ general program stations,
    Json.Field ({} : Configuration).maxCycles GeneralWrittenAs configuration.maxCycles general ∧
    Json.Field ({} : Configuration).queueWindow ProgramWrittenAs configuration.queueWindow program ∧
    Json.Field ({} : Configuration).stations Banks.WrittenAs configuration.stations stations ∧
    Json.HasFields ["general", "program", "stations"] [general, program, stations] json

/-- A document writes a configuration. -/
def WrittenIn (configuration : Configuration) (document : String) : Prop :=
  ∃ json, json.SpelledIn document ∧ configuration.WrittenAs json

/-! ## Reading objects -/

section Objects

variable {names : List String} {fields : List (Option Json)} {json : Json} {name : String}
  {field : Option Json}

theorem member?_eq_of_filter_eq {entries : List (String × Json)}
    (hfilter : entries.filter (·.1 == name) = (field.map (name, ·)).toList) :
    member? entries name = some field := by
  rw [member?, hfilter]
  cases field <;> rfl

theorem mapM_eq_some_of_forall₂ {α β : Type} {f : α → Option β} {items : List α} {results : List β}
    (hitems : List.Forall₂ (fun item result => f item = some result) items results) :
    items.mapM f = some results := by
  induction hitems with
  | nil => rfl
  | cons hitem _ ih =>
      rw [List.mapM_cons, hitem, ih]
      rfl

theorem fields?_eq_of_hasFields (hnodup : names.Nodup) (hlength : names.length = fields.length)
    (hjson : Json.HasFields names fields json) : fields? names json = some fields := by
  obtain @⟨members, entries, others, hothers, hentries, hmembers⟩ := hjson
  have hdecoded : (members.mapM fun entry => return (← Json.unescape? entry.1, entry.2)) = some entries := by
    refine mapM_eq_some_of_forall₂ (hmembers.imp fun member entry hmember => ?_)
    rw [hmember.1.unescape?_eq, hmember.2]
    rfl
  have hfields : names.mapM (member? entries) = some fields := by
    refine mapM_eq_some_of_forall₂ (List.forall₂_iff_zip.mpr ⟨hlength, fun {name field} hfield => ?_⟩)
    -- Names that are not known do not get in the way.
    have hunknown : others.filter (·.1 == name) = [] := by
      refine List.filter_eq_nil_iff.mpr fun other hother hsame => hothers other hother ?_
      rw [beq_iff_eq.mp hsame]
      exact (List.of_mem_zip hfield).1
    have hperm := hentries.filter (·.1 == name)
    rw [List.filter_append, hunknown, List.append_nil, Json.filter_present hnodup hfield] at hperm
    refine member?_eq_of_filter_eq ?_
    cases field with
    | none => exact hperm.eq_nil
    | some value => exact hperm.eq_singleton
  rw [fields?, hdecoded]
  exact hfields

end Objects

/-! ## Reading configurations -/

section Reading

variable {configuration : Configuration} {json : Json} {n bound : Nat}

theorem natural?_eq_of_counts (hjson : Json.Counts n json) (hbound : n < bound) :
    natural? bound json = some n := by
  obtain ⟨hliteral⟩ := hjson
  obtain ⟨hdecimal, rfl⟩ := Assembly.writes_iff.mp hliteral
  rw [natural?, if_pos hdecimal, if_pos hbound]

theorem withDefault_eq_of_field {α : Type} {default value : α} {writes : α → Json → Prop}
    {read : Json → Option α} {field : Option Json} (hfield : Json.Field default writes value field)
    (hread : ∀ json, writes value json → read json = some value) :
    withDefault default read field = some value := by
  cases hfield with
  | written hjson => exact hread _ hjson
  | omitted => rfl

theorem bank?_eq_of_writtenAs {bank : Bank} (hcount : bank.count < Word.limit)
    (hdelay : bank.delay < Word.halfLimit) (hjson : bank.WrittenAs json) : bank? json = some bank := by
  obtain ⟨count, delay, hcounts, hdelays, hfields⟩ := hjson
  rw [bank?, fields?_eq_of_hasFields (by decide) rfl hfields]
  simp only [Option.bind_eq_bind, Option.bind_some, natural?_eq_of_counts hcounts hcount,
    natural?_eq_of_counts hdelays hdelay]
  rfl

theorem banks?_eq_of_writtenAs {banks : Banks}
    (hcount : ∀ entry ∈ banks.classes, entry.2.count < Word.limit)
    (hdelay : ∀ entry ∈ banks.classes, entry.2.delay < Word.halfLimit) (hjson : banks.WrittenAs json) :
    banks? json = some banks := by
  obtain ⟨load, add, mul, hload, hadd, hmul, hfields⟩ := hjson
  have hbank (stationClass : StationClass) {bank : Bank} (hmember : (stationClass, bank) ∈ banks.classes)
      (json : Json) : bank.WrittenAs json → bank? json = some bank :=
    bank?_eq_of_writtenAs (hcount _ hmember) (hdelay _ hmember)
  rw [banks?, fields?_eq_of_hasFields (by decide) rfl hfields]
  simp only [Option.bind_eq_bind, Option.bind_some,
    withDefault_eq_of_field hload (hbank .loadStore (by simp [Banks.classes])),
    withDefault_eq_of_field hadd (hbank .add (by simp [Banks.classes])),
    withDefault_eq_of_field hmul (hbank .mul (by simp [Banks.classes]))]
  rfl

theorem maxCycles?_eq_of_writtenAs (hbound : n < Word.limit) (hjson : GeneralWrittenAs n json) :
    maxCycles? json = some n := by
  obtain ⟨field, hfield, hfields⟩ := hjson
  rw [maxCycles?, fields?_eq_of_hasFields (by decide) rfl hfields]
  exact withDefault_eq_of_field hfield fun json hjson => natural?_eq_of_counts hjson hbound

theorem window?_eq_of_writtenAs {window : Option Nat} (hbound : ∀ n ∈ window, n < Word.limit)
    (hjson : WindowWrittenAs window json) : window? json = some window := by
  cases hjson with
  | all => rfl
  | bounded hjson =>
      have hnatural := natural?_eq_of_counts hjson (hbound _ rfl)
      obtain ⟨-⟩ := hjson
      rw [window?, hnatural]
      · rfl
      · rintro ⟨⟩

theorem queueWindow?_eq_of_writtenAs {window : Option Nat} (hbound : ∀ n ∈ window, n < Word.limit)
    (hjson : ProgramWrittenAs window json) : queueWindow? json = some window := by
  obtain ⟨field, hfield, hfields⟩ := hjson
  rw [queueWindow?, fields?_eq_of_hasFields (by decide) rfl hfields]
  exact withDefault_eq_of_field hfield fun json => window?_eq_of_writtenAs hbound

theorem ofJson?_eq_of_writtenAs (hwords : configuration.Words) (hjson : configuration.WrittenAs json) :
    ofJson? json = some configuration := by
  obtain ⟨general, program, stations, hgeneral, hprogram, hstations, hfields⟩ := hjson
  rw [ofJson?, fields?_eq_of_hasFields (by decide) rfl hfields]
  simp only [Option.bind_eq_bind, Option.bind_some,
    withDefault_eq_of_field hgeneral fun json => maxCycles?_eq_of_writtenAs hwords.maxCycles,
    withDefault_eq_of_field hprogram fun json => queueWindow?_eq_of_writtenAs hwords.queueWindow,
    withDefault_eq_of_field hstations fun json => banks?_eq_of_writtenAs hwords.count hwords.delay]
  rfl

end Reading

end Configuration

/-! ## Main statement -/

/-- A document that writes a sound configuration is read as that configuration, however its members are arranged
and spelled, whatever else its objects hold, and whichever defaults it leaves out. -/
theorem ofDocument_eq_ok_of_written {configuration : Configuration} {document : String}
    (hsound : configuration.error? = none) (hwords : configuration.Words)
    (hwritten : configuration.WrittenIn document) :
    Configuration.ofDocument document = .ok configuration := by
  obtain ⟨json, hspelled, hjson⟩ := hwritten
  rw [Configuration.ofDocument, Json.read?_eq_some_iff.mpr hspelled, Option.bind_some,
    Configuration.ofJson?_eq_of_writtenAs hwords hjson]
  dsimp only
  rw [hsound]

namespace Rearranged

/-- A document with members of other names, one of which is known elsewhere. -/
def document : String :=
  "\n\x7b\"notes\": [-1.5e3, \x7b\"load\": null\x7d ], " ++
    "\"stations\": \x7b\"mul\": \x7b\"delay\": 7, \"unit\": \"ms\", \"count\" :1\x7d\x7d," ++
    "\"\\u0067eneral\": \x7b\"max_cycles\": 18446744073709551615\x7d\x7d "

def multipliers : Json :=
  .object [("delay", .number "7"), ("unit", .string "ms"), ("count", .number "1")]

def stations : Json :=
  .object [("mul", multipliers)]

def general : Json :=
  .object [("max_cycles", .number "18446744073709551615")]

def value : Json :=
  .object [("notes", .array [.number "-1.5e3", .object [("load", .null)]]), ("stations", stations),
    ("\\u0067eneral", general)]

def configuration : Configuration where
  maxCycles := 0xFFFFFFFFFFFFFFFF
  stations := { mul := ⟨1, 7⟩ }

theorem spelledIn : value.SpelledIn document :=
  Json.read?_eq_some_iff.mp (by cbv)

theorem counts (literal : String) {n : Nat}
    (hliteral : Text.isDecimal literal.toList = true ∧ n = Text.decimalValue literal.toList) :
    Json.Counts n (.number literal) :=
  ⟨Assembly.writes_iff.mpr hliteral⟩

theorem multipliers_written : Bank.WrittenAs ⟨1, 7⟩ multipliers := by
  refine ⟨_, _, counts "1" (by decide), counts "7" (by decide), ?_⟩
  refine .mk [("unit", .string "ms")] (by decide)
    (@List.perm_append_comm _ [_, _] [_])
    (.cons ⟨?_, rfl⟩ (.cons ⟨?_, rfl⟩ (.cons ⟨?_, rfl⟩ .nil)))
  all_goals exact Json.denotes_self (by decide)

theorem stations_written : Banks.WrittenAs { mul := ⟨1, 7⟩ } stations :=
  ⟨none, none, _, .omitted, .omitted, .written multipliers_written,
    .mk [] (by simp) (.refl _) (.cons ⟨Json.denotes_self (by decide), rfl⟩ .nil)⟩

theorem general_written : Configuration.GeneralWrittenAs 0xFFFFFFFFFFFFFFFF general :=
  ⟨_, .written (counts _ (by decide)),
    .mk [] (by simp) (.refl _) (.cons ⟨Json.denotes_self (by decide), rfl⟩ .nil)⟩

theorem writtenAs : configuration.WrittenAs value := by
  refine ⟨_, none, _, .written general_written, .omitted, .written stations_written, ?_⟩
  refine .mk [("notes", _)] (by decide) (List.reverse_perm [_, _, _]).symm
    (.cons ⟨?_, rfl⟩ (.cons ⟨?_, rfl⟩ (.cons ⟨?_, rfl⟩ .nil)))
  · exact Json.denotes_self (by decide)
  · exact Json.denotes_self (by decide)
  · change Json.Denotes ('\\' :: 'u' :: '0' :: '0' :: '6' :: '7' :: "eneral".toList)
      (Char.ofNat 0x67 :: "eneral".toList)
    exact .unit (by rfl) (by decide) (Json.denotes_self (by decide))

theorem words : configuration.Words where
  maxCycles := by decide
  queueWindow := by simp [configuration]
  count := by decide
  delay := by decide

end Rearranged

theorem ofDocument_eq_ok_of_written_rearranged :
    Rearranged.configuration.error? = none ∧ Rearranged.configuration.Words ∧
      Rearranged.configuration.WrittenIn Rearranged.document ∧
      Configuration.ofDocument Rearranged.document = .ok Rearranged.configuration := by
  have hsound : Rearranged.configuration.error? = none := by decide
  have hwritten : Rearranged.configuration.WrittenIn Rearranged.document :=
    ⟨_, Rearranged.spelledIn, Rearranged.writtenAs⟩
  exact ⟨hsound, Rearranged.words, hwritten,
    ofDocument_eq_ok_of_written hsound Rearranged.words hwritten⟩

end Tomasulo
