import InitialLoad.Proofs.EntryHistories
import InitialLoad.Proofs.SeederHistories

/-!
# Where settings come from

Of several spellings of a setting's name in the environment the one counts that entered it
last, with the value that it has now; the same holds in an environment file.  A value is
given under the name itself; `Given` has one more rule, for names that are read in any case.
`FieldValue` says what a setting is by the histories of both and by the values that are given,
one rule for each source, and `fieldValue_iff` that this is the value that is looked up.

A setting depends on entries under its own name only, in whatever spelling.  The
environment of a seeder is what the changes to variables have made of it, whatever else was
done in between, so the settings that it resolves are told by its history.
-/

namespace InitialLoad.Settings

open Entries (Change Current Entered)

variable {α : Type} {field : Text}

/-! ## The last of several spellings -/

/-- The last entry under a spelling of the name has this value. -/
def LastSpelled (field : Text) (entries : Entries α) (v : α) : Prop :=
  ∃ before name after, entries = before ++ (name, v) :: after ∧ name.lower = field ∧
    ∀ entry ∈ after, entry.1.lower ≠ field

/-- No entry is under a spelling of the name. -/
def NoneSpelled (field : Text) (entries : Entries α) : Prop :=
  ∀ entry ∈ entries, entry.1.lower ≠ field

theorem lastSpelled?_concat (entries : Entries α) (name : Text) (v : α) :
    lastSpelled? field (entries ++ [(name, v)]) =
      if name.lower = field then some v else lastSpelled? field entries := by
  simp [lastSpelled?]

theorem lastSpelled?_eq_none_iff {entries : Entries α} :
    lastSpelled? field entries = none ↔ NoneSpelled field entries := by
  induction entries using List.reverseRecOn with
  | nil => simp [lastSpelled?, NoneSpelled]
  | append_singleton entries entry ih =>
      rw [lastSpelled?_concat, NoneSpelled, List.forall_mem_append, List.forall_mem_singleton]
      by_cases hname : entry.1.lower = field
      · simp [hname]
      · rw [if_neg hname, ih]
        exact (and_iff_left hname).symm

theorem lastSpelled?_eq_some_iff {entries : Entries α} {v : α} :
    lastSpelled? field entries = some v ↔ LastSpelled field entries v := by
  induction entries using List.reverseRecOn with
  | nil => simp [lastSpelled?, LastSpelled]
  | append_singleton entries entry ih =>
      obtain ⟨name, x⟩ := entry
      rw [lastSpelled?_concat]
      constructor
      · intro h
        split at h
        case isTrue hname =>
          cases h
          exact ⟨entries, name, [], rfl, hname, nofun⟩
        case isFalse hname =>
          obtain ⟨before, spelled, after, rfl, hspelled, hafter⟩ := ih.mp h
          refine ⟨before, spelled, after ++ [(name, x)], by simp, hspelled, ?_⟩
          exact List.forall_mem_append.mpr ⟨hafter, by simpa using hname⟩
      · rintro ⟨before, spelled, after, hsplit, hspelled, hafter⟩
        obtain ⟨rfl, rfl, heq⟩ | ⟨middle, rfl, rfl⟩ := Entries.concat_eq_append_cons.mp hsplit
        · cases heq
          exact if_pos hspelled
        · obtain ⟨hmiddle, hlast⟩ := List.forall_mem_append.mp hafter
          rw [if_neg (hlast _ List.mem_cons_self)]
          exact ih.mpr ⟨before, spelled, middle, rfl, hspelled, hmiddle⟩

/-! ## The winner of a history -/

/-- Of the names that are set and are spellings of the name, the one that entered last has
this value. -/
def Winner (history : List (Change α)) (field : Text) (v : α) : Prop :=
  ∃ name time, name.lower = field ∧ Current history name v ∧ Entered history name time ∧
    ∀ other otherTime, other.lower = field → Entered history other otherTime → otherTime ≤ time

/-- No spelling of the name is set. -/
def Unset (history : List (Change α)) (field : Text) : Prop :=
  ∀ name v, Current history name v → name.lower ≠ field

variable {history : List (Change α)} {v w : α}

theorem Winner.unique (hv : Winner history field v) (hw : Winner history field w) : v = w := by
  obtain ⟨name, time, hname, hcurrent, hentered, hlast⟩ := hv
  obtain ⟨other, otherTime, hother, hcurrent', hentered', hlast'⟩ := hw
  have htime : time = otherTime :=
    Nat.le_antisymm (hlast' _ _ hname hentered) (hlast _ _ hother hentered')
  subst htime
  obtain rfl := hentered.name_eq hentered'
  exact hcurrent.unique hcurrent'

theorem noneSpelled_after_iff :
    NoneSpelled field (Entries.after history) ↔ Unset history field := by
  have htracks := Entries.tracks_after history
  constructor
  · intro h name v hcurrent
    exact h _ (Entries.mem_of_get? ((htracks.current name v).mpr hcurrent))
  · intro h entry hentry
    obtain ⟨v, hcurrent⟩ := htracks.exists_current (List.mem_map_of_mem hentry)
    exact h _ v hcurrent

/-- The last entry under a spelling is that of the name which entered last. -/
theorem winner_of_lastSpelled (h : LastSpelled field (Entries.after history) v) :
    Winner history field v := by
  have htracks := Entries.tracks_after history
  obtain ⟨before, name, later, hsplit, hname, hlater⟩ := h
  have hordered := htracks.ordered
  rw [hsplit, List.map_append, List.map_cons, List.pairwise_append, List.pairwise_cons]
    at hordered
  obtain ⟨-, -, hbefore⟩ := hordered
  have hmem : name ∈ (Entries.after history).map Prod.fst := by
    rw [hsplit]
    simp
  obtain ⟨time, hentered⟩ := Entries.exists_entered_iff.mpr (htracks.exists_current hmem)
  -- a name that entered only once is not there a second time
  have hfirst : name ∉ before.map Prod.fst := fun hagain =>
    Nat.lt_irrefl time (hbefore name hagain name List.mem_cons_self time time hentered hentered)
  have hcurrent : Current history name v := by
    rw [← htracks.current, hsplit, Entries.get?_append_of_not_mem hfirst, Entries.get?, if_pos rfl]
  refine ⟨name, time, hname, hcurrent, hentered, fun other otherTime hother hlast => ?_⟩
  obtain ⟨w, hw⟩ := hlast.exists_current
  have hthere : other ∈ (Entries.after history).map Prod.fst :=
    List.mem_map_of_mem (Entries.mem_of_get? ((htracks.current other w).mpr hw))
  rw [hsplit, List.map_append, List.map_cons, List.mem_append, List.mem_cons] at hthere
  obtain hearlier | rfl | hafter := hthere
  · exact Nat.le_of_lt (hbefore other hearlier name List.mem_cons_self _ _ hlast hentered)
  · exact Nat.le_of_eq (hlast.unique hentered)
  · obtain ⟨entry, hentry, rfl⟩ := List.mem_map.mp hafter
    exact absurd hother (hlater entry hentry)

/-- What is looked up in the entries that a history leaves is its winner. -/
theorem lastSpelled?_after_eq_some_iff :
    lastSpelled? field (Entries.after history) = some v ↔ Winner history field v := by
  constructor
  · exact fun h => winner_of_lastSpelled (lastSpelled?_eq_some_iff.mp h)
  · intro hwinner
    cases hfound : lastSpelled? field (Entries.after history) with
    | none =>
        obtain ⟨name, -, hname, hcurrent, -⟩ := hwinner
        have hunset := noneSpelled_after_iff.mp (lastSpelled?_eq_none_iff.mp hfound)
        exact absurd hname (hunset name v hcurrent)
    | some w =>
        have hother := winner_of_lastSpelled (lastSpelled?_eq_some_iff.mp hfound)
        rw [hother.unique hwinner]

theorem lastSpelled?_after_eq_none_iff :
    lastSpelled? field (Entries.after history) = none ↔ Unset history field :=
  lastSpelled?_eq_none_iff.trans noneSpelled_after_iff

/-! ## What is given -/

/-- A value is given for a setting of this name: under the name itself or, where any case
of it will do and nothing is under the name, as the last under a spelling of it. -/
inductive Given (names : GivenNames) (given : Entries α) (field : Text) : α → Prop where
  | own {v : α} : given.get? field = some v → Given names given field v
  | spelled {v : α} : names = .anyCase → given.get? field = none → LastSpelled field given v →
      Given names given field v

/-- No value is given for a setting of this name. -/
def NotGiven (names : GivenNames) (given : Entries α) (field : Text) : Prop :=
  ∀ v, ¬ Given names given field v

theorem GivenNames.find?_eq_some_iff {names : GivenNames} {given : Entries α} {v : α} :
    names.find? field given = some v ↔ Given names given field v := by
  unfold GivenNames.find?
  constructor
  · intro h
    cases hown : given.get? field with
    | some w =>
        rw [hown] at h
        cases h
        exact .own hown
    | none =>
        rw [hown] at h
        cases names with
        | exact => cases h
        | anyCase => exact .spelled rfl hown (lastSpelled?_eq_some_iff.mp h)
  · intro h
    cases h with
    | own hown => rw [hown]
    | spelled hnames hown hlast =>
        subst hnames
        rw [hown]
        exact lastSpelled?_eq_some_iff.mpr hlast

theorem GivenNames.find?_eq_none_iff {names : GivenNames} {given : Entries α} :
    names.find? field given = none ↔ NotGiven names given field := by
  rw [Option.eq_none_iff_forall_ne_some]
  exact forall_congr' fun v => not_congr find?_eq_some_iff

/-! ## The value of a setting -/

/-- The setting has this value by the values that are given and by the histories of the
environment and of the file, where a name may be set to no value. -/
inductive FieldValue (names : GivenNames) (given : Entries Text)
    (environment : List (Change Text)) (file : List (Change (Option Text)))
    (setting : SettingName) : Text → Prop where
  | given {t : Text} : Given names given setting.name t →
      FieldValue names given environment file setting t
  | environment {t : Text} : NotGiven names given setting.name →
      Winner environment setting.name t → FieldValue names given environment file setting t
  | file {t : Text} : NotGiven names given setting.name → Unset environment setting.name →
      Winner file setting.name (some t) → FieldValue names given environment file setting t
  | default : NotGiven names given setting.name → Unset environment setting.name →
      (∀ t, ¬ Winner file setting.name (some t)) →
      FieldValue names given environment file setting setting.default

/-- Texts as values that are given. -/
def givenTexts (given : Entries Text) : Document := given.map fun entry => (entry.1, .text entry.2)

/-- The sources that values and histories leave. -/
def Sources.left (names : GivenNames) (given : Entries Text) (environment : List (Change Text))
    (file : List (Change (Option Text))) : Sources :=
  ⟨names, givenTexts given, Entries.after environment, Entries.after file⟩

theorem lastSpelled?_givenTexts (given : Entries Text) :
    lastSpelled? field (givenTexts given) = (lastSpelled? field given).map .text := by
  induction given using List.reverseRecOn with
  | nil => rfl
  | append_singleton given entry ih =>
      rw [givenTexts, List.map_append, List.map_singleton, lastSpelled?_concat,
        lastSpelled?_concat]
      split
      · rfl
      · exact ih

theorem get?_givenTexts (given : Entries Text) :
    (givenTexts given).get? field = (given.get? field).map .text := by
  have hmap := @Entries.get?_filter_map Text Value field (fun _ => true) rfl
    (fun _ t => .text t) given
  rwa [List.filter_true] at hmap

theorem find?_givenTexts (names : GivenNames) (given : Entries Text) :
    names.find? field (givenTexts given) = (names.find? field given).map .text := by
  unfold GivenNames.find?
  rw [get?_givenTexts]
  cases given.get? field with
  | some t => rfl
  | none =>
      cases names with
      | exact => rfl
      | anyCase => exact lastSpelled?_givenTexts given

section

variable {names : GivenNames} {given : Entries Text} {environment : List (Change Text)}
  {file : List (Change (Option Text))} {setting : SettingName} {t : Text}

theorem FieldValue.looked_up (h : FieldValue names given environment file setting t) :
    (Sources.left names given environment file).value setting = .text t := by
  unfold Sources.value
  simp only [Sources.left, find?_givenTexts]
  cases h with
  | given hgiven => rw [GivenNames.find?_eq_some_iff.mpr hgiven, Option.map_some]
  | environment hnone hwinner =>
      rw [GivenNames.find?_eq_none_iff.mpr hnone, Option.map_none,
        lastSpelled?_after_eq_some_iff.mpr hwinner]
  | file hnone hunset hwinner =>
      rw [GivenNames.find?_eq_none_iff.mpr hnone, Option.map_none,
        lastSpelled?_after_eq_none_iff.mpr hunset, lastSpelled?_after_eq_some_iff.mpr hwinner]
  | default hnone hunset hvalueless =>
      rw [GivenNames.find?_eq_none_iff.mpr hnone, Option.map_none,
        lastSpelled?_after_eq_none_iff.mpr hunset]
      cases hfile : lastSpelled? setting.name (Entries.after file) with
      | none => rfl
      | some value =>
          cases value with
          | none => rfl
          | some t => exact absurd (lastSpelled?_after_eq_some_iff.mp hfile) (hvalueless t)

/-- Every setting has a value. -/
theorem exists_fieldValue (names : GivenNames) (given : Entries Text)
    (environment : List (Change Text)) (file : List (Change (Option Text)))
    (setting : SettingName) : ∃ t, FieldValue names given environment file setting t := by
  cases hgiven : names.find? setting.name given with
  | some t => exact ⟨t, .given (GivenNames.find?_eq_some_iff.mp hgiven)⟩
  | none =>
      have hnone := GivenNames.find?_eq_none_iff.mp hgiven
      cases henvironment : lastSpelled? setting.name (Entries.after environment) with
      | some t => exact ⟨t, .environment hnone (lastSpelled?_after_eq_some_iff.mp henvironment)⟩
      | none =>
          have hunset := lastSpelled?_after_eq_none_iff.mp henvironment
          by_cases hfile : ∃ t, Winner file setting.name (some t)
          · obtain ⟨t, hwinner⟩ := hfile
            exact ⟨t, .file hnone hunset hwinner⟩
          · exact ⟨_, .default hnone hunset (not_exists.mp hfile)⟩

/-- **A setting is what is looked up.** -/
theorem fieldValue_iff :
    FieldValue names given environment file setting t ↔
      (Sources.left names given environment file).value setting = .text t := by
  refine ⟨FieldValue.looked_up, fun h => ?_⟩
  obtain ⟨w, hw⟩ := exists_fieldValue names given environment file setting
  have heq := hw.looked_up
  rw [h] at heq
  cases heq
  exact hw

end

/-! ## The settings -/

/-- Settings resolve when a text is looked up for each of them. -/
theorem resolve_of_texts {sources : Sources} {text : SettingName → Text}
    (h : ∀ setting, sources.value setting = .text (text setting)) :
    resolve sources = .ok (of text) := by
  have hreading : ∀ setting, sources.reading setting = .ok (text setting) := by
    intro setting
    rw [Sources.reading, h]
    rfl
  have hall : SettingName.all.map sources.reading = (SettingName.all.map text).map .ok := by
    rw [List.map_map]
    exact List.map_congr_left fun setting _ => hreading setting
  rw [resolve, hall, Reading.gather_ok]
  simp only [hreading]
  rfl

/-- The settings have the values that the sources' histories tell. -/
def ToldBy (settings : Settings) (names : GivenNames) (given : Entries Text)
    (environment : List (Change Text)) (file : List (Change (Option Text))) : Prop :=
  ∀ setting t, settings.get setting = t ↔ FieldValue names given environment file setting t

theorem resolve_left (names : GivenNames) (given : Entries Text)
    (environment : List (Change Text)) (file : List (Change (Option Text))) :
    ∃ settings, resolve (Sources.left names given environment file) = .ok settings ∧
      settings.ToldBy names given environment file := by
  choose text htext using exists_fieldValue names given environment file
  refine ⟨of text, resolve_of_texts fun setting => (htext setting).looked_up, ?_⟩
  intro setting t
  rw [get_of, fieldValue_iff, (htext setting).looked_up, Value.text.injEq]

/-! ## Settings are independent of each other -/

/-- The name is a spelling of the other. -/
def spells (field name : Text) : Bool := name.lower = field

/-- What is looked up is looked up among the spellings of the name. -/
theorem lastSpelled?_keeping (entries : Entries α) :
    lastSpelled? field (entries.keeping (spells field)) = lastSpelled? field entries := by
  induction entries using List.reverseRecOn with
  | nil => rfl
  | append_singleton entries entry ih =>
      rw [lastSpelled?_concat, Entries.keeping, List.filter_append, List.filter_singleton]
      by_cases hname : entry.1.lower = field
      · rw [if_pos hname, spells, decide_eq_true hname, cond_true, lastSpelled?_concat,
          if_pos hname]
      · rw [if_neg hname, spells, decide_eq_false hname, cond_false, List.append_nil]
        exact ih

theorem lastSpelled?_after_congr {history other : List (Change α)}
    (h : (history.filter fun c => spells field c.name) =
      other.filter fun c => spells field c.name) :
    lastSpelled? field (Entries.after history) = lastSpelled? field (Entries.after other) := by
  rw [← lastSpelled?_keeping (Entries.after history), ← lastSpelled?_keeping (Entries.after other),
    Entries.keeping_after, Entries.keeping_after, h]

/-- The name of a setting is a spelling of itself. -/
theorem spells_name (setting : SettingName) : spells setting.name setting.name = true := by
  cases setting <;> decide +kernel

theorem find?_keeping (names : GivenNames) (given : Entries α) (setting : SettingName) :
    names.find? setting.name (given.keeping (spells setting.name)) =
      names.find? setting.name given := by
  unfold GivenNames.find?
  rw [Entries.get?_keeping (spells_name setting), lastSpelled?_keeping]

/-- A setting is the same by sources whose histories agree under its own name. -/
theorem value_congr {names : GivenNames} {given given' : Entries Text}
    {environment environment' : List (Change Text)}
    {file file' : List (Change (Option Text))} {setting : SettingName}
    (hgiven : given.keeping (spells setting.name) = given'.keeping (spells setting.name))
    (henvironment : (environment.filter fun c => spells setting.name c.name) =
      environment'.filter fun c => spells setting.name c.name)
    (hfile : (file.filter fun c => spells setting.name c.name) =
      file'.filter fun c => spells setting.name c.name) :
    (Sources.left names given environment file).value setting =
      (Sources.left names given' environment' file').value setting := by
  have hfound : names.find? setting.name given = names.find? setting.name given' := by
    rw [← find?_keeping names given, ← find?_keeping names given', hgiven]
  simp only [Sources.value, Sources.left, find?_givenTexts, hfound,
    lastSpelled?_after_congr henvironment, lastSpelled?_after_congr hfile]

/-! ## The entries of an environment file -/

/-- Entries as the changes that make them, one after the other. -/
def sets (entries : Entries α) : List (Change α) := entries.map fun entry => .set entry.1 entry.2

/-- The lines of a file with the references in their values replaced, after the entries
that there are. -/
def expanded (environment : Environment) :
    Entries (Option Text) → Entries (Option Text) → Entries (Option Text)
  | _, [] => []
  | file, line :: rest =>
    let value := line.2.map (EnvironmentFile.expand (EnvironmentFile.lookUp environment file))
    (line.1, value) :: expanded environment (file.put line.1 value) rest

/-- Each line has one entry: its name, and a value if it has one. -/
theorem expanded_forall₂ (environment : Environment) (file lines : Entries (Option Text)) :
    List.Forall₂ (fun line entry => entry.1 = line.1 ∧ entry.2.isSome = line.2.isSome) lines
      (expanded environment file lines) := by
  induction lines generalizing file with
  | nil => exact .nil
  | cons line rest ih => exact .cons ⟨rfl, Option.isSome_map⟩ (ih _)

theorem evaluate_eq_after (environment : Environment) (lines : Entries (Option Text)) :
    EnvironmentFile.evaluate environment lines =
      Entries.after (sets (expanded environment [] lines)) := by
  have hall : ∀ file : Entries (Option Text),
      lines.foldl (fun file line => file.put line.1 (line.2.map
        (EnvironmentFile.expand (EnvironmentFile.lookUp environment file)))) file =
      (sets (expanded environment file lines)).foldl Change.apply file := by
    induction lines with
    | nil => exact fun _ => rfl
    | cons line rest ih => exact fun file => ih _
  exact hall []

/-- The entries of a file are left by its lines, taken as changes. -/
theorem loadFile_left {environment : Environment} {bytes : Bytes} {file : Entries (Option Text)}
    {reports : List LogRecord} (h : loadFile environment bytes = .ok (file, reports)) :
    ∃ t entries, EnvironmentFile.textOf bytes = .ok t ∧ file = Entries.after (sets entries) ∧
      List.Forall₂ (fun line entry => entry.1 = line.1 ∧ entry.2.isSome = line.2.isSome)
        (EnvironmentFile.assignments (EnvironmentFile.statements t)) entries := by
  unfold loadFile at h
  cases htext : EnvironmentFile.textOf bytes with
  | error fault =>
      rw [htext] at h
      cases h
  | ok t =>
      rw [htext] at h
      cases h
      exact ⟨t, _, rfl, evaluate_eq_after _ _, expanded_forall₂ _ _ _⟩

end InitialLoad.Settings

namespace InitialLoad.Seeder

open Entries (Change)
open InitialLoad.Action (Leads Passes)
open Settings (Sources givenTexts sets)

variable {σ : Type}

/-! ## The environment of a seeder -/

/-- The change to variables that an operation makes. -/
def Operation.change? : Operation → Option (Change Text)
  | .setVariable name value => some (.set name value)
  | .deleteVariable name => some (.delete name)
  | _ => none

/-- The changes to variables in a history. -/
def variableChanges (history : List Moment) : List (Change Text) :=
  history.filterMap fun m => m.operation.change?

/-- Nothing else changes the environment. -/
theorem Operation.environment_eq {operation : Operation} {x y : Seeder} {es : List Exchange}
    {r : Except Failure Unit} (h : Leads operation.action x es r y) :
    y.environment = operation.change?.toList.foldl Change.apply x.environment := by
  have hdiscard : ∀ {α : Type} {action : Action α} {promised : α → Seeder → Prop},
      Passes operation.Closes (fun _ => True) action promised →
      operation.action = Functor.discard action → y.environment = x.environment := by
    intro α action promised hpasses haction
    obtain ⟨result, hleads⟩ := (haction ▸ h).of_discard
    exact (hpasses x es result y trivial hleads).1.continues.environment
  cases operation with
  | setVariable name value =>
      obtain ⟨-, rfl⟩ := h.of_update
      rfl
  | deleteVariable name =>
      obtain ⟨-, rfl⟩ := h.of_update
      rfl
  | writeFile content =>
      obtain ⟨-, rfl⟩ := h.of_update
      rfl
  | clearSettings =>
      obtain ⟨-, rfl⟩ := h.of_update
      rfl
  | getSettings => exact hdiscard getSettings_passes rfl
  | getClient => exact hdiscard getClient_passes rfl
  | getDatabase name => exact hdiscard (getDatabase_passes name) rfl
  | ping => exact hdiscard ping_passes rfl
  | close => exact (closeClient_passes x es r y trivial h).1.continues.environment
  | run table => exact hdiscard (run_passes table) rfl
  | exitStatus table => exact hdiscard (exitStatus_passes table) rfl

/-- **The environment is what the changes to variables have made of it.** -/
theorem environment_after (server : Server σ) {earlier : List (Change Text)} {w : Situation σ}
    (h : w.seeder.environment = Entries.after earlier) (history : List Moment) :
    (after server history w).seeder.environment =
      Entries.after (earlier ++ variableChanges history) := by
  induction history generalizing earlier w with
  | nil =>
      rw [variableChanges, List.filterMap_nil, List.append_nil]
      exact h
  | cons m rest ih =>
      have hmoment : (m.after server w).seeder.environment =
          Entries.after (earlier ++ m.operation.change?.toList) := by
        have hleads := Action.leads_outcome server m.operation.action w.seeder w.state m.clock
        rw [Entries.after, List.foldl_append, ← Entries.after, ← h]
        exact Operation.environment_eq hleads
      have hchanges : variableChanges (m :: rest) =
          m.operation.change?.toList ++ variableChanges rest := by
        rw [variableChanges, List.filterMap_cons]
        cases m.operation.change? <;> rfl
      rw [after, ih hmoment, hchanges, List.append_assoc]

/-! ## Resolving -/

/-- The entries of the environment file, when it is there, is not to be ignored and can be
read; there are none when there is no file. -/
inductive FileEntries (x : Seeder) (ignoreFile : Bool) : Entries (Option Text) → Prop where
  | none : (if ignoreFile then none else x.file) = none → FileEntries x ignoreFile []
  | loaded {bytes : Bytes} {reports : List LogRecord} {entries : Entries (Option Text)} :
      (if ignoreFile then none else x.file) = some bytes →
      Settings.loadFile x.environment bytes = .ok (Entries.after (sets entries), reports) →
      FileEntries x ignoreFile entries

theorem outcome_resolveSettings {server : Server σ} {x : Seeder} {ignoreFile : Bool}
    {entries : Entries (Option Text)} (hentries : FileEntries x ignoreFile entries)
    (names : Settings.GivenNames) (given : Document) (s : σ) (c : Clock) :
    (Action.outcome server (resolveSettings given ignoreFile names) x s c).result =
      (Settings.resolve ⟨names, given, x.environment, Entries.after (sets entries)⟩, x) := by
  have hexcept : ∀ {α : Type} (e : Except Failure α),
      (Action.ofJob (Job.ofExcept e)).run x = .done (e, x) := fun _ => rfl
  unfold Action.outcome
  cases hentries with
  | none hnone =>
      simp only [resolveSettings, Action.run_bind, Action.run_state, Procedure.bind, hnone, hexcept]
      rfl
  | loaded hsome hload =>
      simp only [resolveSettings, Action.run_bind, Action.run_state, Procedure.bind, hsome, hexcept,
        hload, Action.run_writeAll, Procedure.bind_writing, Procedure.run_writing]
      rfl

/-- **Settings are told by the histories of their sources.**  Resolved from texts that are
given, from the environment that changes to variables have left and from the entries of an
environment file, each setting is: the text that is given for it; otherwise, of the
variables that are set and are spellings of its name, the present value of the one that
entered the environment last; otherwise, by the same rule, the value of the winning entry of
the file, if it has one; otherwise the default.  No setting depends on entries under other
names.  The entries of a file are its assignments, in order, with the references in their
values replaced.  The settings that a seeder resolves after any history are told in this
way by the changes that it made to variables, from whatever environment it started.

A text is given for a setting when it is given under the setting's own name; where the names
of given values are read in any case, also when it is the last under a spelling of the name
and none is under the name itself. -/
theorem settings_told_by_histories :
    (∀ (names : Settings.GivenNames) (given : Entries Text) (environment : List (Change Text))
      (entries : Entries (Option Text)),
      ∃ settings,
        Settings.resolve (Sources.left names given environment (sets entries)) = .ok settings ∧
        settings.ToldBy names given environment (sets entries)) ∧
    (∀ (names : Settings.GivenNames) (setting : SettingName) {given given' : Entries Text}
      {environment environment' : List (Change Text)} {entries entries' : Entries (Option Text)},
      given.keeping (Settings.spells setting.name) =
        given'.keeping (Settings.spells setting.name) →
      (environment.filter fun c => Settings.spells setting.name c.name) =
        (environment'.filter fun c => Settings.spells setting.name c.name) →
      entries.keeping (Settings.spells setting.name) =
        entries'.keeping (Settings.spells setting.name) →
      ∀ t, Settings.FieldValue names given environment (sets entries) setting t ↔
        Settings.FieldValue names given' environment' (sets entries') setting t) ∧
    (∀ {environment : Environment} {bytes : Bytes} {file : Entries (Option Text)}
      {reports : List LogRecord},
      Settings.loadFile environment bytes = .ok (file, reports) →
      ∃ t entries, EnvironmentFile.textOf bytes = .ok t ∧ file = Entries.after (sets entries) ∧
        List.Forall₂ (fun line entry => entry.1 = line.1 ∧ entry.2.isSome = line.2.isSome)
          (EnvironmentFile.assignments (EnvironmentFile.statements t)) entries) ∧
    ∀ {σ : Type} (server : Server σ) (earlier : List (Change Text)) (w : Situation σ)
      (history : List Moment) (names : Settings.GivenNames) (given : Entries Text)
      (ignoreFile : Bool) (clock : Clock) {entries : Entries (Option Text)},
      w.seeder.environment = Entries.after earlier →
      FileEntries (after server history w).seeder ignoreFile entries →
      ∃ settings, ((after server history w).outcome server
          (resolveSettings (givenTexts given) ignoreFile names) clock).result =
            (.ok settings, (after server history w).seeder) ∧
        settings.ToldBy names given (earlier ++ variableChanges history) (sets entries) := by
  refine ⟨fun names given environment entries =>
    Settings.resolve_left names given environment _, ?_, Settings.loadFile_left, ?_⟩
  · intro names setting given given' environment environment' entries entries' hgiven
      henvironment hentries t
    have hsets : ∀ es : Entries (Option Text),
        ((sets es).filter fun c => Settings.spells setting.name c.name) =
          sets (es.keeping (Settings.spells setting.name)) := by
      intro es
      rw [sets, List.filter_map]
      rfl
    have hfile := congrArg sets hentries
    rw [← hsets, ← hsets] at hfile
    rw [Settings.fieldValue_iff, Settings.fieldValue_iff,
      Settings.value_congr hgiven henvironment hfile]
  · intro σ server earlier w history names given ignoreFile clock entries hstart hentries
    have henvironment := environment_after server hstart history
    obtain ⟨settings, hresolve, htold⟩ :=
      Settings.resolve_left names given (earlier ++ variableChanges history) (sets entries)
    refine ⟨settings, ?_, htold⟩
    rw [← hresolve, Sources.left, ← henvironment]
    exact outcome_resolveSettings hentries names (givenTexts given) _ clock

/-- The log level is set under two spellings, and the first of them again; so the second
one entered last, and counts.  In the file a role is followed by another spelling of it
without a value, which wins and gives none.  The address is given, and empty; what is given
besides it under its name in capitals is no setting's. -/
theorem settings_told_by_histories_spellings :
    let bytes : Bytes := "app_user_role=read\nAPP_USER_ROLE".toUTF8.toList
    let w : Situation Store := ⟨{ file := some bytes }, Store.empty⟩
    let history : List Moment := [⟨.setVariable "LOG_LEVEL" "DEBUG", []⟩,
      ⟨.setVariable "log_level" "WARNING", []⟩, ⟨.setVariable "LOG_LEVEL" "ERROR", []⟩]
    ∃ settings, ((after Store.server history w).outcome Store.server
        (resolveSettings (givenTexts [("mongo_uri", []), ("MONGO_URI", "mongodb://db")]) false)
          []).result.1 = .ok settings ∧
      settings.logLevel = "WARNING" ∧ settings.userRole = "readWrite" ∧ settings.uri = [] := by
  intro bytes w history
  let entries : Entries (Option Text) := [("app_user_role", some "read"), ("APP_USER_ROLE", none)]
  have hload : Settings.loadFile (after Store.server history w).seeder.environment bytes =
      .ok (Entries.after (sets entries), []) := ok_of_toOption (by decide +kernel)
  obtain ⟨settings, hresult, htold⟩ := settings_told_by_histories.2.2.2 Store.server [] w history
    .exact [("mongo_uri", []), ("MONGO_URI", "mongodb://db")] false [] rfl (.loaded rfl hload)
  refine ⟨settings, congrArg Prod.fst hresult, (htold .logLevel _).mpr ?_,
    (htold .userRole _).mpr ?_, (htold .uri _).mpr ?_⟩
  · exact Settings.fieldValue_iff.mpr rfl
  · exact Settings.fieldValue_iff.mpr rfl
  · exact Settings.fieldValue_iff.mpr rfl

end InitialLoad.Seeder
