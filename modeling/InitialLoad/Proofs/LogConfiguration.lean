import InitialLoad.Logging
import InitialLoad.Proofs.EntityReading

/-!
# The log is configured once

A process may ask for a log level any number of times, with any values.  A value
`Names` a threshold if it is a text whose upper-case form is in the table of names;
every other value is `Refused`, with the failure that its sort calls for.  Which of the
two it is depends on the value alone, not on the log at that moment.

What a call does depends on the log as well: a value that names a threshold has an
effect on a log without a handler, and a log with a handler never changes again.  So of
a sequence of calls only the first that names a threshold has an effect, and the log
after all of them is known from that one (`ConfiguredOnce`).
-/

namespace InitialLoad.Logging

/-! ## Values that name a threshold -/

/-- The value is a text, and its upper-case form is the name of this threshold. -/
def Names (level : Value) (n : Nat) : Prop :=
  ∃ name : Text, level = .text name ∧ (name.upper, n) ∈ thresholds

/-- The value names no threshold, which is this failure. -/
inductive Refused : Value → Failure → Prop
  | name {t : Text} (h : ∀ n, (t.upper, n) ∉ thresholds) :
      Refused (.text t) (Failure.of (.unknownLevel (.text t)))
  | bytes (b : Bytes) : Refused (.bytes b) (Failure.of (.unknownLevel (.bytes b)))
  | other {level : Value} (htext : ∀ t, level ≠ .text t) (hbytes : ∀ b, level ≠ .bytes b) :
      Refused level (Failure.of (.missingAttribute level.typeName "upper"))

/-- The value has an upper-case form: it is a text, or bytes. -/
def hasUpper : Value → Bool
  | .text _ => true
  | .bytes _ => true
  | _ => false

/-- The class of a refusal tells whether the value has an upper-case form. -/
theorem Refused.className {level : Value} {f : Failure} (h : Refused level f) :
    f.problem.name = if hasUpper level then "ValueError" else "AttributeError" := by
  cases h with
  | name _ => rfl
  | bytes b => rfl
  | other htext hbytes =>
      cases level with
      | text t => exact absurd rfl (htext t)
      | bytes b => exact absurd rfl (hbytes b)
      | _ => rfl

/-- Each name stands in the table once. -/
theorem threshold?_eq_some_iff {name : Text} {n : Nat} :
    threshold? name = some n ↔ (name.upper, n) ∈ thresholds := by
  constructor
  · intro h
    exact Entries.mem_of_get? h
  · intro h
    have hfirst : ∀ entry ∈ thresholds, Entries.get? entry.1 thresholds = some entry.2 := by
      decide
    exact hfirst _ h

/-- A dotless i has the same upper-case form as a dotted one. -/
example : Names (.text "ınfo") 20 := ⟨"ınfo", rfl, by decide +kernel⟩

theorem thresholdOf_of_names {level : Value} {n : Nat} (h : Names level n) :
    thresholdOf level = .ok n := by
  obtain ⟨name, rfl, hmem⟩ := h
  have hname := threshold?_eq_some_iff.mpr hmem
  simp only [thresholdOf, hname]

theorem thresholdOf_of_refused {level : Value} {f : Failure} (h : Refused level f) :
    thresholdOf level = .error f := by
  cases h with
  | @name t h =>
      have hname : threshold? t = none := by
        by_contra hsome
        obtain ⟨n, hn⟩ := Option.ne_none_iff_exists'.mp hsome
        exact h n (threshold?_eq_some_iff.mp hn)
      simp only [thresholdOf, hname]
  | bytes b => rfl
  | other htext hbytes =>
      cases level with
      | text t => exact absurd rfl (htext t)
      | bytes b => exact absurd rfl (hbytes b)
      | _ => rfl

/-- **Every value names a threshold or is refused.** -/
theorem names_or_refused (level : Value) : (∃ n, Names level n) ∨ ∃ f, Refused level f := by
  by_cases hnamed : ∃ n, Names level n
  · exact Or.inl hnamed
  · refine Or.inr ?_
    cases level with
    | text t =>
        have hunknown : ∀ n, (t.upper, n) ∉ thresholds := fun n hn => hnamed ⟨n, t, rfl, hn⟩
        exact ⟨_, .name hunknown⟩
    | bytes b => exact ⟨_, .bytes b⟩
    | _ => exact ⟨_, .other nofun nofun⟩

/-- No value names two thresholds. -/
theorem Names.unique {level : Value} {m n : Nat} (hm : Names level m) (hn : Names level n) :
    m = n := by
  have h := (thresholdOf_of_names hm).symm.trans (thresholdOf_of_names hn)
  exact Except.ok.inj h

/-- No value that is refused names a threshold. -/
theorem Refused.not_names {level : Value} {f : Failure} (h : Refused level f) (n : Nat) :
    ¬ Names level n := by
  intro hn
  have hboth := (thresholdOf_of_refused h).symm.trans (thresholdOf_of_names hn)
  cases hboth

/-! ## One call -/

theorem attempt_of_names {level : Value} {n : Nat} (h : Names level n) (log : Logging) :
    log.attempt level = (.ok (), log.install n .stamped) := by
  simp only [attempt, configure, thresholdOf_of_names h, Except.map]

theorem attempt_of_refused {level : Value} {f : Failure} (h : Refused level f) (log : Logging) :
    log.attempt level = (.error f, log) := by
  simp only [attempt, configure, thresholdOf_of_refused h, Except.map]

/-- Whether a call succeeds depends on its value alone. -/
theorem attempt_ok_iff (level : Value) (log : Logging) :
    (log.attempt level).1 = .ok () ↔ ∃ n, Names level n := by
  rcases names_or_refused level with ⟨n, hn⟩ | ⟨f, hf⟩
  · rw [attempt_of_names hn]
    exact ⟨fun _ => ⟨n, hn⟩, fun _ => rfl⟩
  · rw [attempt_of_refused hf]
    refine ⟨nofun, ?_⟩
    intro h
    obtain ⟨n, hn⟩ := h
    exact absurd hn (hf.not_names n)

/-- A log with a handler never changes again. -/
theorem attempt_installed (level : Value) (n : Nat) (layout : LineLayout) :
    ((Logging.mk n (some layout)).attempt level).2 = ⟨n, some layout⟩ := by
  rcases names_or_refused level with ⟨m, hm⟩ | ⟨f, hf⟩
  · rw [attempt_of_names hm]
    rfl
  · rw [attempt_of_refused hf]

/-! ## A sequence of calls -/

/-- The log after calls with these values, one after the other. -/
def afterCalls (log : Logging) (levels : List Value) : Logging :=
  levels.foldl (fun log level => (log.attempt level).2) log

theorem afterCalls_append (log : Logging) (before later : List Value) :
    log.afterCalls (before ++ later) = (log.afterCalls before).afterCalls later := by
  simp [afterCalls]

theorem afterCalls_cons (log : Logging) (level : Value) (later : List Value) :
    log.afterCalls (level :: later) = (log.attempt level).2.afterCalls later := rfl

/-- Values that name no threshold leave every log as it is. -/
theorem afterCalls_of_unnamed (log : Logging) {levels : List Value}
    (h : ∀ level ∈ levels, ∀ n, ¬ Names level n) : log.afterCalls levels = log := by
  induction levels with
  | nil => rfl
  | cons level later ih =>
      have hlater := ih fun l hl => h l (List.mem_cons_of_mem level hl)
      rcases names_or_refused level with ⟨n, hn⟩ | ⟨f, hf⟩
      · exact absurd hn (h level List.mem_cons_self n)
      · rw [afterCalls_cons, attempt_of_refused hf]
        exact hlater

theorem afterCalls_installed (n : Nat) (layout : LineLayout) (levels : List Value) :
    (Logging.mk n (some layout)).afterCalls levels = ⟨n, some layout⟩ := by
  induction levels with
  | nil => rfl
  | cons level later ih =>
      rw [afterCalls_cons, attempt_installed]
      exact ih

/-- The first value that names a threshold decides. -/
theorem afterCalls_of_first {before : List Value} {level : Value} {n : Nat}
    (hbefore : ∀ l ∈ before, ∀ m, ¬ Names l m) (hlevel : Names level n) (later : List Value) :
    unconfigured.afterCalls (before ++ level :: later) = ⟨n, some .stamped⟩ := by
  calc unconfigured.afterCalls (before ++ level :: later)
      = (unconfigured.afterCalls before).afterCalls (level :: later) :=
        afterCalls_append unconfigured before (level :: later)
    _ = (unconfigured.attempt level).2.afterCalls later := by
        rw [afterCalls_of_unnamed unconfigured hbefore, afterCalls_cons]
    _ = ⟨n, some .stamped⟩ := by
        rw [attempt_of_names hlevel]
        exact afterCalls_installed n .stamped later

/-- A sequence in which some value names a threshold has a first one that does. -/
theorem exists_first {levels : List Value} (h : ∃ level ∈ levels, ∃ n, Names level n) :
    ∃ before level n later, levels = before ++ level :: later ∧
      (∀ l ∈ before, ∀ m, ¬ Names l m) ∧ Names level n := by
  induction levels with
  | nil =>
      obtain ⟨level, hmem, -⟩ := h
      cases hmem
  | cons first rest ih =>
      by_cases hfirst : ∃ n, Names first n
      · obtain ⟨n, hn⟩ := hfirst
        exact ⟨[], first, n, rest, rfl, by simp, hn⟩
      · have hrest : ∃ level ∈ rest, ∃ n, Names level n := by
          obtain ⟨level, hmem, hnamed⟩ := h
          rcases List.mem_cons.mp hmem with rfl | hmem
          · exact absurd hnamed hfirst
          · exact ⟨level, hmem, hnamed⟩
        obtain ⟨before, level, n, later, rfl, hbefore, hlevel⟩ := ih hrest
        refine ⟨first :: before, level, n, later, rfl, ?_, hlevel⟩
        intro l hl m hm
        rcases List.mem_cons.mp hl with rfl | hl
        · exact hfirst ⟨m, hm⟩
        · exact hbefore l hl m hm

/-! ## The law -/

/-- What a sequence of calls does to the log of a process that has not configured it. -/
structure ConfiguredOnce (levels : List Value) : Prop where
  /-- **A call succeeds** at any place exactly when its value names a threshold; -/
  succeeds : ∀ before level later, levels = before ++ level :: later →
    (((unconfigured.afterCalls before).attempt level).1 = .ok () ↔ ∃ n, Names level n)
  /-- otherwise it fails as its value calls for, and leaves the log as it was. -/
  fails : ∀ before level later, levels = before ++ level :: later → (∀ n, ¬ Names level n) →
    ∃ f, Refused level f ∧
      f.problem.name = (if hasUpper level then "ValueError" else "AttributeError") ∧
      (unconfigured.afterCalls before).attempt level = (.error f, unconfigured.afterCalls before)
  /-- **The first call that succeeds** sets the threshold and installs the handler; -/
  first : ∀ before level later n, levels = before ++ level :: later →
    (∀ l ∈ before, ∀ m, ¬ Names l m) → Names level n →
      unconfigured.afterCalls before = unconfigured ∧
      (unconfigured.attempt level).2 = ⟨n, some .stamped⟩ ∧
      unconfigured.afterCalls levels = ⟨n, some .stamped⟩
  /-- every later one changes nothing, whatever its value is. -/
  later : ∀ before level later, levels = before ++ level :: later →
    (∃ l ∈ before, ∃ m, Names l m) →
      ((unconfigured.afterCalls before).attempt level).2 = unconfigured.afterCalls before
  /-- **If no value names a threshold** the log stays without a handler, at level warning. -/
  never : (∀ level ∈ levels, ∀ n, ¬ Names level n) →
    unconfigured.afterCalls levels = ⟨30, none⟩
  /-- **No record is written twice**, between the calls or after them: it makes one entry,
  or none. -/
  once : ∀ before later, levels = before ++ later → ∀ (stamp : Text) (record : LogRecord),
    let log := unconfigured.afterCalls before
    log.lines stamp record = [] ∨
      log.layout = none ∧ log.lines stamp record = record.message.lines ∨
      log.layout = some .stamped ∧ log.lines stamp record =
        (Text.join [stamp, " | ", record.level.name, " | ", record.message]).lines

/-- A log that a sequence of calls left has no handler, or the stamped one. -/
theorem afterCalls_cases (levels : List Value) :
    unconfigured.afterCalls levels = unconfigured ∨
      ∃ n, unconfigured.afterCalls levels = ⟨n, some .stamped⟩ := by
  by_cases hnamed : ∃ level ∈ levels, ∃ n, Names level n
  · obtain ⟨before, level, n, later, rfl, hbefore, hlevel⟩ := exists_first hnamed
    exact Or.inr ⟨n, afterCalls_of_first hbefore hlevel later⟩
  · refine Or.inl (afterCalls_of_unnamed unconfigured ?_)
    intro level hmem n hn
    exact hnamed ⟨level, hmem, n, hn⟩

/-- In such a log a record makes one entry, or none. -/
theorem lines_once {log : Logging} (h : log = unconfigured ∨ ∃ n, log = ⟨n, some .stamped⟩)
    (stamp : Text) (record : LogRecord) :
    log.lines stamp record = [] ∨
      log.layout = none ∧ log.lines stamp record = record.message.lines ∨
      log.layout = some .stamped ∧ log.lines stamp record =
        (Text.join [stamp, " | ", record.level.name, " | ", record.message]).lines := by
  by_cases hadmits : log.admits record = true
  · rcases h with hlog | ⟨n, hlog⟩
    · have hlayout : log.layout = none := congrArg layout hlog
      by_cases hwarning : Level.warning.number ≤ record.level.number
      · refine Or.inr (Or.inl ⟨hlayout, ?_⟩)
        simp [lines, hadmits, entry?, hlayout, hwarning]
      · refine Or.inl ?_
        simp [lines, hadmits, entry?, hlayout, hwarning]
    · have hlayout : log.layout = some .stamped := congrArg layout hlog
      refine Or.inr (Or.inr ⟨hlayout, ?_⟩)
      simp [lines, hadmits, entry?, hlayout]
  · refine Or.inl ?_
    simp [lines, hadmits]

/-- **The log is configured once**, by the first value that names a threshold, whatever
the values of the other calls are. -/
theorem log_configured_once (levels : List Value) : ConfiguredOnce levels where
  succeeds := by
    intro before level later _
    exact attempt_ok_iff level _
  fails := by
    intro before level later _ hunnamed
    rcases names_or_refused level with ⟨n, hn⟩ | ⟨f, hf⟩
    · exact absurd hn (hunnamed n)
    · exact ⟨f, hf, hf.className, attempt_of_refused hf _⟩
  first := by
    intro before level later n hlevels hbefore hlevel
    refine ⟨afterCalls_of_unnamed unconfigured hbefore, ?_, ?_⟩
    · rw [attempt_of_names hlevel]
      rfl
    · rw [hlevels]
      exact afterCalls_of_first hbefore hlevel later
  later := by
    intro before level later _ hnamed
    obtain ⟨first, l, n, rest, rfl, hfirst, hl⟩ := exists_first hnamed
    rw [afterCalls_of_first hfirst hl rest]
    exact attempt_installed level n .stamped
  never := fun h => afterCalls_of_unnamed unconfigured h
  once := fun before _ _ stamp record => lines_once (afterCalls_cases before) stamp record

end InitialLoad.Logging
