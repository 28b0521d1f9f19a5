import InitialLoad.Proofs.ReadYourWrites
import InitialLoad.Proofs.Sorting
import Mathlib.Data.Int.Order.Basic
import Mathlib.Data.List.Lex

/-!
# Which identifiers are reported as present

The report on a database lists, for each of its two collections, the identifiers of the
documents that have one, in ascending order.  Documents of other writers may have a text
or null there.  Identifiers that are all integers, or all texts, have an order, and so has
a single one of any kind; two or more that are `Mixed` have none.

The report depends only on which identifiers there are: there is one ascending order of
them (`Ascending.eq_of_perm`), and mixed they stay in every order.
-/

namespace InitialLoad

namespace Value

/-! ## Identifiers -/

/-- What identifies the documents of the loader and of other writers. -/
inductive Identifies : Value → Prop
  | integer (n : Int) : Identifies (.int n)
  | text (t : Text) : Identifies (.text t)
  | null : Identifies .null

/-- Every value is an integer. -/
def AllIntegers (ids : List Value) : Prop := ∀ id ∈ ids, ∃ n, id = .int n

/-- Every value is a text. -/
def AllTexts (ids : List Value) : Prop := ∀ id ∈ ids, ∃ t, id = .text t

/-- Two or more values that are not all integers and not all texts. -/
def Mixed (ids : List Value) : Prop := 2 ≤ ids.length ∧ ¬ AllIntegers ids ∧ ¬ AllTexts ids

/-- The first value may stand before the second: integers go by their value, texts by
their code points. -/
inductive AtMost : Value → Value → Prop
  | integers {m n : Int} (h : m ≤ n) : AtMost (.int m) (.int n)
  | texts {s t : Text} (h : s.map CodePoint.val ≤ t.map CodePoint.val) :
      AtMost (.text s) (.text t)

/-- Every value may stand before all that follow it. -/
def Ascending (ids : List Value) : Prop := ids.Pairwise AtMost

theorem AtMost.antisymm {v w : Value} (hvw : AtMost v w) (hwv : AtMost w v) : v = w := by
  cases hvw with
  | integers hmn =>
      cases hwv with
      | integers hnm => rw [Int.le_antisymm hmn hnm]
  | texts hst =>
      cases hwv with
      | texts hts =>
          have hval : Function.Injective CodePoint.val := fun _ _ => CodePoint.ext
          rw [List.map_injective_iff.mpr hval (le_antisymm hst hts)]

/-- There is only one ascending order. -/
theorem Ascending.eq_of_perm {vs ws : List Value} (hvs : Ascending vs) (hws : Ascending ws)
    (h : vs.Perm ws) : vs = ws :=
  h.eq_of_pairwise (fun _ _ _ _ => AtMost.antisymm) hvs hws

theorem Mixed.perm {vs ws : List Value} (hvs : Mixed vs) (h : vs.Perm ws) : Mixed ws := by
  obtain ⟨htwo, hintegers, htexts⟩ := hvs
  refine ⟨h.length_eq ▸ htwo, fun hall => hintegers ?_, fun hall => htexts ?_⟩
  · exact fun v hv => hall v (h.mem_iff.mp hv)
  · exact fun v hv => hall v (h.mem_iff.mp hv)

/-! ## The order of integers and of texts -/

/-- The place of an integer among the integers. -/
def integerKey (v : Value) : Int := v.whole?.getD 0

/-- The place of a text among the texts. -/
def textKey : Value → List Nat
  | .text t => t.map CodePoint.val
  | _ => []

theorem orderedBy_integerKey : OrderedBy integerKey fun v => ∃ n, v = .int n := by
  rintro v w ⟨m, rfl⟩ ⟨n, rfl⟩
  by_cases hlt : m < n
  · exact Or.inl ⟨congrArg Except.ok (decide_eq_true hlt), hlt⟩
  · exact Or.inr ⟨congrArg Except.ok (decide_eq_false hlt), Int.not_lt.mp hlt⟩

/-- Texts come in the order of their first different code points. -/
theorem before_iff (s t : Text) :
    s.before t = true ↔ s.map CodePoint.val < t.map CodePoint.val := by
  induction s generalizing t with
  | nil => cases t <;> simp [Text.before]
  | cons c s ih =>
      cases t with
      | nil => simp [Text.before]
      | cons d t => simp [Text.before, ih, List.cons_lt_cons_iff]

theorem orderedBy_textKey : OrderedBy textKey fun v => ∃ t, v = .text t := by
  rintro v w ⟨s, rfl⟩ ⟨t, rfl⟩
  have hiff := before_iff s t
  cases hbefore : s.before t with
  | true => exact Or.inl ⟨congrArg Except.ok hbefore, hiff.mp hbefore⟩
  | false =>
      refine Or.inr ⟨congrArg Except.ok hbefore, le_of_not_gt fun hlt => ?_⟩
      rw [hiff.mpr hlt] at hbefore
      cases hbefore

/-- **Sorting identifiers.**  Identifiers that are not mixed are sorted, and there is no
order of mixed ones. -/
theorem sorted_identifiers {ids : List Value} (hids : ∀ id ∈ ids, Identifies id) :
    ¬ Mixed ids ∧ (∃ ws, sorted ids = .ok ws ∧ Ascending ws ∧ ws.Perm ids) ∨
      Mixed ids ∧ ∃ clash, sorted ids = .error clash := by
  by_cases hintegers : AllIntegers ids
  · obtain ⟨ws, hws, hascend⟩ := sorted_ascends orderedBy_integerKey hintegers
    have hperm := sorted_perm hws
    refine Or.inl ⟨fun hmixed => hmixed.2.1 hintegers, ws, hws, ?_, hperm⟩
    refine hascend.imp_of_mem fun hv hw hle => ?_
    obtain ⟨m, rfl⟩ := hintegers _ (hperm.mem_iff.mp hv)
    obtain ⟨n, rfl⟩ := hintegers _ (hperm.mem_iff.mp hw)
    exact .integers hle
  · by_cases htexts : AllTexts ids
    · obtain ⟨ws, hws, hascend⟩ := sorted_ascends orderedBy_textKey htexts
      have hperm := sorted_perm hws
      refine Or.inl ⟨fun hmixed => hmixed.2.2 htexts, ws, hws, ?_, hperm⟩
      refine hascend.imp_of_mem fun hv hw hle => ?_
      obtain ⟨s, rfl⟩ := htexts _ (hperm.mem_iff.mp hv)
      obtain ⟨t, rfl⟩ := htexts _ (hperm.mem_iff.mp hw)
      exact .texts hle
    · match ids with
      | [] => exact absurd (fun id hid => nomatch hid) hintegers
      | [id] =>
          refine Or.inl ⟨fun hmixed => absurd hmixed.1 (by simp), [id], rfl, ?_, .refl _⟩
          exact List.pairwise_singleton _ _
      | a :: b :: rest =>
          refine Or.inr ⟨⟨by simp, hintegers, htexts⟩, ?_⟩
          cases hsorted : sorted (a :: b :: rest) with
          | error clash => exact ⟨clash, rfl⟩
          | ok ws =>
              -- A sort that succeeds leaves only integers, or only texts.
              exfalso
              have huniform := uniform_of_sorted hsorted
              cases htext : a.isText with
              | true =>
                  refine htexts fun id hid => ?_
                  obtain ⟨hnull, hsame⟩ := huniform id hid
                  rw [htext] at hsame
                  cases hids id hid with
                  | text t => exact ⟨t, rfl⟩
                  | integer n => cases hsame
                  | null => cases hnull
              | false =>
                  refine hintegers fun id hid => ?_
                  obtain ⟨hnull, hsame⟩ := huniform id hid
                  rw [htext] at hsame
                  cases hids id hid with
                  | integer n => exact ⟨n, rfl⟩
                  | text t => cases hsame
                  | null => cases hnull

end Value

namespace Seeding

open Value (Identifies Mixed Ascending)

/-! ## The report on a database -/

/-- The identifiers of the documents that have one, in the order of insertion. -/
def givenIds (docs : List Document) : List Value := docs.filterMap (Entries.get? "id")

/-- The identifiers in the answer of the server are those of the documents that have one. -/
theorem idsOf_project (c : Collection) : idsOf (c.project "id") = .ok (givenIds c.documents) := by
  unfold Collection.project givenIds
  induction c.documents with
  | nil => rfl
  | cons doc rest ih =>
      cases hid : Entries.get? (Text.ofString "id") doc with
      | none => simpa [List.filterMap_cons, hid] using ih
      | some id =>
          simp only [List.filterMap_cons, hid, Option.map_some, idsOf, ih]
          rfl

theorem sortedIds_project (c : Collection) :
    sortedIds (c.project "id") =
      (Value.sorted (givenIds c.documents)).mapError fun pair =>
        Failure.of (.incomparable pair) := by
  simp only [sortedIds, idsOf_project, bind, Except.bind]
  cases Value.sorted (givenIds c.documents) <;> rfl

/-- The identifiers of the apps of a database. -/
def appIds (database : Text) (s : Store) : List Value :=
  givenIds (s.collection (appsOf database)).documents

/-- The identifiers of the users of a database. -/
def userIds (database : Text) (s : Store) : List Value :=
  givenIds (s.collection (usersOf database)).documents

/-- The documents of the database have an identifier of the loader or of another writer,
or none. -/
structure Identified (database : Text) (s : Store) : Prop where
  apps : ∀ id ∈ appIds database s, Identifies id
  users : ∀ id ∈ userIds database s, Identifies id

/-- The same documents, inserted in another order. -/
structure Reordered (database : Text) (s t : Store) : Prop where
  apps : (s.collection (appsOf database)).documents.Perm (t.collection (appsOf database)).documents
  users : (s.collection (usersOf database)).documents.Perm
    (t.collection (usersOf database)).documents

namespace Reordered

variable {database : Text} {s t : Store}

theorem appIds (h : Reordered database s t) : (appIds database s).Perm (appIds database t) :=
  h.apps.filterMap _

theorem userIds (h : Reordered database s t) : (userIds database s).Perm (userIds database t) :=
  h.users.filterMap _

theorem identified (h : Reordered database s t) (hs : Identified database s) :
    Identified database t where
  apps := fun id hid => hs.apps id (h.appIds.mem_iff.mpr hid)
  users := fun id hid => hs.users id (h.userIds.mem_iff.mpr hid)

end Reordered

/-- A report only reads. -/
theorem state_verify (database : Text) (s : Store) (c : Clock) :
    (Job.outcome Store.server (verify database) s c).state = s := by
  let still : Request → Prop := fun q => ∃ place, q = .findIds place
  have hsends : Job.Sends still (verify database) := verify_sends ⟨_, rfl⟩ ⟨_, rfl⟩
  have hstep : ∀ q t, still q → t = s → (Store.server.answer q t).2 = s := by
    rintro q t ⟨place, rfl⟩ rfl
    rfl
  exact hsends.preserves hstep rfl c

/-- The identifiers of one collection are listed in ascending order, or they are mixed. -/
theorem sortedIds_cases {c : Collection} (h : ∀ id ∈ givenIds c.documents, Identifies id) :
    (¬ Mixed (givenIds c.documents) ∧ ∃ ids, sortedIds (c.project "id") = .ok ids ∧
        Ascending ids ∧ ids.Perm (givenIds c.documents)) ∨
      Mixed (givenIds c.documents) ∧
        ∃ f, sortedIds (c.project "id") = .error f ∧ f.problem.name = "TypeError" := by
  rw [sortedIds_project]
  obtain ⟨hplain, ids, hids, hascend, hperm⟩ | ⟨hmixed, pair, hpair⟩ := Value.sorted_identifiers h
  · exact Or.inl ⟨hplain, ids, by rw [hids]; rfl, hascend, hperm⟩
  · exact Or.inr ⟨hmixed, Failure.of (.incomparable pair), by rw [hpair]; rfl, rfl⟩

/-- What a report on a database, made in a store, says and does. -/
structure ReportsPresent (database : Text) (s : Store)
    (o : Outcome Store (Except Failure Present)) : Prop where
  unchanged : o.state = s
  apps : ∀ present, o.result = .ok present →
    Ascending present.apps ∧ present.apps.Perm (appIds database s)
  users : ∀ present, o.result = .ok present →
    Ascending present.users ∧ present.users.Perm (userIds database s)
  fails : ∀ f, o.result = .error f → f.problem.name = "TypeError"
  fails_iff : (∃ f, o.result = .error f) ↔ Mixed (appIds database s) ∨ Mixed (userIds database s)

namespace ReportsPresent

variable {database : Text} {s t : Store} {o p : Outcome Store (Except Failure Present)}

theorem of_error {f : Failure} (hstate : o.state = s) (hresult : o.result = .error f)
    (hname : f.problem.name = "TypeError")
    (hmixed : Mixed (Seeding.appIds database s) ∨ Mixed (userIds database s)) :
    ReportsPresent database s o where
  unchanged := hstate
  apps := by
    intro present h
    cases hresult.symm.trans h
  users := by
    intro present h
    cases hresult.symm.trans h
  fails := by
    intro g h
    cases hresult.symm.trans h
    exact hname
  fails_iff := ⟨fun _ => hmixed, fun _ => ⟨f, hresult⟩⟩

/-- The report on the same documents in another order is the same. -/
theorem reordered (hs : ReportsPresent database s o) (ht : ReportsPresent database t p)
    (h : Reordered database s t) {present : Present} (hresult : o.result = .ok present) :
    p.result = .ok present := by
  cases hother : p.result with
  | error f =>
      -- Identifiers that are mixed in one order are mixed in the other.
      have hmixed : Mixed (Seeding.appIds database s) ∨ Mixed (Seeding.userIds database s) :=
        (ht.fails_iff.mp ⟨f, hother⟩).imp (·.perm h.appIds.symm) (·.perm h.userIds.symm)
      obtain ⟨g, hg⟩ := hs.fails_iff.mpr hmixed
      cases hresult.symm.trans hg
  | ok other =>
      have happs : other.apps = present.apps :=
        (ht.apps _ hother).1.eq_of_perm (hs.apps _ hresult).1
          (((ht.apps _ hother).2.trans h.appIds.symm).trans (hs.apps _ hresult).2.symm)
      have husers : other.users = present.users :=
        (ht.users _ hother).1.eq_of_perm (hs.users _ hresult).1
          (((ht.users _ hother).2.trans h.userIds.symm).trans (hs.users _ hresult).2.symm)
      rcases other with ⟨apps, users⟩
      rw [show apps = present.apps from happs, show users = present.users from husers]

end ReportsPresent

theorem reportsPresent_verify {database : Text} {s : Store} (h : Identified database s)
    (c : Clock) : ReportsPresent database s (Job.outcome Store.server (verify database) s c) := by
  have hstate := state_verify database s c
  have hresult := verify_result database s c
  obtain ⟨happs, apps, hlistedApps, hsortedApps⟩ | ⟨hmixed, f, hf, hname⟩ := sortedIds_cases h.apps
  · obtain ⟨husers, users, hlistedUsers, hsortedUsers⟩ | ⟨hmixed, f, hf, hname⟩ :=
      sortedIds_cases h.users
    · rw [hlistedApps, hlistedUsers] at hresult
      refine ⟨hstate, ?_, ?_, ?_, ?_⟩ <;> rw [hresult]
      · rintro present ⟨⟩
        exact hsortedApps
      · rintro present ⟨⟩
        exact hsortedUsers
      · rintro f ⟨⟩
      · exact ⟨fun ⟨f, hf⟩ => (nomatch hf), fun hmixed => (hmixed.elim happs husers).elim⟩
    · rw [hlistedApps, hf] at hresult
      exact .of_error hstate hresult hname (Or.inr hmixed)
  · rw [hf] at hresult
    exact .of_error hstate hresult hname (Or.inl hmixed)

/-- **A report lists exactly the identifiers that are there.**  In every store whose
documents have an integer, a text or null as identifier, or none, a report on a database
changes nothing.  If it succeeds, it lists for each collection the identifiers of the
documents that have one, every one as often as it is there, in ascending order.  It fails,
because two values have no order, exactly when a collection has two or more identifiers
that are not all integers and not all texts.  The order of insertion plays no part. -/
theorem verify_lists_identifiers {database : Text} {s : Store} (h : Identified database s)
    (c : Clock) :
    let o := Job.outcome Store.server (verify database) s c
    ReportsPresent database s o ∧
      ∀ (t : Store) (d : Clock), Reordered database s t → ∀ present,
        o.result = .ok present ↔
          (Job.outcome Store.server (verify database) t d).result = .ok present := by
  intro o
  have hs : ReportsPresent database s o := reportsPresent_verify h c
  refine ⟨hs, fun t d hreordered present => ?_⟩
  have ht := reportsPresent_verify (hreordered.identified h) d
  have hback : Reordered database t s := ⟨hreordered.apps.symm, hreordered.users.symm⟩
  exact ⟨hs.reordered ht hreordered, ht.reordered hs hback⟩

/-- Two apps with one identifier among documents without any, and users that another
writer named: all of them are listed, in whatever order they came.  One user under null
beside them makes the report fail. -/
theorem verify_lists_identifiers_of_others :
    let apps : List Document := [[("id", .int 3)], [("name", .text "x")], [("id", .int 1)], [],
      [("id", .int 3)]]
    let users : List Document := [[("id", .text "b")], [("id", .text "B")]]
    let store : List Document → List Document → Store := fun apps users =>
      (Store.empty.setCollection (appsOf "db") ⟨apps, []⟩).setCollection (usersOf "db") ⟨users, []⟩
    let report := fun s => (Job.outcome Store.server (verify "db") s []).result
    let present : Present := ⟨[.int 1, .int 3, .int 3], [.text "B", .text "b"]⟩
    Identified "db" (store apps users) ∧
      report (store apps users) = .ok present ∧
      report (store apps.reverse users.reverse) = .ok present ∧
      ∃ f, report (store apps ([("id", .null)] :: users)) = .error f ∧
        f.problem.name = "TypeError" := by
  intro apps users store report present
  have happs : ∀ id ∈ appIds "db" (store apps users), Identifies id :=
    List.forall_mem_cons.mpr ⟨.integer 3, List.forall_mem_cons.mpr ⟨.integer 1,
      List.forall_mem_cons.mpr ⟨.integer 3, List.forall_mem_nil _⟩⟩⟩
  have husers : ∀ id ∈ userIds "db" (store apps users), Identifies id :=
    List.forall_mem_cons.mpr ⟨.text "b", List.forall_mem_cons.mpr ⟨.text "B",
      List.forall_mem_nil _⟩⟩
  have hidentified : Identified "db" (store apps users) := ⟨happs, husers⟩
  have hreordered : Reordered "db" (store apps users) (store apps.reverse users.reverse) :=
    ⟨apps.reverse_perm.symm, users.reverse_perm.symm⟩
  have hpresent : report (store apps users) = .ok present := rfl
  have hnull : Identified "db" (store apps ([("id", .null)] :: users)) :=
    ⟨happs, List.forall_mem_cons.mpr ⟨.null, husers⟩⟩
  have hmixed : Mixed (userIds "db" (store apps ([("id", .null)] :: users))) := by
    refine ⟨by decide, fun hintegers => ?_, fun htexts => ?_⟩
    · obtain ⟨n, hn⟩ := hintegers .null List.mem_cons_self
      cases hn
    · obtain ⟨t, ht⟩ := htexts .null List.mem_cons_self
      cases ht
  obtain ⟨f, hf⟩ := (verify_lists_identifiers hnull []).1.fails_iff.mpr (Or.inr hmixed)
  exact ⟨hidentified, hpresent,
    ((verify_lists_identifiers hidentified []).2 _ [] hreordered present).mp hpresent,
    f, hf, (verify_lists_identifiers hnull []).1.fails f hf⟩

end Seeding

end InitialLoad
