import InitialLoad.Proofs.Connection
import InitialLoad.Proofs.EntityReading
import InitialLoad.Proofs.FailureLaws
import InitialLoad.Proofs.Histories
import InitialLoad.Proofs.Stores
import InitialLoad.Seeder.Program

/-!
# Which failures are reported as a duplicate

An operation changes the words of two refusals only.  When the server refuses to create a
database user with the code for one that exists, the report names the database user; when
it refuses a document because of a repeated key, the report names the collection and the
identifier of the very element whose document it was.  In both cases the refusal is the
cause.  Every other failure, of a call or of the operation itself, is passed on.

Whose turn it is at a place, `Operation.due`, is told by the number of insertions that
were accepted there.  `Operation.law` puts all this into a law of failing, and
`Operation.obeys` goes through the operations rule by rule.
-/

namespace InitialLoad

variable {σ α β : Type}

/-- The problem is the report of a duplicate. -/
def Problem.isDuplicateEntity : Problem → Bool
  | .duplicateEntity _ _ => true
  | _ => false

/-! ## Calculations report no duplicates -/

/-- The calculation does not fail with the report of a duplicate. -/
def ReportsNoDuplicate (e : Except Failure α) : Prop :=
  ∀ f, e = .error f → f.problem.isDuplicateEntity = false

namespace ReportsNoDuplicate

theorem ok (a : α) : ReportsNoDuplicate (.ok a : Except Failure α) := nofun

theorem error {f : Failure} (h : f.problem.isDuplicateEntity = false) :
    ReportsNoDuplicate (.error f : Except Failure α) := by
  intro g hg
  cases hg
  exact h

theorem bind {e : Except Failure α} {next : α → Except Failure β} (h : ReportsNoDuplicate e)
    (hnext : ∀ a, ReportsNoDuplicate (next a)) : ReportsNoDuplicate (e >>= next) := by
  cases e with
  | error f => exact error (h f rfl)
  | ok a => exact hnext a

theorem map {e : Except Failure α} (h : ReportsNoDuplicate e) (f : α → β) :
    ReportsNoDuplicate (e.map f) := by
  cases e with
  | error g => exact error (h g rfl)
  | ok a => exact ok _

end ReportsNoDuplicate

namespace Value

theorem member_reportsNoDuplicate (name : Text) (v : Value) :
    ReportsNoDuplicate (v.member name) := by
  unfold member
  split
  · split
    · exact .ok _
    · exact .error rfl
  · exact .error rfl

theorem items_reportsNoDuplicate (v : Value) : ReportsNoDuplicate v.items := by
  unfold items
  split
  all_goals first
    | exact .ok _
    | exact .error rfl

theorem toObjects_reportsNoDuplicate (vs : List Value) : ReportsNoDuplicate (toObjects vs) := by
  induction vs with
  | nil => exact .ok _
  | cons v rest ih =>
      have hfirst : ReportsNoDuplicate v.toObject := by
        unfold toObject
        split
        · exact .ok _
        · exact .error rfl
      exact hfirst.bind fun _ => ih.bind fun _ => .ok _

theorem toCommand_reportsNoDuplicate (v : Value) : ReportsNoDuplicate v.toCommand := by
  unfold toCommand
  split
  · refine (member_reportsNoDuplicate _ _).bind fun _ => ?_
    refine (member_reportsNoDuplicate _ _).bind fun roles => ?_
    refine (items_reportsNoDuplicate roles).bind fun grants => ?_
    exact (toObjects_reportsNoDuplicate grants).bind fun _ => .ok _
  · exact .error rfl

theorem toDocument_reportsNoDuplicate (v : Value) : ReportsNoDuplicate v.toDocument := by
  unfold toDocument
  split
  · unfold withoutEmptyRights
    split
    · exact .error rfl
    · exact .ok _
  · exact .ok _
  · exact .ok _
  · exact .error rfl

end Value

namespace Seeding

theorem grantsLine_reportsNoDuplicate (principal : Value) :
    ReportsNoDuplicate (grantsLine principal) := by
  have hwordings : ∀ grants, ReportsNoDuplicate (grantWordings grants) := by
    intro grants
    induction grants with
    | nil => exact .ok _
    | cons grant rest ih =>
        have hgrant : ReportsNoDuplicate (grantWording grant) :=
          (Value.member_reportsNoDuplicate _ _).bind fun _ =>
            (Value.member_reportsNoDuplicate _ _).bind fun _ => .ok _
        exact hgrant.bind fun _ => ih.bind fun _ => .ok _
  refine (Value.member_reportsNoDuplicate _ _).bind fun roles => ?_
  exact (Value.items_reportsNoDuplicate roles).bind fun grants =>
    (hwordings grants).bind fun _ => .ok _

theorem readFound_reportsNoDuplicate (kind : Kind) (found : Option Document) :
    ReportsNoDuplicate (readFound kind found) := by
  cases found with
  | none => exact .ok _
  | some doc =>
      have hread : ReportsNoDuplicate (kind.read doc) := by
        unfold Kind.read
        split
        · exact .ok _
        · exact .error rfl
      exact hread.map some

theorem sortedIds_reportsNoDuplicate (docs : List Document) :
    ReportsNoDuplicate (sortedIds docs) := by
  have hids : ∀ docs, ReportsNoDuplicate (idsOf docs) := by
    intro docs
    induction docs with
    | nil => exact .ok _
    | cons doc rest ih =>
        unfold idsOf
        split
        · exact .error rfl
        · exact ih.map _
  refine (hids docs).bind fun ids => ?_
  split
  · exact .ok _
  · exact .error rfl

/-! ## The law of an operation -/

/-- The database user that an operation creates. -/
def Operation.principal? : Operation → Option Value
  | .createAppUser principal => some principal
  | .seed _ principal _ _ => some principal
  | _ => none

/-- The indexes that an operation creates. -/
def Operation.table : Operation → IndexTable
  | .ensureIndexes table => table
  | .seed table _ _ _ => table
  | _ => []

/-- The elements that an operation inserts at a place. -/
def Operation.elementsAt (database : Text) (place : Place) : Operation → List Value
  | .insertApps apps => if place = appsOf database then apps else []
  | .insertUsers users => if place = usersOf database then users else []
  | .seed _ _ apps users =>
    if place = appsOf database then apps else if place = usersOf database then users else []
  | _ => []

/-- What an operation looks up: the kind of the entity, the place and the identifier. -/
def Operation.lookup? (database : Text) : Operation → Option (Kind × Place × Value)
  | .getApp id => some (.app, appsOf database, id)
  | .getUser id => some (.user, usersOf database, id)
  | _ => none

/-- The number of documents that were inserted at a place. -/
def insertedAt (place : Place) (past : List Answered) : Nat :=
  past.countP fun x => match x.request with
    | .insertOne other _ => other = place
    | _ => false

/-- The element whose turn it is at a place. -/
def Operation.due (database : Text) (operation : Operation) (place : Place)
    (past : List Answered) : Option Value :=
  (operation.elementsAt database place)[insertedAt place past]?

/-- The refusal of the call says that there is such a database user, or a document with
the same key, already. -/
def saysDuplicate : Request → Failure → Bool
  | .createUser _ _ _ _, f => f.problem.isRefusalWith Store.userExistsCode
  | .insertOne _ _, f => f.problem.isDuplicateKey
  | _, _ => false

/-- The failures of an operation's own, after a past: of its calculations on the database
user, on the definition of an index, on the element whose turn it is, and on what was
answered to it last. -/
inductive Operation.Raises (database : Text) (operation : Operation) (past : List Answered) :
    Failure → Prop
  | name {principal : Value} {f : Failure} (hprincipal : operation.principal? = some principal)
      (h : principal.member "user" = .error f) : Raises database operation past f
  | command {principal : Value} {f : Failure} (hprincipal : operation.principal? = some principal)
      (h : principal.toCommand = .error f) : Raises database operation past f
  | grants {principal : Value} {f : Failure} (hprincipal : operation.principal? = some principal)
      (h : grantsLine principal = .error f) : Raises database operation past f
  | keys {entry : Text × List Document} {definition : Document}
      (hentry : entry ∈ operation.table) (hdefinition : definition ∈ entry.2)
      (h : definition.get? "keys" = none) :
      Raises database operation past (Failure.of (.missingKey (.text "keys")))
  | document {place : Place} {element : Value} {f : Failure}
      (hdue : operation.due database place past = some element)
      (h : element.toDocument = .error f) : Raises database operation past f
  | entity {kind : Kind} {place : Place} {id : Value} {found : Option Document} {f : Failure}
      (hlookup : operation.lookup? database = some (kind, place, id))
      (hpast : past = [⟨.findOne place id, found⟩]) (h : readFound kind found = .error f) :
      Raises database operation past f
  | identifiers {earlier : List Answered} {place : Place} {docs : List Document} {f : Failure}
      (hpast : past = earlier ++ [⟨.findIds place, docs⟩]) (h : sortedIds docs = .error f) :
      Raises database operation past f

/-- How an operation reports a refused call after a past: as a duplicate database user of
the name of its principal, as a duplicate of the element whose turn it is, whose document
the call had, or as it is. -/
inductive Operation.Reports (database : Text) (operation : Operation) (past : List Answered) :
    Request → Failure → Failure → Prop
  | user {principal user pwd : Value} {roles : List Value} {f : Failure}
      (hduplicate : saysDuplicate (.createUser database user pwd roles) f = true)
      (hprincipal : operation.principal? = some principal)
      (huser : principal.member "user" = .ok user) :
      Reports database operation past (.createUser database user pwd roles) f
        (Failure.because (.duplicateEntity (.text "user") user) f)
  | element {place : Place} {element id : Value} {doc : Document} {f : Failure}
      (hduplicate : saysDuplicate (.insertOne place doc) f = true)
      (hdue : operation.due database place past = some element)
      (hdoc : element.toDocument = .ok doc) (hid : element.member "id" = .ok id) :
      Reports database operation past (.insertOne place doc) f
        (Failure.because (.duplicateEntity (.text place.collection) id) f)
  | passedOn {q : Request} {f : Failure} (h : saysDuplicate q f = false) :
      Reports database operation past q f f

/-- How an operation fails. -/
def Operation.law (database : Text) (operation : Operation) : FailureLaw :=
  ⟨operation.Raises database, operation.Reports database⟩

/-- No failure of an operation's own is the report of a duplicate. -/
theorem Operation.Raises.noDuplicate {database : Text} {operation : Operation}
    {past : List Answered} {f : Failure} (h : operation.Raises database past f) :
    f.problem.isDuplicateEntity = false := by
  cases h with
  | name _ h => exact Value.member_reportsNoDuplicate _ _ f h
  | command _ h => exact Value.toCommand_reportsNoDuplicate _ f h
  | grants _ h => exact grantsLine_reportsNoDuplicate _ f h
  | keys _ _ h => rfl
  | document _ h => exact Value.toDocument_reportsNoDuplicate _ f h
  | entity _ _ h => exact readFound_reportsNoDuplicate _ _ f h
  | identifiers _ h => exact sortedIds_reportsNoDuplicate _ f h

/-! ## The operations obey their law -/

section

variable {database : Text} {operation : Operation} {past : List Answered}

/-- Creating the database user, which inserts nothing. -/
theorem createAppUser_obeys {principal : Value}
    (hprincipal : operation.principal? = some principal) :
    Job.Obeys (operation.law database) past (createAppUser database principal) fun now _ =>
      ∀ place, insertedAt place now = insertedAt place past := by
  refine .bind (.ofExcept fun f hf => .name hprincipal hf) ?_
  rintro _ user ⟨rfl, huser⟩
  refine .bind (.ofExcept fun f hf => .command hprincipal hf) ?_
  rintro _ command ⟨rfl, hcommand⟩
  refine .bind (.call fun f => ?_) ?_
  · by_cases hcode : f.problem.isRefusalWith Store.userExistsCode = true
    · rw [whenUserRefused, if_pos hcode]
      exact .user hcode hprincipal huser
    · rw [whenUserRefused, if_neg hcode]
      exact .passedOn (Bool.eq_false_iff.mpr hcode)
  · rintro _ _ rfl
    refine .bind (.ofExcept fun f hf => .grants hprincipal hf) ?_
    rintro _ grants ⟨rfl, -⟩
    refine (Job.Obeys.info _ _).mono ?_
    rintro _ _ rfl place
    simp [insertedAt]

/-- Creating indexes, which inserts nothing either. -/
theorem createIndexes_obeys {place : Place} {definitions : List Document}
    (hraises : ∀ definition ∈ definitions, definition.get? "keys" = none → ∀ now,
      operation.Raises database now (Failure.of (.missingKey (.text "keys")))) :
    Job.Obeys (operation.law database) past (createIndexes place definitions) fun now _ =>
      ∀ place, insertedAt place now = insertedAt place past := by
  induction definitions generalizing past with
  | nil => exact .pure fun _ => rfl
  | cons definition rest ih =>
      have hfirst : Job.Obeys (operation.law database) past (createIndex place definition)
          fun now _ => ∀ place, insertedAt place now = insertedAt place past := by
        unfold createIndex
        cases hkeys : definition.get? "keys" with
        | none => exact .fail (hraises definition List.mem_cons_self hkeys past)
        | some keys =>
            have hcall : Job.Obeys (operation.law database) past
                (Job.request (.createIndex place keys (definition.erase "keys"))) _ :=
              .request fun f => .passedOn rfl
            refine hcall.mono ?_
            rintro _ _ rfl other
            simp [insertedAt]
      refine .bind hfirst fun now _ hnow => ?_
      refine (ih fun d hd => hraises d (List.mem_cons_of_mem _ hd)).mono ?_
      exact fun later _ hlater other => (hlater other).trans (hnow other)

theorem ensureIndexes_obeys {table : IndexTable}
    (htable : ∀ entry ∈ table, entry ∈ operation.table) :
    Job.Obeys (operation.law database) past (ensureIndexes database table) fun now _ =>
      ∀ place, insertedAt place now = insertedAt place past := by
  induction table generalizing past with
  | nil => exact .pure fun _ => rfl
  | cons entry rest ih =>
      have hraises : ∀ definition ∈ entry.2, definition.get? "keys" = none → ∀ now,
          operation.Raises database now (Failure.of (.missingKey (.text "keys"))) :=
        fun definition hdefinition hkeys now =>
          .keys (htable entry List.mem_cons_self) hdefinition hkeys
      refine .bind (createIndexes_obeys hraises) fun now _ hnow => ?_
      refine (ih fun other hother => htable other (List.mem_cons_of_mem _ hother)).mono ?_
      exact fun later _ hlater place => (hlater place).trans (hnow place)

/-- Inserting the element whose turn it is. -/
theorem insertOne_obeys {place : Place} {element : Value} (hformed : element.Formed)
    (hdue : operation.due database place past = some element) :
    Job.Obeys (operation.law database) past (insertOne place element) fun now _ =>
      ∀ other, insertedAt other now =
        insertedAt other past + if other = place then 1 else 0 := by
  refine .bind (.ofExcept fun f hf => .document hdue hf) ?_
  rintro _ doc ⟨rfl, hdoc⟩
  refine (Job.Obeys.call fun f => ?_).mono ?_
  · by_cases hduplicate : f.problem.isDuplicateKey = true
    · obtain ⟨id, hid⟩ := hformed.member_id hdoc
      rw [whenInsertRefused, if_pos hduplicate, hid]
      exact .element hduplicate hdue hdoc hid
    · rw [whenInsertRefused, if_neg hduplicate]
      exact .passedOn (Bool.eq_false_iff.mpr hduplicate)
  · rintro _ _ rfl other
    by_cases hother : other = place
    · simp [insertedAt, hother]
    · simp [insertedAt, hother, Ne.symm hother]

/-- Inserting the elements from the one whose turn it is to the last one. -/
theorem insertEach_obeys {place : Place} {before elements : List Value}
    (helements : operation.elementsAt database place = before ++ elements)
    (hformed : ∀ e ∈ elements, e.Formed) (hpast : insertedAt place past = before.length) :
    Job.Obeys (operation.law database) past (insertEach place elements) fun now _ =>
      ∀ other, other ≠ place → insertedAt other now = insertedAt other past := by
  -- The elements before are those inserted so far, so the first of the others is due.
  induction elements generalizing past before with
  | nil => exact .pure fun _ _ => rfl
  | cons element rest ih =>
      have hdue : operation.due database place past = some element := by
        rw [Operation.due, helements, hpast]
        simp
      refine .bind (insertOne_obeys (hformed element List.mem_cons_self) hdue) ?_
      intro now _ hnow
      have hcount : insertedAt place now = (before ++ [element]).length := by
        rw [hnow place, if_pos rfl, hpast, List.length_append, List.length_singleton]
      have hrest : operation.elementsAt database place = (before ++ [element]) ++ rest := by
        rw [helements, List.append_assoc]
        rfl
      refine (ih hrest (fun e he => hformed e (List.mem_cons_of_mem _ he)) hcount).mono ?_
      intro later _ hlater other hother
      rw [hlater other hother, hnow other, if_neg hother, Nat.add_zero]

theorem insertAll_obeys {place : Place} {elements : List Value}
    (helements : operation.elementsAt database place = elements)
    (hformed : ∀ e ∈ elements, e.Formed) (hpast : insertedAt place past = 0) :
    Job.Obeys (operation.law database) past (insertAll place elements) fun now _ =>
      ∀ other, other ≠ place → insertedAt other now = insertedAt other past := by
  have hall : operation.elementsAt database place = [] ++ elements := helements
  refine .bind (insertEach_obeys hall hformed hpast) fun now _ hnow => ?_
  refine .bind (.info _ _) ?_
  rintro _ _ rfl
  exact .pure hnow

/-- Looking up an entity. -/
theorem lookup_obeys {kind : Kind} {place : Place} {id : Value}
    (hlookup : operation.lookup? database = some (kind, place, id)) :
    Job.Obeys (operation.law database) []
      (Job.request (.findOne place id) >>= fun found => Job.ofExcept (readFound kind found))
      fun _ _ => True := by
  refine .bind (.request fun f => .passedOn rfl) ?_
  rintro _ found rfl
  have hread : Job.Obeys (operation.law database) ([] ++ [⟨.findOne place id, found⟩])
      (Job.ofExcept (readFound kind found)) _ := .ofExcept fun f hf => .entity hlookup rfl hf
  exact hread.mono fun _ _ _ => trivial

theorem presentIds_obeys (place : Place) :
    Job.Obeys (operation.law database) past (presentIds place) fun _ _ => True := by
  refine .bind (.request fun f => .passedOn rfl) ?_
  rintro _ docs rfl
  have hsorted : Job.Obeys (operation.law database) (past ++ [⟨.findIds place, docs⟩])
      (Job.ofExcept (sortedIds docs)) _ := .ofExcept fun f hf => .identifiers rfl hf
  exact hsorted.mono fun _ _ _ => trivial

end

/-- A seed, for any database user and with any elements. -/
theorem seed_obeys (database : Text) (table : IndexTable) (principal : Value)
    {apps users : List Value} (hformed : ∀ e ∈ apps ++ users, e.Formed) :
    Job.Obeys ((Operation.seed table principal apps users).law database) []
      (seed database table principal apps users) fun _ _ => True := by
  have hplaces := appsOf_ne_usersOf database
  refine .bind .now ?_
  rintro _ start rfl
  refine .bind (.info _ _) ?_
  rintro _ _ rfl
  refine .bind (createAppUser_obeys rfl) fun afterUser _ huser => ?_
  refine .bind (ensureIndexes_obeys fun _ h => h) fun afterIndexes _ hindexes => ?_
  have hnone : ∀ place, insertedAt place afterIndexes = 0 :=
    fun place => (hindexes place).trans (huser place)
  have happsFormed : ∀ e ∈ apps, e.Formed := fun e he => hformed e (List.mem_append_left _ he)
  refine .bind (insertAll_obeys (if_pos rfl) happsFormed (hnone _)) fun afterApps _ happs => ?_
  have hnoUser : insertedAt (usersOf database) afterApps = 0 :=
    (happs _ hplaces.symm).trans (hnone _)
  have husersFormed : ∀ e ∈ users, e.Formed := fun e he => hformed e (List.mem_append_right _ he)
  refine .bind (insertAll_obeys ((if_neg hplaces.symm).trans (if_pos rfl)) husersFormed hnoUser)
    fun afterUsers _ _ => ?_
  refine .bind .now ?_
  rintro _ finish rfl
  refine .bind (.ofExcept fun f hf => .name rfl hf) fun _ _ _ => ?_
  exact .pure trivial

/-- **Every operation obeys its law**, from the beginning. -/
theorem Operation.obeys (database : Text) (operation : Operation)
    (hformed : ∀ e ∈ operation.elements, e.Formed) :
    Job.Obeys (operation.law database) [] (operation.job database) fun _ _ => True := by
  cases operation with
  | createAppUser principal => exact (createAppUser_obeys rfl).mono fun _ _ _ => trivial
  | ensureIndexes table =>
      exact (ensureIndexes_obeys fun _ h => h).mono fun _ _ _ => trivial
  | insertApps apps =>
      have happs : Job.Obeys ((Operation.insertApps apps).law database) []
          (insertAll (appsOf database) apps) _ := insertAll_obeys (if_pos rfl) hformed rfl
      exact .discard (happs.mono fun _ _ _ => trivial)
  | insertUsers users =>
      have husers : Job.Obeys ((Operation.insertUsers users).law database) []
          (insertAll (usersOf database) users) _ := insertAll_obeys (if_pos rfl) hformed rfl
      exact .discard (husers.mono fun _ _ _ => trivial)
  | seed table principal apps users => exact .discard (seed_obeys database table principal hformed)
  | getApp id => exact .discard (lookup_obeys rfl)
  | getUser id => exact .discard (lookup_obeys rfl)
  | verify =>
      refine .discard (.bind (presentIds_obeys _) fun _ _ _ => ?_)
      refine .bind (presentIds_obeys _) fun _ _ _ => ?_
      exact .pure trivial

/-! ## What comes of an operation -/

/-- A run of an operation, by its result, its calls and the state that it left, in which
failures come out as the law of the operation says. -/
structure Operation.Translates (server : Server σ) (database : Text) (operation : Operation)
    (s : σ) (result : Except Failure α) (calls : List Request) (final : σ) : Prop where
  ends : (∃ past, Answers server s past final ∧ calls = past.map Answered.request ∧
      ((∃ a, result = .ok a) ∨ ∃ g, result = .error g ∧ operation.Raises database past g)) ∨
    ∃ past q t f g, Answers server s past t ∧ server.answer q t = (.error f, final) ∧
      calls = past.map Answered.request ++ [q] ∧ result = .error g ∧
      operation.Reports database past q f g
  duplicates : (∀ q s f t, server.answer q s = (.error f, t) →
      f.problem.isDuplicateEntity = false) →
    ((∃ g, result = .error g ∧ g.problem.isDuplicateEntity = true) ↔
      ∃ past q t f, Answers server s past t ∧ server.answer q t = (.error f, final) ∧
        calls = past.map Answered.request ++ [q] ∧ saysDuplicate q f = true)

/-- A job that obeys the law of an operation, in a run. -/
theorem Operation.translates_of_obeys {database : Text} {operation : Operation} {job : Job α}
    (h : Job.Obeys (operation.law database) [] job fun _ _ => True) (server : Server σ) (s : σ)
    (c : Clock) :
    let o := Job.outcome server job s c
    operation.Translates server database s o.result (Event.calls o.events) o.state := by
  intro o
  have hrun := Procedure.Obeys.run h server s c
  simp only [List.nil_append, and_true] at hrun
  refine ⟨hrun, fun hserver => ⟨?_, ?_⟩⟩
  · rintro ⟨g, hg, hduplicate⟩
    obtain ⟨past, -, -, ⟨a, ha⟩ | ⟨g', hg', hraises⟩⟩ |
      ⟨past, q, t, f, g', hpast, hrefused, hcalls, hg', hreports⟩ := hrun
    · cases hg.symm.trans ha
    · cases hg.symm.trans hg'
      have hraises : operation.Raises database past g := hraises
      rw [hraises.noDuplicate] at hduplicate
      cases hduplicate
    · cases hg.symm.trans hg'
      refine ⟨past, q, t, f, hpast, hrefused, hcalls, ?_⟩
      have hreports : operation.Reports database past q f g := hreports
      cases hreports with
      | user htaken => exact htaken
      | element htaken => exact htaken
      | passedOn =>
          rw [hserver q t g _ hrefused] at hduplicate
          cases hduplicate
  · -- The server answers the same calls in the same way, so this refusal ended the run.
    rintro ⟨past, q, t, f, hpast, hrefused, hcalls, htaken⟩
    obtain ⟨past', hpast', hcalls', -⟩ |
      ⟨past', q', t', f', g, hpast', hrefused', hcalls', hg, hreports⟩ := hrun
    · exact absurd (hcalls'.symm.trans hcalls) (hpast.ne_of_refused hrefused hpast')
    · obtain ⟨hsame, hlast⟩ := List.append_inj' (hcalls'.symm.trans hcalls) rfl
      obtain ⟨rfl, rfl⟩ := hpast'.unique hpast hsame
      cases hlast
      cases hrefused'.symm.trans hrefused
      refine ⟨g, hg, ?_⟩
      have hreports : operation.Reports database past' q f g := hreports
      cases hreports with
      | user => rfl
      | element => rfl
      | passedOn hnot =>
          rw [htaken] at hnot
          cases hnot

/-- The run of a seed for the principal of the settings: with settings it is the seed for
that principal, and without them it fails before any call. -/
theorem outcome_seed_default (server : Server σ) (table : IndexTable) (database : Text)
    (apps users : List Value) (x : Seeder) (s : σ) (c : Clock) :
    let o := Action.outcome server (Seeder.seed table database none apps users) x s c
    (∀ f, x.resolution.1 = .error f →
      o.result.1 = .error f ∧ Event.calls o.events = [] ∧ o.state = s) ∧
    ∀ v, x.resolution.1 = .ok v →
      let seeding := Job.outcome server (seed database table v.principal.toValue apps users) s c
      o.result.1 = seeding.result ∧ Event.calls o.events = Event.calls seeding.events ∧
        o.state = seeding.state := by
  intro o
  have hseed : Seeder.seed table database none apps users =
      Seeder.getSettings >>= fun v =>
        Action.ofJob (seed database table v.principal.toValue apps users) := by
    simp only [Seeder.seed, Seeder.appPrincipal, bind_map_left, bind_assoc, pure_bind]
  have hsettings : Action.outcome server Seeder.getSettings x s c = _ := Seeder.outcome_getSettings
  refine ⟨?_, ?_⟩
  · intro f hf
    rw [hf] at hsettings
    have ho : o = _ := (congrArg (fun a => Action.outcome server a x s c) hseed).trans
      (Action.outcome_bind_error _ hsettings)
    rw [ho]
    exact ⟨rfl, Event.calls_map_record _, rfl⟩
  · intro v hv seeding
    rw [hv] at hsettings
    have ho : o = _ := (congrArg (fun a => Action.outcome server a x s c) hseed).trans
      (Action.outcome_bind_ok _ hsettings)
    rw [Action.outcome_ofJob] at ho
    rw [ho]
    exact ⟨rfl, by simp [Outcome.afterAll, seeding], rfl⟩

/-- **Errors are translated in two places, and passed on everywhere else.**  Against every
server and with any arguments, whose records have the fields of their kinds, every
operation fails as its law says.  So does a seed for the principal of the settings, unless
these cannot be resolved, which is passed on before any call. -/
theorem errors_translated (server : Server σ) (database : Text) (s : σ) (c : Clock) :
    (∀ operation : Operation, (∀ e ∈ operation.elements, e.Formed) →
      let o := Job.outcome server (operation.job database) s c
      operation.Translates server database s o.result (Event.calls o.events) o.state) ∧
    ∀ (x : Seeder) (table : IndexTable) (apps users : List Value),
      (∀ e ∈ apps ++ users, e.Formed) →
        let o := Action.outcome server (Seeder.seed table database none apps users) x s c
        (∃ f, x.resolution.1 = .error f ∧ f.problem.isDuplicateEntity = false ∧
            o.result.1 = .error f ∧ Event.calls o.events = [] ∧ o.state = s) ∨
          ∃ v, x.resolution.1 = .ok v ∧
            (Operation.seed table v.principal.toValue apps users).Translates server database s
              o.result.1 (Event.calls o.events) o.state := by
  refine ⟨?_, ?_⟩
  · intro operation hformed
    exact Operation.translates_of_obeys (operation.obeys database hformed) server s c
  · intro x table apps users hformed o
    obtain ⟨hunresolved, hresolved⟩ :=
      outcome_seed_default server table database apps users x s c
    cases hresolution : x.resolution.1 with
    | error f =>
        obtain ⟨hresult, hcalls, hstate⟩ := hunresolved f hresolution
        refine Or.inl ⟨f, rfl, ?_, hresult, hcalls, hstate⟩
        obtain ⟨faults, rfl⟩ | ⟨fault, rfl⟩ := x.resolution_fails.1 f hresolution <;> rfl
    | ok v =>
        obtain ⟨hresult, hcalls, hstate⟩ := hresolved v hresolution
        refine Or.inr ⟨v, rfl, ?_⟩
        rw [hresult, hcalls, hstate]
        exact Operation.translates_of_obeys
          (seed_obeys database table v.principal.toValue hformed) server s c

/-- A user that was read and then changed, between two of one name, for an index that
admits each name once: the report names the identifier of the last one. -/
theorem errors_translated_repeated_name :
    let byName : Index := ⟨"name_1", [⟨"name", .int 1⟩], true, false, []⟩
    let s := Store.empty.setCollection (usersOf "db") ⟨[], [byName]⟩
    let changed : Value := .record .user
      [("id", .text "x"), ("name", .text "Bob"), ("age", .null), ("friend", .null)]
    let operation := Operation.insertUsers
      [User.toValue ⟨1, "Ada", none, "Bob"⟩, changed, User.toValue ⟨3, "Ada", some 30, "Bob"⟩]
    let o := Job.outcome Store.server (operation.job "db") s []
    (∀ e ∈ operation.elements, e.Formed) ∧
      operation.Translates Store.server "db" s o.result (Event.calls o.events) o.state ∧
      ∃ cause, o.result = .error
        (Failure.because (.duplicateEntity (.text "users") (.int 3)) (Failure.of cause)) := by
  intro byName s changed operation o
  have hread : Kind.read .user [("id", .int 2), ("name", .text "Bob"), ("friend", .text "Ada")] =
      .ok (User.toValue ⟨2, "Bob", none, "Ada"⟩) := rfl
  have hassigned : (User.toValue ⟨2, "Bob", none, "Ada"⟩).assignAll
      [⟨[], .field "id", .text "x"⟩, ⟨[], .field "friend", .null⟩] = .ok changed := rfl
  have hformed : ∀ e ∈ operation.elements, e.Formed := by
    intro e he
    simp only [operation, Operation.elements, List.mem_cons, List.not_mem_nil, or_false] at he
    obtain rfl | rfl | rfl := he
    · rfl
    · exact (Value.formed_of_read hread).assignAll hassigned
    · rfl
  exact ⟨hformed, (errors_translated Store.server "db" s []).1 operation hformed, _, rfl⟩

end Seeding

end InitialLoad
