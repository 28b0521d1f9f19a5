import InitialLoad.Proofs.SeedCourse

/-!
# Histories of operations

What can be done to app store databases, one operation after the other.  An
operation may fail anywhere, and the next one starts in the state that it left.
What every call keeps is therefore kept by every history, whichever of its
operations succeed.
-/

namespace InitialLoad.Seeding

variable {σ : Type}

/-- An operation on an app store database. -/
inductive Operation where
  | createAppUser (principal : Value)
  | ensureIndexes (table : IndexTable)
  | insertApps (apps : List Value)
  | insertUsers (users : List Value)
  | seed (table : IndexTable) (principal : Value) (apps users : List Value)
  | getApp (id : Value)
  | getUser (id : Value)
  | verify

/-- The operation as a job, without its result. -/
def Operation.job (database : Text) : Operation → Job Unit
  | .createAppUser principal => Seeding.createAppUser database principal
  | .ensureIndexes table => Seeding.ensureIndexes database table
  | .insertApps apps => discard (Seeding.insertApps database apps)
  | .insertUsers users => discard (Seeding.insertUsers database users)
  | .seed table principal apps users =>
    discard (Seeding.seed database table principal apps users)
  | .getApp id => discard (Seeding.getApp database id)
  | .getUser id => discard (Seeding.getUser database id)
  | .verify => discard (Seeding.verify database)

/-- An operation in a history: on which database it is done, and by which clock. -/
structure Step where
  database : Text
  operation : Operation
  clock : Clock

namespace Step

/-- How a step ends. -/
def outcome (server : Server σ) (step : Step) (s : σ) : Outcome σ (Except Failure Unit) :=
  Job.outcome server (step.operation.job step.database) s step.clock

/-- The calls of a step that were answered and not refused. -/
def accepted (server : Server σ) (step : Step) (s : σ) : List Request :=
  Procedure.accepted server (step.operation.job step.database).run s step.clock

end Step

/-- The state that a history leaves. -/
def after (server : Server σ) : List Step → σ → σ
  | [], s => s
  | step :: rest, s => after server rest (step.outcome server s).state

theorem after_append (server : Server σ) (xs ys : List Step) (s : σ) :
    after server (xs ++ ys) s = after server ys (after server xs s) := by
  induction xs generalizing s with
  | nil => rfl
  | cons step rest ih => exact ih _

/-- What every allowed call keeps is kept by a history of operations that make
only such calls. -/
theorem after_preserves {allowed : Request → Prop} {server : Server σ} (inv : σ → Prop)
    (hcall : ∀ q s, allowed q → inv s → inv (server.answer q s).2) {steps : List Step}
    (hsteps : ∀ step ∈ steps, Job.Sends allowed (step.operation.job step.database)) {s : σ}
    (hs : inv s) : inv (after server steps s) := by
  induction steps generalizing s with
  | nil => exact hs
  | cons step rest ih =>
      have hstep : inv (step.outcome server s).state :=
        (hsteps step List.mem_cons_self).preserves hcall hs step.clock
      exact ih (fun other hmem => hsteps other (List.mem_cons_of_mem _ hmem)) hstep

/-! ## The calls of an operation -/

/-- The elements that an operation inserts. -/
def Operation.elements : Operation → List Value
  | .insertApps apps => apps
  | .insertUsers users => users
  | .seed _ _ apps users => apps ++ users
  | _ => []

section

variable {allowed : Request → Prop}

theorem createAppUser_sends (hcreate : ∀ database user pwd roles,
      allowed (.createUser database user pwd roles)) (database : Text) (principal : Value) :
    Job.Sends allowed (createAppUser database principal) := by
  refine .bind (.ofExcept _) fun user => .bind (.ofExcept _) fun command => ?_
  refine .bind (.recover (.request (hcreate _ _ _ _)) fun f => .fail _) fun _ => ?_
  exact .bind (.ofExcept _) fun grants => .info _ _

theorem createIndex_sends (hindex : ∀ place keys options, allowed (.createIndex place keys options))
    (place : Place) (definition : Document) :
    Job.Sends allowed (createIndex place definition) := by
  unfold createIndex
  cases definition.get? "keys" with
  | none => exact .fail _
  | some keys => exact .request (hindex _ _ _)

theorem createIndexes_sends
    (hindex : ∀ place keys options, allowed (.createIndex place keys options)) (place : Place)
    (definitions : List Document) :
    Job.Sends allowed (createIndexes place definitions) := by
  induction definitions with
  | nil => exact .pure ()
  | cons definition rest ih => exact .bind (createIndex_sends hindex place definition) fun _ => ih

theorem ensureIndexes_sends
    (hindex : ∀ place keys options, allowed (.createIndex place keys options)) (database : Text)
    (table : IndexTable) : Job.Sends allowed (ensureIndexes database table) := by
  induction table with
  | nil => exact .pure ()
  | cons entry rest ih =>
      exact .bind (createIndexes_sends hindex ⟨database, entry.1⟩ entry.2) fun _ => ih

theorem insertEach_sends (place : Place) {elements : List Value}
    (hinsert : ∀ e ∈ elements, ∀ doc, e.toDocument = .ok doc → allowed (.insertOne place doc)) :
    Job.Sends allowed (insertEach place elements) := by
  induction elements with
  | nil => exact .pure ()
  | cons element rest ih =>
      refine .bind ?_ fun _ => ih fun e he => hinsert e (List.mem_cons_of_mem _ he)
      unfold insertOne
      cases hdoc : element.toDocument with
      | error f => trivial
      | ok doc =>
          have hrequest := hinsert element List.mem_cons_self doc hdoc
          exact Job.Sends.recover (.request hrequest) fun f => .fail _

theorem insertAll_sends (place : Place) {elements : List Value}
    (hinsert : ∀ e ∈ elements, ∀ doc, e.toDocument = .ok doc → allowed (.insertOne place doc)) :
    Job.Sends allowed (insertAll place elements) :=
  .bind (insertEach_sends place hinsert) fun _ => .bind (.info _ _) fun _ => .pure _

theorem presentIds_sends {place : Place} (hfind : allowed (.findIds place)) :
    Job.Sends allowed (presentIds place) :=
  .bind (.request hfind) fun _ => .ofExcept _

theorem verify_sends {database : Text} (happs : allowed (.findIds (appsOf database)))
    (husers : allowed (.findIds (usersOf database))) : Job.Sends allowed (verify database) :=
  .bind (presentIds_sends happs) fun _ => .bind (presentIds_sends husers) fun _ => .pure _

/-- **What an operation can do.**  It creates database users and indexes, reads,
and inserts documents of its elements; it makes no other call. -/
theorem Operation.sends (database : Text) (operation : Operation)
    (hother : ∀ q, (∀ place doc, q ≠ .insertOne place doc) → allowed q)
    (hinsert : ∀ e ∈ operation.elements, ∀ place doc, e.toDocument = .ok doc →
      allowed (.insertOne place doc)) :
    Job.Sends allowed (operation.job database) := by
  have hcreate : ∀ database user pwd roles, allowed (.createUser database user pwd roles) :=
    fun _ _ _ _ => hother _ (by simp)
  have hindex : ∀ place keys options, allowed (.createIndex place keys options) :=
    fun _ _ _ => hother _ (by simp)
  have hfindOne : ∀ place id, allowed (.findOne place id) := fun _ _ => hother _ (by simp)
  have hfindIds : ∀ place, allowed (.findIds place) := fun _ => hother _ (by simp)
  cases operation with
  | createAppUser principal => exact createAppUser_sends hcreate database principal
  | ensureIndexes table => exact ensureIndexes_sends hindex database table
  | insertApps apps =>
      exact .discard (insertAll_sends (appsOf database) fun e he => hinsert e he _)
  | insertUsers users =>
      exact .discard (insertAll_sends (usersOf database) fun e he => hinsert e he _)
  | seed table principal apps users =>
      refine .discard (.bind .now fun start => .bind (.info _ _) fun _ => ?_)
      refine .bind (createAppUser_sends hcreate database principal) fun _ => ?_
      refine .bind (ensureIndexes_sends hindex database table) fun _ => ?_
      have happs : Job.Sends allowed (Seeding.insertApps database apps) :=
        insertAll_sends _ fun e he => hinsert e (List.mem_append_left _ he) _
      have husers : Job.Sends allowed (Seeding.insertUsers database users) :=
        insertAll_sends _ fun e he => hinsert e (List.mem_append_right _ he) _
      refine .bind happs fun _ => .bind husers fun _ => .bind .now fun finish => ?_
      exact .bind (.ofExcept _) fun user => .pure _
  | getApp id => exact .discard (.bind (.request (hfindOne _ id)) fun _ => .ofExcept _)
  | getUser id => exact .discard (.bind (.request (hfindOne _ id)) fun _ => .ofExcept _)
  | verify => exact .discard (verify_sends (hfindIds _) (hfindIds _))

end

end InitialLoad.Seeding
