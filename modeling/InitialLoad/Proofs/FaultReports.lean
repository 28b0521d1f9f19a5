import InitialLoad.Entity.Reading
import Mathlib.Data.List.Pairwise

/-!
# Reports of faults

`Faulty`-like relations say which faults a value has, each by its place and its reason,
without saying how they are found.  A reading `Reports` such a relation when it succeeds
exactly where there is no fault, and otherwise lists every fault, and nothing else, in the
order of their places: fields as they are declared, items by their positions.

The order is strict, so that no place is listed twice (`Reports.nodup`).  Each way to put
a reading together is shown once to report what its parts report: a field, a list, an
object with the declared fields of its kind.
-/

namespace InitialLoad

/-! ## The order of places -/

/-- Some kind declares the one field before the other. -/
def DeclaredBefore (a b : Text) : Prop :=
  ∃ kind : Kind, List.Sublist [a, b] (kind.rules.map FieldRule.name)

/-- The order of the parts of a value. -/
def PathStep.Before : PathStep → PathStep → Prop
  | .field a, .field b => DeclaredBefore a b
  | .item i, .item j => i < j
  | _, _ => False

/-- The order of faults: by the first step at which their places differ. -/
def Fault.Before (f g : Fault) : Prop := List.Lex PathStep.Before f.path g.path

theorem Kind.nodup_names (kind : Kind) : (kind.rules.map FieldRule.name).Nodup := by
  cases kind <;> decide

/-- The fields of a kind are in order. -/
theorem Kind.names_ordered (kind : Kind) :
    (kind.rules.map FieldRule.name).Pairwise DeclaredBefore :=
  List.pairwise_iff_forall_sublist.mpr fun h => ⟨kind, h⟩

theorem PathStep.not_before_self (step : PathStep) : ¬ step.Before step := by
  cases step with
  | field name =>
      rintro ⟨kind, h⟩
      have hnodup : [name, name].Nodup := kind.nodup_names.sublist h
      simp at hnodup
  | item i => exact Nat.lt_irrefl i

/-- A fault before another is at another place. -/
theorem Fault.Before.path_ne {f g : Fault} (h : f.Before g) : f.path ≠ g.path := by
  have hirrefl : ∀ path : List PathStep, ¬ List.Lex PathStep.Before path path := by
    intro path
    induction path with
    | nil => exact fun h => nomatch h
    | cons step rest ih =>
        intro h
        cases h with
        | rel hstep => exact step.not_before_self hstep
        | cons hrest => exact ih hrest
  intro heq
  rw [Fault.Before, heq] at h
  exact hirrefl _ h

theorem Fault.before_under {f g : Fault} (step : PathStep) (h : f.Before g) :
    (f.under step).Before (g.under step) :=
  List.Lex.cons h

/-- Faults in one part come before those in a later part. -/
theorem Fault.before_of_steps {step later : PathStep} (h : step.Before later) (f g : Fault) :
    (f.under step).Before (g.under later) :=
  List.Lex.rel h

/-! ## Which faults a value has -/

/-- A field has a fault: it is required and missing, or there is one in its value. -/
inductive FieldFault (name : Text) (required : Bool) (inValue : Value → Fault → Prop)
    (data : Document) : Fault → Prop where
  | missing : required = true → Entries.get? name data = none →
      FieldFault name required inValue data ⟨[.field name], .missing⟩
  | inside {v : Value} {fault : Fault} : Entries.get? name data = some v → inValue v fault →
      FieldFault name required inValue data (fault.under (.field name))

/-- An item of a list has a fault; positions count from `start`. -/
inductive ItemFault (inItem : Value → Fault → Prop) (start : Nat) (items : List Value) :
    Fault → Prop where
  | inside {i : Nat} {v : Value} {fault : Fault} : items[i]? = some v → inItem v fault →
      ItemFault inItem start items (fault.under (.item (start + i)))

/-- A list has a fault in one of its items, and an entity in its place in one of its fields,
each taken as a pair; what is neither has one, and none below it. -/
inductive ListFault (inItem : Value → Fault → Prop) : Value → Fault → Prop where
  | list {items : List Value} {fault : Fault} : ItemFault inItem 0 items fault →
      ListFault inItem (.list items) fault
  | tuple {items : List Value} {fault : Fault} : ItemFault inItem 0 items fault →
      ListFault inItem (.tuple items) fault
  | entity {kind : Kind} {fields : Document} {fault : Fault} :
      ItemFault inItem 0 (Value.pairs fields) fault → ListFault inItem (.record kind fields) fault
  | other {v : Value} : (∀ items, v ≠ .list items) → (∀ items, v ≠ .tuple items) →
      (∀ kind fields, v ≠ .record kind fields) → ListFault inItem v ⟨[], .notList⟩

/-- The object of an entity has a fault in its data; what is neither an object nor an
entity of the kind has one, and none below it. -/
inductive EntityFault (kind : Kind) (inData : Document → Fault → Prop) : Value → Fault → Prop where
  | object {data : Document} {fault : Fault} : inData data fault →
      EntityFault kind inData (.object data) fault
  | other {v : Value} : (∀ data, v ≠ .object data) → (∀ fields, v ≠ .record kind fields) →
      EntityFault kind inData v ⟨[], .notEntity kind⟩

/-! ## Reports -/

namespace Reading

variable {α β : Type} {faulty more : Fault → Prop}

/-- The reading succeeds exactly without a fault, and else lists all faults in order. -/
structure Reports (reading : Reading α) (faulty : Fault → Prop) : Prop where
  accepts : (∃ a, reading = .ok a) ↔ ∀ fault, ¬ faulty fault
  lists : ∀ faults, reading = .error faults → ∀ fault, fault ∈ faults ↔ faulty fault
  ordered : ∀ faults, reading = .error faults → faults.Pairwise Fault.Before

/-- No place is listed twice. -/
theorem Reports.nodup {reading : Reading α} (h : reading.Reports faulty) {faults : List Fault}
    (herror : reading = .error faults) : (faults.map Fault.path).Nodup :=
  List.pairwise_map.mpr ((h.ordered faults herror).imp Fault.Before.path_ne)

theorem Reports.ok (a : α) (h : ∀ fault, ¬ faulty fault) :
    Reports (.ok a : Reading α) faulty where
  accepts := ⟨fun _ => h, fun _ => ⟨a, rfl⟩⟩
  lists := fun _ heq => nomatch heq
  ordered := fun _ heq => nomatch heq

theorem Reports.error {faults : List Fault} (hsome : ∃ fault, faulty fault)
    (hlists : ∀ fault, fault ∈ faults ↔ faulty fault) (hordered : faults.Pairwise Fault.Before) :
    Reports (.error faults : Reading α) faulty where
  accepts := ⟨fun ⟨_, heq⟩ => (nomatch heq), fun hnone => absurd hsome (not_exists.mpr hnone)⟩
  lists := by
    rintro _ ⟨⟩
    exact hlists
  ordered := by
    rintro _ ⟨⟩
    exact hordered

/-- What was read has no fault. -/
theorem Reports.no_fault {a : α} (h : Reports (.ok a : Reading α) faulty) (fault : Fault) :
    ¬ faulty fault :=
  h.accepts.mp ⟨a, rfl⟩ fault

/-- What was refused has a fault. -/
theorem Reports.exists_fault {faults : List Fault}
    (h : Reports (.error faults : Reading α) faulty) : ∃ fault, faulty fault := by
  by_contra hnone
  obtain ⟨_, heq⟩ := h.accepts.mpr (not_exists.mp hnone)
  cases heq

/-- A single fault. -/
theorem Reports.single (fault : Fault) :
    Reports (.error [fault] : Reading α) (fun other => other = fault) :=
  .error ⟨fault, rfl⟩ (fun _ => List.mem_singleton) (List.pairwise_singleton _ _)

theorem Reports.congr {reading : Reading α} (h : reading.Reports faulty)
    (hsame : ∀ fault, faulty fault ↔ more fault) : reading.Reports more := by
  rwa [show more = faulty from funext fun fault => propext (hsame fault).symm]

/-- A refusal reports the same, whatever would have been read. -/
theorem Reports.refusal {faults : List Fault} (h : Reports (.error faults : Reading α) faulty)
    (hsame : ∀ fault, faulty fault ↔ more fault) : Reports (.error faults : Reading β) more :=
  (Reports.error h.exists_fault (h.lists faults rfl) (h.ordered faults rfl)).congr hsame

/-- What is made of the result changes no report. -/
theorem Reports.map {reading : Reading α} (h : reading.Reports faulty) (f : α → β) :
    Reports (Except.map f reading : Reading β) faulty := by
  cases reading with
  | ok a => exact .ok (f a) h.no_fault
  | error faults => exact h.refusal fun _ => Iff.rfl

/-- A part reports its faults at their places in the whole. -/
theorem Reports.under {reading : Reading α} (h : reading.Reports faulty) (step : PathStep) :
    (reading.under step).Reports fun fault => ∃ inner, faulty inner ∧ fault = inner.under step := by
  cases reading with
  | ok a => exact .ok a fun _ ⟨inner, hinner, _⟩ => h.no_fault inner hinner
  | error faults =>
      obtain ⟨fault, hfault⟩ := h.exists_fault
      refine .error ⟨_, fault, hfault, rfl⟩ (fun other => ?_) ?_
      · simp only [List.mem_map, h.lists faults rfl, eq_comm]
      · exact List.pairwise_map.mpr ((h.ordered faults rfl).imp (Fault.before_under step))

/-- A part before other parts: the faults of all of them, its own first. -/
theorem Reports.gather_cons {reading : Reading α} {rest : List (Reading α)}
    (hfirst : reading.Reports faulty) (hrest : (gather rest).Reports more)
    (hordered : ∀ f g, faulty f → more g → f.Before g) :
    (gather (reading :: rest)).Reports fun fault => faulty fault ∨ more fault := by
  cases reading with
  | ok a =>
      have hnone := hfirst.no_fault
      cases hgather : gather rest with
      | ok as =>
          rw [hgather] at hrest
          simp only [gather, hgather]
          exact .ok _ fun fault => not_or.mpr ⟨hnone fault, hrest.no_fault fault⟩
      | error faults =>
          rw [hgather] at hrest
          simp only [gather, hgather]
          exact hrest.refusal fun fault => (or_iff_right (hnone fault)).symm
  | error first =>
      cases hgather : gather rest with
      | ok as =>
          rw [hgather] at hrest
          simp only [gather, hgather]
          exact hfirst.refusal fun fault => (or_iff_left (hrest.no_fault fault)).symm
      | error faults =>
          rw [hgather] at hrest
          simp only [gather, hgather]
          obtain ⟨fault, hfault⟩ := hfirst.exists_fault
          have hlists := hfirst.lists first rfl
          have hmore := hrest.lists faults rfl
          refine .error ⟨fault, Or.inl hfault⟩ (fun other => ?_) ?_
          · rw [List.mem_append, hlists, hmore]
          · refine List.pairwise_append.mpr ⟨hfirst.ordered first rfl, hrest.ordered faults rfl, ?_⟩
            exact fun f hf g hg => hordered f g ((hlists f).mp hf) ((hmore g).mp hg)

end Reading

open Reading

/-! ## What the readers report -/

variable {inValue : Value → Fault → Prop} {read : Value → Reading Value}

/-- A fault of the items is one of the first item or one of the others. -/
theorem itemFault_cons {start : Nat} {v : Value} {rest : List Value} {fault : Fault} :
    ItemFault inValue start (v :: rest) fault ↔
      (∃ inner, inValue v inner ∧ fault = inner.under (.item start)) ∨
        ItemFault inValue (start + 1) rest fault := by
  constructor
  · rintro ⟨hitem, hinner⟩
    rename_i i w inner
    cases i with
    | zero =>
        cases hitem
        exact Or.inl ⟨inner, hinner, rfl⟩
    | succ i =>
        rw [show start + (i + 1) = start + 1 + i by omega]
        exact Or.inr ⟨hitem, hinner⟩
  · rintro (⟨inner, hinner, rfl⟩ | ⟨hitem, hinner⟩)
    · exact ItemFault.inside (i := 0) rfl hinner
    · rename_i i w inner
      rw [show start + 1 + i = start + (i + 1) by omega]
      exact ItemFault.inside (i := i + 1) hitem hinner

/-- The items of a list report their faults, in the order of positions. -/
theorem Value.readItems_reports (hread : ∀ v, (read v).Reports (inValue v)) (start : Nat)
    (items : List Value) :
    (gather (readItems read start items)).Reports (ItemFault inValue start items) := by
  induction items generalizing start with
  | nil =>
      refine Reports.ok [] ?_
      rintro _ ⟨hitem, -⟩
      cases hitem
  | cons v rest ih =>
      refine (Reports.gather_cons ((hread v).under (.item start)) (ih (start + 1)) ?_).congr
        fun fault => itemFault_cons.symm
      rintro _ _ ⟨f, hf, rfl⟩ ⟨-, -⟩
      exact Fault.before_of_steps (show start < _ by omega) _ _

/-- A list or tuple reports the faults of its items, an entity those of its fields. -/
theorem Value.listField_reports (hread : ∀ v, (read v).Reports (inValue v)) (v : Value) :
    (listField read v).Reports (ListFault inValue v) := by
  have hitems := fun items => (readItems_reports hread 0 items).map Value.list
  cases v with
  | list items =>
      refine (hitems items).congr fun fault => ⟨.list, fun h => ?_⟩
      cases h with
      | list h => exact h
      | other h _ _ => exact absurd rfl (h items)
  | tuple items =>
      refine (hitems items).congr fun fault => ⟨.tuple, fun h => ?_⟩
      cases h with
      | tuple h => exact h
      | other _ h _ => exact absurd rfl (h items)
  | record kind fields =>
      refine (hitems (pairs fields)).congr fun fault => ⟨.entity, fun h => ?_⟩
      cases h with
      | entity h => exact h
      | other _ _ h => exact absurd rfl (h kind fields)
  | _ =>
      refine (Reports.single _).congr fun fault => ⟨?_, ?_⟩
      · rintro rfl
        exact .other (fun _ h => nomatch h) (fun _ h => nomatch h) (fun _ _ h => nomatch h)
      · rintro ⟨⟩
        rfl

/-- A declared field reports that it is missing, or the faults of its value. -/
theorem FieldRule.apply_reports {rule : FieldRule}
    (hread : ∀ v, (rule.read v).Reports (inValue v)) (data : Document) :
    (rule.apply data).Reports (FieldFault rule.name rule.standIn.isNone inValue data) := by
  obtain ⟨name, read, standIn⟩ := rule
  unfold FieldRule.apply
  cases hdata : Entries.get? name data with
  | some v =>
      refine (((hread v).under _).map _).congr fun fault => ⟨?_, ?_⟩
      · rintro ⟨inner, hinner, rfl⟩
        exact .inside hdata hinner
      · rintro (⟨-, hnone⟩ | ⟨hsome, hinner⟩)
        · rw [hdata] at hnone
          cases hnone
        · rw [hdata] at hsome
          cases hsome
          exact ⟨_, hinner, rfl⟩
  | none =>
      cases standIn with
      | some w =>
          refine Reports.ok _ ?_
          rintro _ (⟨hrequired, -⟩ | ⟨hsome, -⟩)
          · cases hrequired
          · rw [hdata] at hsome
            cases hsome
      | none =>
          refine (Reports.single _).congr fun fault => ⟨?_, ?_⟩
          · rintro rfl
            exact .missing rfl hdata
          · rintro (⟨-, -⟩ | ⟨hsome, -⟩)
            · rfl
            · rw [hdata] at hsome
              cases hsome

/-- Every fault of a field is in it. -/
theorem FieldFault.exists_under {name : Text} {required : Bool} {data : Document} {fault : Fault}
    (h : FieldFault name required inValue data fault) :
    ∃ inner : Fault, fault = inner.under (.field name) := by
  cases h with
  | missing => exact ⟨⟨[], .missing⟩, rfl⟩
  | inside => exact ⟨_, rfl⟩

/-- A declared field with the faults that its value may have. -/
structure FieldReport where
  rule : FieldRule
  inValue : Value → Fault → Prop
  reports : ∀ v, (rule.read v).Reports (inValue v)

/-- One of the fields has a fault. -/
def FieldReport.Faulty (fields : List FieldReport) (data : Document) (fault : Fault) : Prop :=
  ∃ field ∈ fields, FieldFault field.rule.name field.rule.standIn.isNone field.inValue data fault

/-- Fields that are declared one after the other report their faults in this order. -/
theorem readFields_reports (fields : List FieldReport)
    (hordered : (fields.map fun field => field.rule.name).Pairwise DeclaredBefore)
    (data : Document) :
    (readFields (fields.map FieldReport.rule) data).Reports (FieldReport.Faulty fields data) := by
  induction fields with
  | nil => exact Reports.ok [] fun fault ⟨_, hfield, _⟩ => nomatch hfield
  | cons field rest ih =>
      rw [List.map_cons, List.pairwise_cons] at hordered
      refine (Reports.gather_cons (FieldRule.apply_reports field.reports data)
        (ih hordered.2) ?_).congr fun fault => ?_
      · rintro f g hf ⟨later, hlater, hg⟩
        obtain ⟨f, rfl⟩ := hf.exists_under
        obtain ⟨g, rfl⟩ := hg.exists_under
        have hbefore : PathStep.Before (.field field.rule.name) (.field later.rule.name) :=
          hordered.1 _ (List.mem_map_of_mem hlater)
        exact Fault.before_of_steps hbefore f g
      · simp only [FieldReport.Faulty, List.mem_cons, exists_eq_or_imp]

/-- The object of an entity reports the faults of its data. -/
theorem entityField_reports {kind : Kind} {rules : List FieldRule}
    {inData : Document → Fault → Prop}
    (hread : ∀ data, (readFields rules data).Reports (inData data)) (v : Value) :
    (entityField kind rules v).Reports (EntityFault kind inData v) := by
  have hother : ∀ {v : Value}, (∀ data, v ≠ .object data) → (∀ fields, v ≠ .record kind fields) →
      (refuse (.notEntity kind) : Reading Value).Reports (EntityFault kind inData v) := by
    intro v hobject hrecord
    refine (Reports.single _).congr fun fault => ⟨?_, ?_⟩
    · rintro rfl
      exact .other hobject hrecord
    · rintro (h | ⟨-, -⟩)
      · exact absurd rfl (hobject _)
      · rfl
  cases v with
  | object data =>
      refine ((hread data).map _).congr fun fault => ⟨.object, fun h => ?_⟩
      cases h with
      | object h => exact h
      | other h _ => exact absurd rfl (h data)
  | record k fields =>
      by_cases hkind : k = kind
      · subst hkind
        rw [entityField, if_pos rfl]
        refine Reports.ok _ ?_
        rintro _ (_ | ⟨-, h⟩)
        exact h fields rfl
      · rw [entityField, if_neg hkind]
        exact hother (fun _ h => nomatch h) fun _ h => hkind (Value.record.inj h).1
  | _ => exact hother (fun _ h => nomatch h) (fun _ h => nomatch h)

end InitialLoad
