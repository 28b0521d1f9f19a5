import InitialLoad.Server.Store

/-!
# Unique identifiers

What the declared index does to a collection whose documents have integer
identifiers or none.  There the key of a document in the index is its
`identifier`, so creating the index comes down to a list without repetition,
and inserting a document to membership in a list.

A collection is `Guarded` when the declared index is in force on it.  No
insertion of a document with an integer identifier and no further index can
change that, and the documents only ever grow at the end.
-/

namespace InitialLoad

namespace Value

@[simp] theorem same_null_null : same .null .null = true := rfl

@[simp] theorem same_null_int (n : Int) : same .null (.int n) = false := rfl

@[simp] theorem same_int_null (n : Int) : same (.int n) .null = false := rfl

@[simp] theorem same_int_int (m n : Int) : same (.int m) (.int n) = decide (m = n) := rfl

@[simp] theorem isOrHas_int (v : Value) (n : Int) : v.isOrHas (.int n) = (int n).same v := rfl

end Value

/-- The identifier of a document, when it is an integer. -/
def identifier (doc : Document) : Option Int :=
  match Entries.get? "id" doc with
  | some (.int n) => some n
  | _ => none

/-- The document has an integer identifier or none at all. -/
def IntegerIdentified (doc : Document) : Prop :=
  Entries.get? "id" doc = none ∨ ∃ n, Entries.get? "id" doc = some (.int n)

theorem identifier_of_get? {doc : Document} {n : Int} (h : Entries.get? "id" doc = some (.int n)) :
    identifier doc = some n := by
  simp [identifier, h]

namespace Index

/-- The declared index: every identifier once. -/
def uniqueId : Index := ⟨"id_1", [⟨"id", .int 1⟩], true, false, []⟩

theorem described?_declared :
    described? Layout.idKeys [("unique", .bool true)] = some uniqueId := by
  decide

/-- The value under which the declared index lists an identifier. -/
def idValue : Option Int → Value
  | none => .null
  | some n => .int n

theorem idValue_identifier {doc : Document} (h : IntegerIdentified doc) :
    (Entries.get? "id" doc).getD .null = idValue (identifier doc) := by
  rcases h with h | ⟨n, h⟩ <;> simp [identifier, h, idValue]

theorem same_idValue (a b : Option Int) : (idValue a).same (idValue b) = decide (a = b) := by
  cases a <;> cases b <;> simp [idValue]

end Index

namespace Collection

open Index (uniqueId idValue)

/-- The identifiers of the documents, in order of insertion. -/
def identifiers (c : Collection) : List (Option Int) := c.documents.map identifier

/-- Every document has an integer identifier or none at all. -/
def IntegerIds (c : Collection) : Prop := ∀ doc ∈ c.documents, IntegerIdentified doc

/-- The declared index is the only unique index of the collection. -/
def OnlyUniqueId (c : Collection) : Prop :=
  ∀ index ∈ c.indexes, index.unique = true → index = uniqueId

/-- The identifiers differ from each other and from those of the documents. -/
def Admits (c : Collection) (ids : List Int) : Prop :=
  ids.Nodup ∧ ∀ n ∈ ids, some n ∉ c.identifiers

/-- Another index has the name of the declared one. -/
def NameTaken (c : Collection) : Prop :=
  ∃ other, c.indexes.find? (fun index => index.name = uniqueId.name) = some other ∧
    other ≠ uniqueId

/-- The collection with the declared index, which is added unless it is there. -/
def indexed (c : Collection) : Collection :=
  if uniqueId ∈ c.indexes then c else { c with indexes := c.indexes ++ [uniqueId] }

/-- The collection with documents added at the end. -/
def adding (docs : List Document) (c : Collection) : Collection :=
  { c with documents := c.documents ++ docs }

@[simp] theorem indexed_documents (c : Collection) : c.indexed.documents = c.documents := by
  unfold indexed
  split <;> rfl

theorem uniqueId_mem_indexed (c : Collection) : uniqueId ∈ c.indexed.indexes := by
  unfold indexed
  split
  · assumption
  · simp

@[simp] theorem adding_documents (docs : List Document) (c : Collection) :
    (c.adding docs).documents = c.documents ++ docs := rfl

theorem adding_nil (c : Collection) : c.adding [] = c := by
  simp [adding]

theorem adding_adding (xs ys : List Document) (c : Collection) :
    (c.adding xs).adding ys = c.adding (xs ++ ys) := by
  simp [adding]

theorem identifiers_adding (docs : List Document) (c : Collection) :
    (c.adding docs).identifiers = c.identifiers ++ docs.map identifier := by
  simp [identifiers]

theorem OnlyUniqueId.indexed {c : Collection} (h : c.OnlyUniqueId) : c.indexed.OnlyUniqueId := by
  intro index hmem hunique
  unfold Collection.indexed at hmem
  split at hmem
  · exact h index hmem hunique
  · rcases List.mem_append.mp hmem with hmem | hmem
    · exact h index hmem hunique
    · exact List.mem_singleton.mp hmem

/-- What is admitted after the first document has been added. -/
theorem Admits.tail {c : Collection} {n : Int} {ids : List Int} (h : c.Admits (n :: ids))
    {doc : Document} (hdoc : identifier doc = some n) : (c.adding [doc]).Admits ids := by
  obtain ⟨hnodup, hnew⟩ := h
  rw [List.nodup_cons] at hnodup
  refine ⟨hnodup.2, ?_⟩
  intro m hm hpresent
  rw [identifiers_adding, List.mem_append] at hpresent
  rcases hpresent with hold | hadded
  · exact hnew m (List.mem_cons_of_mem _ hm) hold
  · simp only [List.map_cons, List.map_nil, hdoc, List.mem_singleton] at hadded
    exact hnodup.1 (Option.some.inj hadded ▸ hm)

/-! ## Creating the declared index -/

/-- No key is repeated exactly when no key is the same as an earlier one. -/
theorem firstRepeated?_eq_none_iff (seen keys : List (List Value)) :
    firstRepeated? seen keys = none ↔
      keys.Pairwise (fun key later => Value.sameItems later key = false) ∧
        ∀ key ∈ keys, ∀ earlier ∈ seen, Value.sameItems key earlier = false := by
  induction keys generalizing seen with
  | nil => simp [firstRepeated?]
  | cons key rest ih =>
      by_cases hseen : seen.any (Value.sameItems key) = true
      · obtain ⟨earlier, hearlier, hsame⟩ := List.any_eq_true.mp hseen
        rw [firstRepeated?, if_pos hseen]
        refine ⟨nofun, fun h => ?_⟩
        rw [h.2 key List.mem_cons_self earlier hearlier] at hsame
        cases hsame
      · have hfresh : ∀ earlier ∈ seen, Value.sameItems key earlier = false := by
          simpa using hseen
        rw [firstRepeated?, if_neg hseen, ih (key :: seen)]
        simp only [List.pairwise_cons, List.mem_cons, forall_eq_or_imp]
        constructor
        · rintro ⟨hrest, hlater⟩
          exact ⟨⟨fun later hmem => (hlater later hmem).1, hrest⟩, hfresh,
            fun later hmem => (hlater later hmem).2⟩
        · rintro ⟨⟨hkey, hrest⟩, -, hlater⟩
          exact ⟨hrest, fun later hmem => ⟨hkey later hmem, hlater later hmem⟩⟩

theorem firstRepeated?_idValues (ids : List (Option Int)) :
    firstRepeated? [] (ids.map fun a => [idValue a]) = none ↔ ids.Nodup := by
  have hsame : ∀ a b : Option Int, Value.sameItems [idValue b] [idValue a] = false ↔ a ≠ b := by
    intro a b
    rw [Value.sameItems, Value.sameItems, Bool.and_true, Index.same_idValue,
      decide_eq_false_iff_not]
    exact ⟨Ne.symm, Ne.symm⟩
  simp [firstRepeated?_eq_none_iff, List.pairwise_map, hsame, List.Nodup]

theorem firstRepeated?_mem {seen keys : List (List Value)} {key : List Value}
    (h : firstRepeated? seen keys = some key) : key ∈ keys := by
  induction keys generalizing seen with
  | nil => simp [firstRepeated?] at h
  | cons k rest ih =>
      simp only [firstRepeated?] at h
      split at h
      · simp_all
      · exact List.mem_cons_of_mem _ (ih h)

/-- The declared index lists every document, one without an identifier under null. -/
theorem listedKeys_uniqueId (c : Collection) :
    c.listedKeys uniqueId = c.documents.map fun doc => [(Entries.get? "id" doc).getD .null] := by
  have hkey : uniqueId.listedKey? =
      fun doc : Document => some [(Entries.get? "id" doc).getD .null] := rfl
  rw [listedKeys, hkey]
  exact congrFun List.filterMap_eq_map' c.documents

theorem listedKeys_of_integerIds {c : Collection} (h : c.IntegerIds) :
    c.listedKeys uniqueId = c.identifiers.map fun a => [idValue a] := by
  rw [listedKeys_uniqueId, identifiers, List.map_map]
  apply List.map_congr_left
  intro doc hdoc
  rw [Index.idValue_identifier (h doc hdoc)]
  rfl

/-- The refusal of the declared index over documents that repeat an identifier. -/
def identifierRepeated : Failure := Failure.of (.duplicateKey "E11000 Duplicate Key Error")

/-- The refusal of the declared index beside another one of its name. -/
def nameTaken : Failure :=
  Failure.of (.refused .operation (Text.join ["Index with name: ", uniqueId.name,
    " already exists with different options"]) none)

theorem createIndex_nameTaken {c : Collection} (h : c.NameTaken) :
    c.createIndex uniqueId = .error nameTaken := by
  obtain ⟨other, hfind, hne⟩ := h
  simp [createIndex, hfind, hne, nameTaken]

theorem find?_of_not_nameTaken {c : Collection} (h : ¬ c.NameTaken) :
    c.indexes.find? (fun index => index.name = uniqueId.name) =
      if uniqueId ∈ c.indexes then some uniqueId else none := by
  cases hfind : c.indexes.find? (fun index => index.name = uniqueId.name) with
  | none =>
      have habsent : uniqueId ∉ c.indexes := by
        intro hmem
        simpa using List.find?_eq_none.mp hfind uniqueId hmem
      rw [if_neg habsent]
  | some other =>
      have hother : other = uniqueId := by
        by_cases heq : other = uniqueId
        · exact heq
        · exact absurd ⟨other, hfind, heq⟩ h
      subst hother
      rw [if_pos (List.mem_of_find?_eq_some hfind)]

theorem createIndex_repeated {c : Collection} (hname : ¬ c.NameTaken) (hids : c.IntegerIds)
    (hrepeat : ¬ c.identifiers.Nodup) : c.createIndex uniqueId = .error identifierRepeated := by
  have hfirst : firstRepeated? [] (c.listedKeys uniqueId) ≠ none := by
    rw [listedKeys_of_integerIds hids]
    intro hnone
    exact hrepeat ((firstRepeated?_idValues c.identifiers).mp hnone)
  obtain ⟨key, hkey⟩ := Option.ne_none_iff_exists'.mp hfirst
  have hmem := firstRepeated?_mem hkey
  rw [listedKeys_of_integerIds hids, List.mem_map] at hmem
  obtain ⟨a, -, rfl⟩ := hmem
  have hplain : repeatedInDocuments [idValue a] = identifierRepeated := by
    cases a <;> rfl
  have hunique : uniqueId.unique = true := rfl
  unfold createIndex
  rw [find?_of_not_nameTaken hname, hunique, if_pos rfl, hkey, ← hplain]
  split <;> simp

theorem createIndex_distinct {c : Collection} (hname : ¬ c.NameTaken) (hids : c.IntegerIds)
    (hdistinct : c.identifiers.Nodup) : c.createIndex uniqueId = .ok c.indexed := by
  have hfirst : firstRepeated? [] (c.listedKeys uniqueId) = none := by
    rw [listedKeys_of_integerIds hids]
    exact (firstRepeated?_idValues c.identifiers).mpr hdistinct
  have hunique : uniqueId.unique = true := rfl
  unfold createIndex
  rw [find?_of_not_nameTaken hname, hunique, if_pos rfl, hfirst]
  unfold indexed
  split <;> simp

/-- **Creating the declared index succeeds exactly when nothing stands against
it**: no other index of its name, and no identifier twice. -/
theorem createIndex_uniqueId_ok_iff {c d : Collection} (hids : c.IntegerIds) :
    c.createIndex uniqueId = .ok d ↔
      ¬ c.NameTaken ∧ c.identifiers.Nodup ∧ d = c.indexed := by
  constructor
  · intro h
    have hname : ¬ c.NameTaken := by
      intro hname
      rw [createIndex_nameTaken hname] at h
      cases h
    have hdistinct : c.identifiers.Nodup := by
      apply Classical.byContradiction
      intro hrepeat
      rw [createIndex_repeated hname hids hrepeat] at h
      cases h
    rw [createIndex_distinct hname hids hdistinct] at h
    cases h
    exact ⟨hname, hdistinct, rfl⟩
  · rintro ⟨hname, hdistinct, rfl⟩
    exact createIndex_distinct hname hids hdistinct

/-- Creating any index leaves the documents, and adds at most that index. -/
theorem createIndex_ok {index : Index} {c d : Collection} (h : c.createIndex index = .ok d) :
    d = c ∨ d = { c with indexes := c.indexes ++ [index] } := by
  simp only [createIndex] at h
  split at h
  · cases h
  · split at h
    · cases h
    · simp only [Except.ok.injEq] at h
      subst h
      split
      · exact Or.inl rfl
      · exact Or.inr rfl

/-! ## Inserting under the declared index -/

theorem refuses_uniqueId {others : List Document} {doc : Document}
    (hothers : ∀ other ∈ others, IntegerIdentified other) (hdoc : IntegerIdentified doc) :
    refuses others doc uniqueId = true ↔ identifier doc ∈ others.map identifier := by
  have hsame : ∀ other ∈ others,
      sameKey uniqueId doc other = decide (identifier other = identifier doc) := by
    intro other hother
    rcases hothers other hother with h | ⟨n, h⟩ <;> rcases hdoc with hd | ⟨m, hd⟩ <;>
      simp [sameKey, uniqueId, fieldIs, h, hd, identifier, Value.isNull]
  have hunique : uniqueId.unique = true ∧ uniqueId.sparse = false := ⟨rfl, rfl⟩
  simp only [refuses, hunique, Bool.true_and, Bool.false_and, Bool.not_false, List.any_eq_true,
    List.mem_map]
  constructor
  · rintro ⟨other, hother, hsamekey⟩
    rw [hsame other hother] at hsamekey
    exact ⟨other, hother, of_decide_eq_true hsamekey⟩
  · rintro ⟨other, hother, heq⟩
    exact ⟨other, hother, by rw [hsame other hother]; exact decide_eq_true heq⟩

/-- An insertion that is accepted adds the document as it is stored. -/
theorem insert_ok {doc : Document} {c d : Collection} (h : c.insert doc = .ok d) :
    c.indexes.find? (refuses c.documents (Value.storedEntries doc)) = none ∧
      d = c.adding [Value.storedEntries doc] := by
  simp only [insert] at h
  split at h
  · cases h
  · cases h
    exact ⟨by assumption, rfl⟩

/-- The declared index refuses an identifier that is present. -/
theorem insert_present {c : Collection} {doc : Document} (hindex : uniqueId ∈ c.indexes)
    (hids : c.IntegerIds) (hdoc : IntegerIdentified doc)
    (hstored : Value.storedEntries doc = doc)
    (hpresent : identifier doc ∈ c.identifiers) :
    ∃ index, index ∈ c.indexes ∧ index.unique = true ∧
      c.insert doc = .error (Failure.of (repeatedKey index doc)) := by
  have hrefuses := (refuses_uniqueId hids hdoc).mpr hpresent
  have hsome : c.indexes.find? (refuses c.documents doc) ≠ none := by
    intro hnone
    exact absurd hrefuses (List.find?_eq_none.mp hnone uniqueId hindex)
  obtain ⟨index, hfind⟩ := Option.ne_none_iff_exists'.mp hsome
  have hunique : index.unique = true := by
    have hindexRefuses := List.find?_some hfind
    simp only [refuses, Bool.and_eq_true] at hindexRefuses
    exact hindexRefuses.1.1
  refine ⟨index, List.mem_of_find?_eq_some hfind, hunique, ?_⟩
  simp [insert, hstored, hfind]

/-- Without any other unique index an identifier that is not present is accepted. -/
theorem insert_absent {c : Collection} {doc : Document}
    (honly : c.OnlyUniqueId) (hids : c.IntegerIds) (hdoc : IntegerIdentified doc)
    (hstored : Value.storedEntries doc = doc)
    (habsent : identifier doc ∉ c.identifiers) : c.insert doc = .ok (c.adding [doc]) := by
  have hnone : c.indexes.find? (refuses c.documents doc) = none := by
    rw [List.find?_eq_none]
    intro index hmem hrefuses
    have hunique : index.unique = true := by
      simp only [refuses, Bool.and_eq_true] at hrefuses
      exact hrefuses.1.1
    rw [honly index hmem hunique] at hrefuses
    exact habsent ((refuses_uniqueId hids hdoc).mp hrefuses)
  simp [insert, hstored, hnone, adding]

theorem get?_storedEntries (name : Text) (entries : Document) :
    Entries.get? name (Value.storedEntries entries) =
      (Entries.get? name entries).map Value.stored := by
  induction entries with
  | nil => rfl
  | cons entry rest ih =>
      simp only [Value.storedEntries, Entries.get?]
      split
      · rfl
      · exact ih

theorem eq_int_of_stored {v : Value} {n : Int} (h : v.stored = .int n) : v = .int n := by
  cases v <;> simp_all [Value.stored]

theorem integerIdentified_storedEntries {doc : Document} (h : IntegerIdentified doc) :
    IntegerIdentified (Value.storedEntries doc) := by
  unfold IntegerIdentified
  rw [get?_storedEntries]
  rcases h with h | ⟨n, h⟩
  · exact Or.inl (by rw [h]; rfl)
  · exact Or.inr ⟨n, by rw [h]; rfl⟩

theorem IntegerIds.of_no_documents {c : Collection} (h : c.documents = []) : c.IntegerIds := by
  intro doc hdoc
  rw [h] at hdoc
  cases hdoc

theorem IntegerIds.adding {c : Collection} (h : c.IntegerIds) {docs : List Document}
    (hdocs : ∀ doc ∈ docs, IntegerIdentified doc) : (c.adding docs).IntegerIds := by
  intro doc hdoc
  rcases List.mem_append.mp hdoc with hdoc | hdoc
  · exact h doc hdoc
  · exact hdocs doc hdoc

theorem IntegerIds.indexed {c : Collection} (h : c.IntegerIds) : c.indexed.IntegerIds := by
  intro doc hdoc
  rw [indexed_documents] at hdoc
  exact h doc hdoc

/-! ## The declared index in force -/

/-- The declared index is in force: it is there under its name, and every
document has an identifier that is an integer or absent and that no other
document has. -/
structure Guarded (c : Collection) : Prop where
  index : c.indexes.find? (fun index => index.name = uniqueId.name) = some uniqueId
  integerIds : c.IntegerIds
  distinct : c.identifiers.Nodup

namespace Guarded

theorem mem {c : Collection} (h : c.Guarded) : uniqueId ∈ c.indexes :=
  List.mem_of_find?_eq_some h.index

/-- The declared index comes into force when it is created. -/
theorem of_createIndex {c d : Collection} (hids : c.IntegerIds)
    (h : c.createIndex uniqueId = .ok d) : d.Guarded := by
  obtain ⟨hname, hdistinct, rfl⟩ := (createIndex_uniqueId_ok_iff hids).mp h
  have hfind := find?_of_not_nameTaken hname
  refine ⟨?_, hids.indexed, ?_⟩
  · unfold indexed
    split
    · rw [hfind, if_pos (by assumption)]
    · rw [List.find?_append, hfind, if_neg (by assumption)]
      rfl
  · simpa [identifiers] using hdistinct

/-- Creating the declared index again changes nothing. -/
theorem createIndex_eq {c : Collection} (h : c.Guarded) : c.createIndex uniqueId = .ok c := by
  have hname : ¬ c.NameTaken := by
    rintro ⟨other, hfind, hne⟩
    rw [h.index] at hfind
    exact hne (Option.some.inj hfind).symm
  rw [createIndex_distinct hname h.integerIds h.distinct, Collection.indexed, if_pos h.mem]

/-- Creating any other index does not put it out of force. -/
theorem createIndex {index : Index} {c d : Collection} (h : c.Guarded)
    (hd : c.createIndex index = .ok d) : d.Guarded := by
  rcases createIndex_ok hd with rfl | rfl
  · exact h
  · exact ⟨by rw [List.find?_append, h.index]; rfl, h.integerIds, h.distinct⟩

/-- What is inserted has an identifier that was not there. -/
theorem absent_of_insert {doc : Document} {c d : Collection} (h : c.Guarded)
    (hdoc : IntegerIdentified doc) (hd : c.insert doc = .ok d) :
    identifier (Value.storedEntries doc) ∉ c.identifiers := by
  obtain ⟨hfind, -⟩ := insert_ok hd
  intro hpresent
  have hstored := integerIdentified_storedEntries hdoc
  have hrefuses := (refuses_uniqueId h.integerIds hstored).mpr hpresent
  exact absurd hrefuses (List.find?_eq_none.mp hfind uniqueId h.mem)

/-- Inserting a document with an integer identifier does not put it out of force. -/
theorem insert {doc : Document} {c d : Collection} (h : c.Guarded)
    (hdoc : IntegerIdentified doc) (hd : c.insert doc = .ok d) : d.Guarded := by
  have habsent := h.absent_of_insert hdoc hd
  have hstored := integerIdentified_storedEntries hdoc
  obtain ⟨-, rfl⟩ := insert_ok hd
  refine ⟨h.index, h.integerIds.adding (by simpa using hstored), ?_⟩
  rw [identifiers_adding, List.nodup_append]
  refine ⟨h.distinct, by simp, ?_⟩
  intro a ha b hb hab
  simp only [List.map_cons, List.map_nil, List.mem_singleton] at hb
  exact habsent (hb ▸ hab ▸ ha)

end Guarded

end Collection

end InitialLoad
