import InitialLoad.Proofs.Insertions
import InitialLoad.Proofs.LastingIndexes
import Mathlib.Data.List.Forall2

/-!
# The indexes of a table

A table names collections and lists definitions for each, written down as entries.  The
definitions come one after the other, collection by collection (`placed`).  Each one that
has keys asks for one call (`Creates`), whatever its keys are, and one that has none ends
the work, as a refusal does (`Ends`).  So the calls that were accepted belong to the first
definitions of the table, whatever the server does.

On a server that holds a store the accepted calls are all that has happened
(`Store.IndexedBy`).  An index that was created stays, and creating it again changes
nothing, whatever indexes are created after it; that makes a second pass over a table
that was completed idle.
-/

namespace InitialLoad

variable {σ : Type}

/-! ## Creating an index again -/

namespace Collection

variable {index other : Index} {c d : Collection}

/-- The index of a name: the first one, if there are several. -/
def named? (name : Text) (c : Collection) : Option Index :=
  c.indexes.find? fun present => present.name = name

theorem mem_of_named? {name : Text} (h : c.named? name = some index) : index ∈ c.indexes :=
  List.mem_of_find?_eq_some h

theorem not_mem_of_named? (h : c.named? index.name = none) : index ∉ c.indexes := by
  intro hmem
  have hname := List.find?_eq_none.mp h index hmem
  simp at hname

/-- An index is created where it stands under its name already, or where nothing does,
and then it comes last. -/
theorem createIndex_cases (h : c.createIndex index = .ok d) :
    c.named? index.name = some index ∧ d = c ∨
      c.named? index.name = none ∧ d = { c with indexes := c.indexes ++ [index] } := by
  simp only [createIndex] at h
  cases hnamed : c.named? index.name with
  | none =>
      have hfind : c.indexes.find? (fun present => present.name = index.name) = none := hnamed
      rw [hfind] at h
      split at h
      · cases h
      · split at h
        · cases h
        · exact Or.inr ⟨rfl, (Except.ok.inj h).symm⟩
  | some found =>
      have hfind : c.indexes.find? (fun present => present.name = index.name) = some found :=
        hnamed
      rw [hfind] at h
      split at h
      · cases h
      · rename_i hsame
        split at h
        · cases h
        · have hfound : found = index := by simpa using hsame
          exact Or.inl ⟨by rw [hfound], (Except.ok.inj h).symm⟩

/-- Afterwards the index is there, beside those that were there. -/
theorem mem_of_createIndex (h : c.createIndex index = .ok d) (present : Index) :
    present ∈ d.indexes ↔ present ∈ c.indexes ∨ present = index := by
  rcases createIndex_cases h with ⟨hnamed, rfl⟩ | ⟨-, rfl⟩
  · refine ⟨Or.inl, ?_⟩
    intro hpresent
    rcases hpresent with hpresent | rfl
    · exact hpresent
    · exact mem_of_named? hnamed
  · simp

theorem prefix_of_createIndex (h : c.createIndex index = .ok d) : c.indexes <+: d.indexes := by
  rcases createIndex_cases h with ⟨-, rfl⟩ | ⟨-, rfl⟩
  · exact List.prefix_rfl
  · exact List.prefix_append _ _

/-- No index is there twice, if none was. -/
theorem nodup_of_createIndex (h : c.createIndex index = .ok d) (hc : c.indexes.Nodup) :
    d.indexes.Nodup := by
  rcases createIndex_cases h with ⟨-, rfl⟩ | ⟨hnamed, rfl⟩
  · exact hc
  · rw [List.nodup_append]
    refine ⟨hc, by simp, ?_⟩
    intro present hpresent last hlast hsame
    rw [List.mem_singleton.mp hlast] at hsame
    exact not_mem_of_named? hnamed (hsame ▸ hpresent)

/-- Creating an index changes nothing exactly when it stands under its name and no
document repeats a key that it admits once. -/
theorem createIndex_eq_self_iff :
    c.createIndex index = .ok c ↔
      c.named? index.name = some index ∧
        (index.unique = true → firstRepeated? [] (c.listedKeys index) = none) := by
  constructor
  · intro h
    refine ⟨?_, fun hunique => firstRepeated?_of_createIndex hunique h⟩
    rcases createIndex_cases h with ⟨hnamed, -⟩ | ⟨-, hc⟩
    · exact hnamed
    · have hlength := congrArg (fun c => c.indexes.length) hc
      simp at hlength
  · intro h
    obtain ⟨hnamed, hkeys⟩ := h
    have hfind : c.indexes.find? (fun present => present.name = index.name) = some index :=
      hnamed
    have hnone : (if index.unique then firstRepeated? [] (c.listedKeys index) else none) =
        none := by
      split
      · exact hkeys (by assumption)
      · rfl
    simp only [createIndex, hfind, hnone]
    simp

/-- **An index that was created can be created again**, which changes nothing. -/
theorem createIndex_again (h : c.createIndex index = .ok d) : d.createIndex index = .ok d := by
  rcases createIndex_cases h with ⟨-, rfl⟩ | ⟨hnamed, rfl⟩
  · exact h
  · rw [createIndex_eq_self_iff]
    have hkeys : index.unique = true → firstRepeated? [] (c.listedKeys index) = none :=
      fun hunique => firstRepeated?_of_createIndex hunique h
    refine ⟨?_, hkeys⟩
    unfold named? at hnamed ⊢
    simp [List.find?_append, hnamed]

/-- Other indexes do not change that. -/
theorem createIndex_still (hindex : c.createIndex index = .ok c)
    (h : c.createIndex other = .ok d) : d.createIndex index = .ok d := by
  rcases createIndex_cases h with ⟨-, rfl⟩ | ⟨-, rfl⟩
  · exact hindex
  · rw [createIndex_eq_self_iff] at hindex ⊢
    obtain ⟨hnamed, hkeys⟩ := hindex
    refine ⟨?_, hkeys⟩
    unfold named? at hnamed ⊢
    simp [List.find?_append, hnamed]

end Collection

namespace Store

variable {place : Place} {keys : Value} {options : Document} {s t u : Store}

/-- The index that the call describes was created on its collection, and every other
collection is as it was. -/
theorem collection_of_accepted {a : Unit}
    (h : server.answer (.createIndex place keys options) s = (.ok a, t)) :
    ∃ index, Index.described? keys options = some index ∧ ∀ other,
      other = place ∧ (s.collection other).createIndex index = .ok (t.collection other) ∨
        other ≠ place ∧ t.collection other = s.collection other := by
  obtain ⟨index, c, hindex, hcreate, rfl⟩ := createIndex_of_accepted h
  refine ⟨index, hindex, ?_⟩
  intro other
  by_cases hother : other = place
  · subst hother
    rw [collection_setCollection_self]
    exact Or.inl ⟨rfl, hcreate⟩
  · exact Or.inr ⟨hother, collection_setCollection_of_ne hother c s⟩

/-- The store accepts the call, which changes nothing. -/
def Ignores (q : Request) (s : Store) : Prop := ∃ a, server.answer q s = (.ok a, s)

theorem ignores_createIndex_iff :
    Ignores (.createIndex place keys options) s ↔
      (Request.createIndex place keys options).obstacle? = none ∧
        ∃ index, Index.described? keys options = some index ∧
          (s.collection place).createIndex index = .ok (s.collection place) := by
  constructor
  · intro h
    obtain ⟨a, hanswer⟩ := h
    obtain ⟨index, c, hindex, hcreate, hs⟩ := createIndex_of_accepted hanswer
    have hc : s.collection place = c := by
      rw [hs, collection_setCollection_self]
    refine ⟨(carriedOut_of_accepted hanswer).1, index, hindex, ?_⟩
    rw [hcreate, hc]
  · intro h
    obtain ⟨hwritten, index, hindex, hcreate⟩ := h
    refine ⟨(), ?_⟩
    have hdescribed := Collection.createDescribed_ok.mpr ⟨index, hindex, hcreate⟩
    rw [answer_of_written hwritten]
    exact settle_updateCollection_ok_iff.mpr
      ⟨_, hdescribed, (setCollection_collection place s).symm⟩

/-- The store `t` is the store `s` with the indexes that calls create. -/
structure IndexedBy (calls : List Request) (s t : Store) : Prop where
  accounts : t.accounts = s.accounts
  documents : ∀ place, (t.collection place).documents = (s.collection place).documents
  kept : ∀ place, (s.collection place).indexes <+: (t.collection place).indexes
  present : ∀ place index, index ∈ (t.collection place).indexes ↔
    index ∈ (s.collection place).indexes ∨
      ∃ keys options, .createIndex place keys options ∈ calls ∧
        Index.described? keys options = some index
  once : ∀ place, (s.collection place).indexes.Nodup → (t.collection place).indexes.Nodup

theorem IndexedBy.refl (s : Store) : IndexedBy [] s s where
  accounts := rfl
  documents := fun _ => rfl
  kept := fun _ => List.prefix_rfl
  present := by simp
  once := fun _ h => h

theorem IndexedBy.trans {calls more : List Request} (hst : IndexedBy calls s t)
    (htu : IndexedBy more t u) : IndexedBy (calls ++ more) s u where
  accounts := htu.accounts.trans hst.accounts
  documents := fun place => (htu.documents place).trans (hst.documents place)
  kept := fun place => (hst.kept place).trans (htu.kept place)
  present := by
    intro place index
    rw [htu.present, hst.present]
    simp only [List.mem_append, or_and_right, exists_or, or_assoc]
  once := fun place h => htu.once place (hst.once place h)

/-- An accepted creation adds its index, unless it is there. -/
theorem indexedBy_of_accepted {a : Unit}
    (h : server.answer (.createIndex place keys options) s = (.ok a, t)) :
    IndexedBy [.createIndex place keys options] s t where
  accounts := by
    obtain ⟨index, c, -, -, rfl⟩ := createIndex_of_accepted h
    rfl
  documents := by
    intro other
    obtain ⟨index, -, hcollections⟩ := collection_of_accepted h
    rcases hcollections other with ⟨-, hcreate⟩ | ⟨-, hsame⟩
    · rcases Collection.createIndex_ok hcreate with heq | heq <;> rw [heq]
    · rw [hsame]
  kept := by
    intro other
    obtain ⟨index, -, hcollections⟩ := collection_of_accepted h
    rcases hcollections other with ⟨-, hcreate⟩ | ⟨-, hsame⟩
    · exact Collection.prefix_of_createIndex hcreate
    · exact hsame.symm ▸ List.prefix_rfl
  present := by
    intro other present
    obtain ⟨index, hindex, hcollections⟩ := collection_of_accepted h
    rcases hcollections other with ⟨rfl, hcreate⟩ | ⟨hother, hsame⟩
    · rw [Collection.mem_of_createIndex hcreate]
      apply or_congr_right
      constructor
      · intro hpresent
        exact ⟨keys, options, List.mem_singleton_self _, hpresent ▸ hindex⟩
      · intro hcreated
        obtain ⟨_, _, hcall, hdescribed⟩ := hcreated
        cases List.mem_singleton.mp hcall
        exact Option.some.inj (hdescribed.symm.trans hindex)
    · simp [hsame, hother]
  once := by
    intro other hs
    obtain ⟨index, -, hcollections⟩ := collection_of_accepted h
    rcases hcollections other with ⟨-, hcreate⟩ | ⟨-, hsame⟩
    · exact Collection.nodup_of_createIndex hcreate hs
    · rwa [hsame]

/-- An index that the store ignores is still ignored after another was created. -/
theorem Ignores.after {a : Unit} {other : Place} {otherKeys : Value}
    {otherOptions : Document} (hignored : Ignores (.createIndex place keys options) s)
    (h : server.answer (.createIndex other otherKeys otherOptions) s = (.ok a, t)) :
    Ignores (.createIndex place keys options) t := by
  rw [ignores_createIndex_iff] at hignored ⊢
  obtain ⟨hwritten, index, hindex, hsettled⟩ := hignored
  refine ⟨hwritten, index, hindex, ?_⟩
  obtain ⟨created, -, hcollections⟩ := collection_of_accepted h
  rcases hcollections place with ⟨-, hcreate⟩ | ⟨-, hsame⟩
  · exact Collection.createIndex_still hsettled hcreate
  · rw [hsame]
    exact hsettled

/-- An index that was created is ignored. -/
theorem ignores_of_accepted {a : Unit}
    (h : server.answer (.createIndex place keys options) s = (.ok a, t)) :
    Ignores (.createIndex place keys options) t := by
  rw [ignores_createIndex_iff]
  obtain ⟨index, hindex, hcollections⟩ := collection_of_accepted h
  refine ⟨(carriedOut_of_accepted h).1, index, hindex, ?_⟩
  rcases hcollections place with ⟨-, hcreate⟩ | ⟨hne, -⟩
  · exact Collection.createIndex_again hcreate
  · exact absurd rfl hne

end Store

/-! ## Written definitions -/

theorem Entries.erase_eq_filter {α : Type} (name : Text) (entries : Entries α) :
    erase name entries = entries.filter fun entry => entry.1 ≠ name := by
  induction entries with
  | nil => rfl
  | cons entry rest ih => by_cases h : entry.1 = name <;> simp [erase, h, ih]

namespace Seeding

/-- The definitions of a table, each with its collection. -/
def placed (database : Text) (table : IndexTable) : List (Place × Document) :=
  table.flatMap fun (collection, definitions) =>
    definitions.map fun entries => (⟨database, collection⟩, entries)

/-- The call creates the index of a definition: on its collection, with its keys as they
are written, and with every other entry of it, and nothing else, as an option. -/
inductive Creates : Place × Document → Request → Prop
  | intro (place : Place) {entries : Document} {keys : Value}
      (hkeys : entries.get? "keys" = some keys) :
      Creates (place, entries)
        (.createIndex place keys (entries.filter fun entry => entry.1 ≠ "keys"))

/-- A definition with keys is attempted with its call, as it is. -/
theorem Creates.indexing {definition : Place × Document} {q : Request}
    (h : Creates definition q) :
    indexing definition.1 definition.2 = .attempt (.ok q) id := by
  cases h with
  | intro place hkeys => simp only [Seeding.indexing, hkeys, Entries.erase_eq_filter]

theorem point_of_creates {definitions : List (Place × Document)} {calls : List Request}
    (h : List.Forall₂ Creates definitions calls) : ∀ q ∈ calls, q.point = .createIndex := by
  induction h with
  | nil => simp
  | cons hcall _ ih =>
      rw [List.forall_mem_cons]
      refine ⟨?_, ih⟩
      cases hcall with
      | intro place hkeys => rfl

/-- A definition has keys and a call, or it has none and nothing can be attempted. -/
theorem creates_or_noKeys (definition : Place × Document) :
    (∃ q, Creates definition q) ∨ definition.2.get? "keys" = none ∧
      indexing definition.1 definition.2 =
        .attempt (.error (Failure.of (.missingKey (.text "keys")))) id := by
  obtain ⟨place, entries⟩ := definition
  cases hkeys : Entries.get? "keys" entries with
  | none => exact Or.inr ⟨rfl, by simp only [indexing, hkeys]⟩
  | some keys => exact Or.inl ⟨_, .intro place hkeys⟩

/-- The stages of a table are those of its definitions, in order. -/
theorem indexings_eq_map (database : Text) (table : IndexTable) :
    indexings database table =
      (placed database table).map fun definition => indexing definition.1 definition.2 := by
  simp [indexings, placed, List.map_flatMap, Function.comp_def]

/-! ## Passing over a table -/

section

variable (server : Server σ) (accepted : List Request) (t : σ) (c : Clock)

/-- How the creation of indexes ends.  Some calls have been accepted, which led to the
state `t`, and these definitions are left: none at all; or the next one has no keys, and
there is no call; or its call is refused, and the refusal is passed on. -/
inductive Ends : List (Place × Document) → Outcome σ (Except Failure Unit) → Prop
  | complete : Ends [] ⟨.ok (), accepted.map .call, t, c⟩
  | noKeys {place : Place} {entries : Document} {later : List (Place × Document)}
      (h : entries.get? "keys" = none) :
      Ends ((place, entries) :: later)
        ⟨.error (Failure.of (.missingKey (.text "keys"))), accepted.map .call, t, c⟩
  | refused {definition : Place × Document} {later : List (Place × Document)} {q : Request}
      {f : Failure} {u : σ} (hcreates : Creates definition q)
      (hrefused : server.answer q t = (.error f, u)) :
      Ends (definition :: later) ⟨.error f, (accepted ++ [q]).map .call, u, c⟩

end

variable {server : Server σ} {held : σ → Store} {definitions left : List (Place × Document)}
  {accepted calls : List Request} {s t : σ} {c : Clock} {o : Outcome σ (Except Failure Unit)}

theorem Ends.after (h : Ends server accepted t c left o) (q : Request) :
    Ends server (q :: accepted) t c left (o.after (.call q)) := by
  cases h with
  | complete => exact .complete
  | noKeys h => exact .noKeys h
  | refused hcreates hrefused => exact .refused hcreates hrefused

/-- **The calls of the first definitions are accepted**, up to the one that ends the
work. -/
theorem perform_placed (server : Server σ) (definitions : List (Place × Document)) (s : σ)
    (c : Clock) :
    ∃ before left accepted t, definitions = before ++ left ∧
      List.Forall₂ Creates before accepted ∧ Accepts server s accepted t ∧
      Ends server accepted t c left ((perform server (definitions.map fun definition =>
        indexing definition.1 definition.2) s).outcome () c) := by
  induction definitions generalizing s with
  | nil => exact ⟨[], [], [], s, rfl, .nil, .nil s, .complete⟩
  | cons definition rest ih =>
      rw [List.map_cons]
      rcases creates_or_noKeys definition with ⟨q, hcreates⟩ | ⟨hnone, hstage⟩
      · rw [hcreates.indexing]
        rcases hanswer : server.answer q s with ⟨f | a, t⟩
        · refine ⟨[], _, [], s, rfl, .nil, .nil s, ?_⟩
          simp only [perform, hanswer]
          exact .refused hcreates hanswer
        · obtain ⟨before, left, accepted, u, rfl, hbefore, haccepted, hends⟩ := ih t
          refine ⟨definition :: before, left, q :: accepted, u, rfl, .cons hcreates hbefore,
            .cons hanswer haccepted, ?_⟩
          simp only [perform, hanswer]
          exact hends.after q
      · rw [hstage]
        exact ⟨[], _, [], s, rfl, .nil, .nil s, .noKeys hnone⟩

/-! ## What the accepted calls have done -/

theorem indexedBy_of_accepts (truthful : Truthful server held)
    (hcalls : List.Forall₂ Creates definitions calls) (h : Accepts server s calls t) :
    Store.IndexedBy calls (held s) (held t) := by
  induction h generalizing definitions with
  | nil s => exact .refl (held s)
  | cons head _ ih =>
      cases hcalls with
      | cons hcall hrest =>
          cases hcall with
          | intro place hkeys =>
              exact (Store.indexedBy_of_accepted (truthful.carriedOut head)).trans (ih hrest)

/-- What the store ignores it still ignores after indexes were created. -/
theorem ignores_of_ignores (truthful : Truthful server held)
    (hcalls : List.Forall₂ Creates definitions calls) (h : Accepts server s calls t)
    {place : Place} {keys : Value} {options : Document}
    (hignored : Store.Ignores (.createIndex place keys options) (held s)) :
    Store.Ignores (.createIndex place keys options) (held t) := by
  induction h generalizing definitions with
  | nil s => exact hignored
  | cons head _ ih =>
      cases hcalls with
      | cons hcall hrest =>
          cases hcall with
          | intro other hkeys =>
              exact ih hrest (hignored.after (truthful.carriedOut head))

/-- Every call that was accepted is ignored at the end. -/
theorem ignores_of_accepts (truthful : Truthful server held)
    (hcalls : List.Forall₂ Creates definitions calls) (h : Accepts server s calls t) :
    ∀ q ∈ calls, Store.Ignores q (held t) := by
  induction h generalizing definitions with
  | nil s => simp
  | cons head tail ih =>
      cases hcalls with
      | cons hcall hrest =>
          intro q hq
          rcases List.mem_cons.mp hq with rfl | hlater
          · cases hcall with
            | intro place hkeys =>
                exact ignores_of_ignores truthful hrest tail
                  (Store.ignores_of_accepted (truthful.carriedOut head))
          · exact ih hrest q hlater

/-- The refusal of a call, and a definition without keys, do nothing. -/
theorem Ends.held_state (truthful : Truthful server held) (h : Ends server accepted t c left o) :
    held o.state = held t := by
  cases h with
  | complete => rfl
  | noKeys => rfl
  | refused _ hrefused => exact truthful.nothingDone hrefused

/-- Creating indexes succeeds when no definition is left, and only then. -/
theorem Ends.of_ok (h : Ends server accepted t c left o) (hok : o.result = .ok ()) :
    left = [] ∧ o = ⟨.ok (), accepted.map .call, t, c⟩ := by
  cases h with
  | complete => exact ⟨rfl, rfl⟩
  | noKeys => cases hok
  | refused => cases hok

/-! ## A second pass -/

/-- In this state the server takes each of these calls for done when the store has all
that it asks for, the same in all parts: it accepts, and nothing changes. -/
def IgnoresIdentical (server : Server σ) (held : σ → Store) (calls : List Request) (s : σ) :
    Prop :=
  ∀ q ∈ calls, Store.Ignores q (held s) → ∃ a, server.answer q s = (.ok a, s)

/-- The store itself does so in every state. -/
theorem ignoresIdentical_store (calls : List Request) (s : Store) :
    IgnoresIdentical Store.server id calls s :=
  fun _ _ hignored => hignored

theorem meet_elsewhere {point : CallPoint} {pending : List Disturbance}
    (h : ∀ d ∈ pending, d.point ≠ point) : Disturbance.meet point pending = (none, pending) := by
  induction pending with
  | nil => rfl
  | cons d rest ih =>
      have hd : d.point ≠ point := h d List.mem_cons_self
      have hrest := ih fun e he => h e (List.mem_cons_of_mem d he)
      simp only [Disturbance.meet, hd, if_false, hrest]

/-- Disturbances that wait at other points do not matter. -/
theorem IgnoresIdentical.disturbed {state : List Disturbance × σ}
    (h : IgnoresIdentical server held calls state.2)
    (hcalls : ∀ q ∈ calls, q.point = .createIndex)
    (hpending : ∀ d ∈ state.1, d.point ≠ .createIndex) :
    IgnoresIdentical (Disturbance.server server) (fun state => held state.2) calls state := by
  intro q hq hignored
  obtain ⟨a, hanswer⟩ := h q hq hignored
  refine ⟨a, ?_⟩
  have hpoint := hcalls q hq
  have hmeet := meet_elsewhere hpending
  simp only [Disturbance.server, hpoint, hmeet, hanswer]

/-- Calls that are accepted without a change are made one after the other. -/
theorem perform_again (hcalls : List.Forall₂ Creates definitions calls)
    (hidle : ∀ q ∈ calls, ∃ a, server.answer q t = (.ok a, t)) :
    perform server (definitions.map fun definition => indexing definition.1 definition.2) t =
      ⟨none, calls.map .call, t⟩ := by
  induction hcalls with
  | nil => rfl
  | @cons _ q _ rest hcall _ ih =>
      obtain ⟨a, hanswer⟩ := hidle q List.mem_cons_self
      have hlater := ih fun r hr => hidle r (List.mem_cons_of_mem q hr)
      simp only [List.map_cons, hcall.indexing, perform, hanswer, hlater]
      rfl

/-! ## The law -/

/-- **The indexes of a table are created in order**, up to the first definition that has
no keys or is refused.  Take any server and any table, whatever is written in it for keys
and options.  The calls that were accepted are those of the first definitions, one for
each, and every other call that was made is the one that was refused.

If the server holds a store, no document changes; and if it does nothing when it refuses,
the indexes are those that were there and those of the accepted calls.  When the table
was completed, and the server takes the creation of each index that it has just created
for done, a second pass succeeds with the same calls and changes nothing. -/
theorem table_indexed (server : Server σ) (database : Text) (table : IndexTable) (s : σ)
    (clock : Clock) :
    let o := Job.outcome server (ensureIndexes database table) s clock
    ∃ before left accepted t, placed database table = before ++ left ∧
      List.Forall₂ Creates before accepted ∧ Accepts server s accepted t ∧
      Ends server accepted t clock left o ∧
      (∀ held, Fallible server held → ∀ place,
        ((held o.state).collection place).documents =
          ((held s).collection place).documents) ∧
      ∀ held, Truthful server held →
        Store.IndexedBy accepted (held s) (held o.state) ∧
        (o.result = .ok () → IgnoresIdentical server held accepted o.state → ∀ again : Clock,
          Job.outcome server (ensureIndexes database table) o.state again =
            ⟨.ok (), o.events, o.state, again⟩) := by
  intro o
  obtain ⟨before, left, accepted, t, hsplit, hbefore, haccepts, hends⟩ :=
    perform_placed server (placed database table) s clock
  have ho : o = (perform server (indexings database table) s).outcome () clock :=
    ensureIndexes_outcome server database table s clock
  rw [← indexings_eq_map, ← ho] at hends
  refine ⟨before, left, accepted, t, hsplit, hbefore, haccepts, hends, ?_, ?_⟩
  · intro held fallible place
    exact ensureIndexes_documents fallible table s clock place
  · intro held truthful
    have hheld : held o.state = held t := hends.held_state truthful
    refine ⟨?_, ?_⟩
    · rw [hheld]
      exact indexedBy_of_accepts truthful hbefore haccepts
    · intro hok hidentical again
      obtain ⟨hleft, hcomplete⟩ := hends.of_ok hok
      have hall : placed database table = before := by rw [hsplit, hleft, List.append_nil]
      have hidle : ∀ q ∈ accepted, ∃ a, server.answer q o.state = (.ok a, o.state) := by
        intro q hq
        refine hidentical q hq ?_
        rw [hheld]
        exact ignores_of_accepts truthful hbefore haccepts q hq
      have hsecond := perform_again hbefore hidle
      have hevents : o.events = accepted.map .call := congrArg Outcome.events hcomplete
      rw [ensureIndexes_outcome, indexings_eq_map, hall, hsecond, hevents]
      rfl

/-- A table that defines one index twice, and others by the name of a field and by a
direction that is no number, for a server that will fail at the next insertion: the
indexes are created, and creating them again makes the same calls and changes nothing. -/
theorem table_indexed_repeated :
    let byName : Document := [("keys", .text "name"), ("expireAfterSeconds", .int 60)]
    let byPlace : Document := [("name", .text "places"),
      ("keys", .list [.tuple [.text "place", .text "2dsphere"], .tuple [.text "id", .int (-1)]]),
      ("sparse", .bool true)]
    let table : IndexTable := [("apps", [Layout.uniqueId, byName, byPlace, Layout.uniqueId]),
      ("users", [Layout.uniqueId])]
    let server := Disturbance.server Store.server
    let s : List Disturbance × Store :=
      ([⟨.insertOne, 0, Failure.of (.troubled .reconnect "lost")⟩],
        Store.empty.setCollection (appsOf "db") ⟨[[("id", .int 1)]], []⟩)
    let o := Job.outcome server (ensureIndexes "db" table) s [0]
    (o.state.2.collection (appsOf "db")).indexes = [Index.uniqueId,
        ⟨"name_1", [⟨"name", .int 1⟩], false, false, [("expireAfterSeconds", .int 60)]⟩,
        ⟨"places", [⟨"place", .text "2dsphere"⟩, ⟨"id", .int (-1)⟩], false, true, []⟩] ∧
      ∀ again : Clock, Job.outcome server (ensureIndexes "db" table) o.state again =
        ⟨.ok (), o.events, o.state, again⟩ := by
  intro byName byPlace table server s o
  have hstate : (perform server (indexings "db" table) s).state = o.state :=
    (congrArg Outcome.state (ensureIndexes_outcome server "db" table s [0])).symm
  have hcreated : o.result = .ok () := ensureIndexes_ok_iff.mpr ⟨by decide +kernel, hstate⟩
  obtain ⟨_, _, accepted, _, _, hbefore, _, _, _, hholds⟩ := table_indexed server "db" table s [0]
  have hidentical : IgnoresIdentical server (fun state => state.2) accepted o.state :=
    (ignoresIdentical_store accepted o.state.2).disturbed (point_of_creates hbefore)
      (by decide +kernel)
  have hagain := (hholds _ Truthful.store.disturbed).2 hcreated hidentical
  exact ⟨by decide +kernel, hagain⟩

end Seeding

end InitialLoad
