import InitialLoad.Proofs.EntityReading
import Mathlib.Data.List.Induction

/-!
# Entries by their history

Entries come about by changes, one after the other, that set a name to a value or delete
it.  What they hold in the end is said here of the history alone: `Current`, that a name
is set to a value, and `Entered`, at which change it became set, to stay so ever since.
Setting a name that is set already enters nothing, and one that was deleted enters anew.

`Tracks` ties the two together: the entries hold what is current, each name once, in the
order in which the names entered.  It is kept by every change, so it holds of what any
history leaves (`tracks_after`).
-/

namespace InitialLoad.Entries

variable {α β : Type}

/-- A change to entries. -/
inductive Change (α : Type) where
  | set (name : Text) (value : α)
  | delete (name : Text)

namespace Change

/-- The name that is changed. -/
def name : Change α → Text
  | .set name _ => name
  | .delete name => name

/-- The entries after the change. -/
def apply (entries : Entries α) : Change α → Entries α
  | .set name value => entries.put name value
  | .delete name => entries.erase name

end Change

/-- The entries after a history of changes, none being there before. -/
def after (history : List (Change α)) : Entries α := history.foldl Change.apply []

theorem after_concat (history : List (Change α)) (c : Change α) :
    after (history ++ [c]) = c.apply (after history) := by
  simp [after]

/-! ## What a history says -/

/-- The name is set to the value, by the last change to it. -/
def Current (history : List (Change α)) (name : Text) (value : α) : Prop :=
  ∃ before after, history = before ++ .set name value :: after ∧ ∀ c ∈ after, c.name ≠ name

/-- The name was set at this change while it was not set, and never deleted since. -/
def Entered (history : List (Change α)) (name : Text) (time : Nat) : Prop :=
  ∃ before value after, history = before ++ .set name value :: after ∧ before.length = time ∧
    (∀ old, ¬ Current before name old) ∧ .delete name ∉ after

/-! ## One change more -/

/-- A place in a longer list is its end or a place before. -/
theorem concat_eq_append_cons {xs before after : List β} {x y : β} :
    xs ++ [x] = before ++ y :: after ↔
      (after = [] ∧ xs = before ∧ x = y) ∨
        ∃ middle, after = middle ++ [x] ∧ xs = before ++ y :: middle := by
  constructor
  · intro h
    rcases List.eq_nil_or_concat after with rfl | ⟨middle, z, rfl⟩
    · obtain ⟨hxs, hx⟩ := List.append_inj' h rfl
      exact Or.inl ⟨rfl, hxs, List.singleton_inj.mp hx⟩
    · rw [List.concat_eq_append] at h ⊢
      rw [← List.cons_append, ← List.append_assoc] at h
      obtain ⟨hxs, hx⟩ := List.append_inj' h rfl
      exact Or.inr ⟨middle, by rw [List.singleton_inj.mp hx], hxs⟩
  · rintro (⟨rfl, rfl, rfl⟩ | ⟨middle, rfl, rfl⟩)
    · rfl
    · simp

section

variable {history : List (Change α)} {c : Change α} {name : Text} {v w : α} {time : Nat}

theorem not_current_nil : ¬ Current ([] : List (Change α)) name v := by
  rintro ⟨before, later, h, -⟩
  simp at h

theorem not_entered_nil : ¬ Entered ([] : List (Change α)) name time := by
  rintro ⟨before, v, later, h, -⟩
  simp at h

theorem current_concat :
    Current (history ++ [c]) name v ↔
      c = .set name v ∨ c.name ≠ name ∧ Current history name v := by
  constructor
  · rintro ⟨before, later, hsplit, hlater⟩
    obtain ⟨rfl, rfl, rfl⟩ | ⟨middle, rfl, rfl⟩ := concat_eq_append_cons.mp hsplit
    · exact Or.inl rfl
    · rw [List.forall_mem_append] at hlater
      exact Or.inr ⟨hlater.2 c List.mem_cons_self, before, middle, rfl, hlater.1⟩
  · rintro (rfl | ⟨hc, before, later, rfl, hlater⟩)
    · exact ⟨history, [], rfl, nofun⟩
    · refine ⟨before, later ++ [c], by simp, List.forall_mem_append.mpr ⟨hlater, ?_⟩⟩
      simpa using hc

theorem entered_concat :
    Entered (history ++ [c]) name time ↔
      (c ≠ .delete name ∧ Entered history name time) ∨
        (∃ v, c = .set name v) ∧ time = history.length ∧ ∀ old, ¬ Current history name old := by
  constructor
  · rintro ⟨before, v, later, hsplit, rfl, hnew, hkept⟩
    obtain ⟨rfl, rfl, rfl⟩ | ⟨middle, rfl, rfl⟩ := concat_eq_append_cons.mp hsplit
    · exact Or.inr ⟨⟨v, rfl⟩, rfl, hnew⟩
    · rw [List.mem_append, not_or, List.mem_singleton] at hkept
      exact Or.inl ⟨Ne.symm hkept.2, before, v, middle, rfl, rfl, hnew, hkept.1⟩
  · rintro (⟨hc, before, v, later, rfl, rfl, hnew, hkept⟩ | ⟨⟨v, rfl⟩, rfl, hnew⟩)
    · refine ⟨before, v, later ++ [c], by simp, rfl, hnew, ?_⟩
      rw [List.mem_append, not_or, List.mem_singleton]
      exact ⟨hkept, Ne.symm hc⟩
    · exact ⟨history, v, [], rfl, rfl, hnew, nofun⟩

/-! ## A name that is set entered once -/

/-- A name has entered exactly when it is set. -/
theorem exists_entered_iff : (∃ time, Entered history name time) ↔ ∃ v, Current history name v := by
  induction history using List.reverseRecOn with
  | nil => simp [not_entered_nil, not_current_nil]
  | append_singleton history c ih =>
      simp only [entered_concat, current_concat]
      by_cases hc : c.name = name
      · cases c with
        | set n x =>
            cases hc
            refine ⟨fun _ => ⟨x, Or.inl rfl⟩, fun _ => ?_⟩
            by_cases hset : ∃ v, Current history n v
            · obtain ⟨time, htime⟩ := ih.mpr hset
              exact ⟨time, Or.inl ⟨nofun, htime⟩⟩
            · exact ⟨_, Or.inr ⟨⟨x, rfl⟩, rfl, not_exists.mp hset⟩⟩
        | delete n =>
            cases hc
            simp [Change.name]
      · have hset : ∀ v, c ≠ .set name v := by
          rintro v rfl
          exact hc rfl
        have hdelete : c ≠ .delete name := by
          rintro rfl
          exact hc rfl
        simpa [hset, hdelete, hc] using ih

theorem Current.unique (hv : Current history name v) (hw : Current history name w) : v = w := by
  induction history using List.reverseRecOn with
  | nil => exact absurd hv not_current_nil
  | append_singleton history c ih =>
      rw [current_concat] at hv hw
      obtain rfl | ⟨hc, hv⟩ := hv
      · obtain heq | ⟨hne, -⟩ := hw
        · exact (Change.set.inj heq).2
        · exact absurd rfl hne
      · obtain rfl | ⟨-, hw⟩ := hw
        · exact absurd rfl hc
        · exact ih hv hw

/-- It entered before the end of the history. -/
theorem Entered.lt (h : Entered history name time) : time < history.length := by
  obtain ⟨before, v, later, rfl, rfl, -⟩ := h
  simp

theorem Entered.exists_current (h : Entered history name time) : ∃ v, Current history name v :=
  exists_entered_iff.mp ⟨time, h⟩

theorem Entered.unique {other : Nat} (h : Entered history name time)
    (h' : Entered history name other) : time = other := by
  induction history using List.reverseRecOn with
  | nil => exact absurd h not_entered_nil
  | append_singleton history c ih =>
      rw [entered_concat] at h h'
      obtain ⟨-, h⟩ | ⟨-, rfl, hnew⟩ := h
      · obtain ⟨-, h'⟩ | ⟨-, -, hnew⟩ := h'
        · exact ih h h'
        · obtain ⟨v, hv⟩ := h.exists_current
          exact absurd hv (hnew v)
      · obtain ⟨-, h'⟩ | ⟨-, rfl, -⟩ := h'
        · obtain ⟨v, hv⟩ := h'.exists_current
          exact absurd hv (hnew v)
        · rfl

/-- Only one name enters at a time. -/
theorem Entered.name_eq {other : Text} (h : Entered history name time)
    (h' : Entered history other time) : name = other := by
  obtain ⟨before, v, later, rfl, rfl, -⟩ := h
  obtain ⟨before', v', later', hsplit, hlength, -⟩ := h'
  obtain ⟨-, heq⟩ := List.append_inj hsplit hlength.symm
  exact (Change.set.inj (List.cons.inj heq).1).1

/-- A name that was set before did not enter with the last change. -/
theorem Entered.of_concat (h : Entered (history ++ [c]) name time)
    (hset : ∃ v, Current history name v) : Entered history name time := by
  obtain ⟨-, h⟩ | ⟨-, -, hnew⟩ := entered_concat.mp h
  · exact h
  · exact absurd hset (not_exists.mpr hnew)

end

/-! ## What a history leaves -/

section

variable {entries : Entries α} {name : Text}

theorem put_of_absent (h : get? name entries = none) (v : α) :
    put name v entries = entries ++ [(name, v)] := by
  induction entries with
  | nil => rfl
  | cons entry rest ih =>
      by_cases hname : entry.1 = name
      · simp [get?, hname] at h
      · simp only [get?, hname, if_false] at h
        simp [put, hname, ih h]

theorem erase_sublist (name : Text) (entries : Entries α) :
    (erase name entries).Sublist entries := by
  induction entries with
  | nil => exact .slnil
  | cons entry rest ih =>
      by_cases hname : entry.1 = name
      · simpa [erase, hname] using ih.cons entry
      · simpa [erase, hname] using ih.cons_cons entry

end

/-- The entries hold what is current, in the order in which the names entered. -/
structure Tracks (history : List (Change α)) (entries : Entries α) : Prop where
  current : ∀ name v, get? name entries = some v ↔ Current history name v
  ordered : (entries.map Prod.fst).Pairwise fun a b =>
    ∀ s t, Entered history a s → Entered history b t → s < t

namespace Tracks

variable {history : List (Change α)} {entries : Entries α} {name : Text}

/-- A name of the entries is set. -/
theorem exists_current (h : Tracks history entries) (hname : name ∈ entries.map Prod.fst) :
    ∃ v, Current history name v := by
  obtain ⟨v, hv⟩ := exists_get?_of_mem hname
  exact ⟨v, (h.current name v).mp hv⟩

theorem set (h : Tracks history entries) (n : Text) (x : α) :
    Tracks (history ++ [.set n x]) (entries.put n x) := by
  refine ⟨fun name v => ?_, ?_⟩
  · rw [current_concat]
    by_cases hname : name = n
    · subst hname
      rw [get?_put_self]
      simp [Change.name]
    · rw [get?_put_of_ne hname, h.current]
      simp [Change.name, Ne.symm hname]
  · cases hget : get? n entries with
    | some old =>
        -- every name was there before, so none has entered with this change
        rw [map_fst_put hget]
        refine h.ordered.imp_of_mem fun ha hb hab s t hs ht => ?_
        exact hab s t (hs.of_concat (h.exists_current ha)) (ht.of_concat (h.exists_current hb))
    | none =>
        have hnew : ∀ v, ¬ Current history n v := by
          intro v hv
          rw [(h.current n v).mpr hv] at hget
          cases hget
        rw [put_of_absent hget, List.map_append, List.pairwise_append]
        refine ⟨?_, List.pairwise_singleton _ _, ?_⟩
        · refine h.ordered.imp_of_mem fun ha hb hab s t hs ht => ?_
          exact hab s t (hs.of_concat (h.exists_current ha)) (ht.of_concat (h.exists_current hb))
        · intro a ha b hb s t hs ht
          cases List.mem_singleton.mp hb
          have hlt := (hs.of_concat (h.exists_current ha)).lt
          obtain ⟨-, hold⟩ | ⟨-, rfl, -⟩ := entered_concat.mp ht
          · obtain ⟨v, hv⟩ := hold.exists_current
            exact absurd hv (hnew v)
          · exact hlt

theorem delete (h : Tracks history entries) (n : Text) :
    Tracks (history ++ [.delete n]) (entries.erase n) := by
  refine ⟨fun name v => ?_, ?_⟩
  · rw [current_concat]
    by_cases hname : name = n
    · subst hname
      rw [get?_erase_self]
      simp [Change.name]
    · rw [get?_erase_of_ne hname, h.current]
      simp [Change.name, Ne.symm hname]
  · have hold : ∀ {a s}, Entered (history ++ [.delete n]) a s → Entered history a s := by
      intro a s hs
      obtain ⟨-, hs⟩ | ⟨⟨_, hset⟩, -⟩ := entered_concat.mp hs
      · exact hs
      · cases hset
    refine (h.ordered.sublist ((erase_sublist n entries).map _)).imp fun hab s t hs ht => ?_
    exact hab s t (hold hs) (hold ht)

end Tracks

/-- **What a history leaves is tracked by it.** -/
theorem tracks_after (history : List (Change α)) : Tracks history (after history) := by
  induction history using List.reverseRecOn with
  | nil =>
      refine ⟨fun name v => ?_, .nil⟩
      exact ⟨nofun, fun h => absurd h not_current_nil⟩
  | append_singleton history c ih =>
      rw [after_concat]
      cases c with
      | set n x => exact ih.set n x
      | delete n => exact ih.delete n

/-! ## A part of the names -/

section

variable (keep : Text → Bool)

/-- The entries of the names that are kept. -/
def keeping (entries : Entries α) : Entries α := entries.filter fun entry => keep entry.1

variable {keep} in
theorem get?_keeping {name : Text} (hkeep : keep name = true) (entries : Entries α) :
    get? name (keeping keep entries) = get? name entries := by
  simpa [keeping] using get?_filter_map hkeep (fun _ v => v) entries

theorem keeping_put (name : Text) (v : α) (entries : Entries α) :
    keeping keep (put name v entries) =
      if keep name then put name v (keeping keep entries) else keeping keep entries := by
  induction entries with
  | nil => cases hkeep : keep name <;> simp [keeping, put, hkeep]
  | cons entry rest ih =>
      by_cases hname : entry.1 = name
      · cases hkeep : keep name <;> simp [keeping, put, hname, hkeep]
      · simp only [keeping, put, hname, if_false, List.filter_cons] at ih ⊢
        rw [ih]
        cases keep entry.1 <;> cases keep name <;> simp [put, hname]

theorem keeping_erase (name : Text) (entries : Entries α) :
    keeping keep (erase name entries) =
      if keep name then erase name (keeping keep entries) else keeping keep entries := by
  induction entries with
  | nil => cases keep name <;> rfl
  | cons entry rest ih =>
      by_cases hname : entry.1 = name
      · cases hkeep : keep name <;> simp_all [keeping, erase]
      · simp only [keeping, erase, hname, if_false, List.filter_cons] at ih ⊢
        rw [ih]
        cases keep entry.1 <;> cases keep name <;> simp [erase, hname]

theorem keeping_apply (c : Change α) (entries : Entries α) :
    keeping keep (c.apply entries) =
      if keep c.name then c.apply (keeping keep entries) else keeping keep entries := by
  cases c with
  | set name v => exact keeping_put keep name v entries
  | delete name => exact keeping_erase keep name entries

/-- What a history leaves under some names is left by the changes to them. -/
theorem keeping_after (history : List (Change α)) :
    keeping keep (after history) = after (history.filter fun c => keep c.name) := by
  induction history using List.reverseRecOn with
  | nil => rfl
  | append_singleton history c ih =>
      rw [after_concat, keeping_apply, ih, List.filter_append, List.filter_singleton]
      cases keep c.name with
      | true => simp [after_concat]
      | false => simp

end

end InitialLoad.Entries
