import InitialLoad.Text.Basic

/-!
# Named entries

An ordered collection of entries, each under a name: the fields of a document,
the variables of an environment.  Assigning to a name that is present keeps its
place, assigning to a new one appends; the order is the order of arrival.
-/

namespace InitialLoad

/-- Entries in order of arrival. -/
abbrev Entries (α : Type) := List (Text × α)

namespace Entries

variable {α : Type}

/-- The entry of a name: the first one, if there are several. -/
def get? (name : Text) : Entries α → Option α
  | [] => none
  | (k, v) :: rest => if k = name then some v else get? name rest

/-- Assigns in place, or appends a name that is new. -/
def put (name : Text) (value : α) : Entries α → Entries α
  | [] => [(name, value)]
  | (k, v) :: rest => if k = name then (k, value) :: rest else (k, v) :: put name value rest

/-- Removes every entry of a name. -/
def erase (name : Text) : Entries α → Entries α
  | [] => []
  | (k, v) :: rest => if k = name then erase name rest else (k, v) :: erase name rest

/-- Assigns a sequence of entries, one after the other. -/
def putAll (changes entries : Entries α) : Entries α :=
  changes.foldl (fun es change => es.put change.1 change.2) entries

@[simp] theorem get?_nil (name : Text) : get? name ([] : Entries α) = none := rfl

theorem mem_of_get? {name : Text} {v : α} {entries : Entries α} (h : get? name entries = some v) :
    (name, v) ∈ entries := by
  induction entries with
  | nil => cases h
  | cons entry rest ih =>
      unfold get? at h
      split at h
      case isTrue hname =>
        cases h
        exact hname ▸ List.mem_cons_self
      case isFalse => exact List.mem_cons_of_mem _ (ih h)

theorem get?_put_self (name : Text) (value : α) (entries : Entries α) :
    get? name (put name value entries) = some value := by
  induction entries with
  | nil => simp [put, get?]
  | cons entry rest ih =>
    by_cases h : entry.1 = name
    · simp [put, get?, h]
    · simp [put, get?, h, ih]

theorem get?_put_of_ne {name other : Text} (h : other ≠ name) (value : α) (entries : Entries α) :
    get? other (put name value entries) = get? other entries := by
  induction entries with
  | nil => simp [put, get?, Ne.symm h]
  | cons entry rest ih =>
    by_cases hk : entry.1 = name
    · simp [put, get?, hk, Ne.symm h]
    · simp only [put, get?, hk, if_false, ih]

theorem get?_erase_self (name : Text) (entries : Entries α) :
    get? name (erase name entries) = none := by
  induction entries with
  | nil => rfl
  | cons entry rest ih =>
    by_cases h : entry.1 = name
    · simpa [erase, h] using ih
    · simpa [erase, h, get?] using ih

theorem get?_erase_of_ne {name other : Text} (h : other ≠ name) (entries : Entries α) :
    get? other (erase name entries) = get? other entries := by
  induction entries with
  | nil => rfl
  | cons entry rest ih =>
    by_cases hk : entry.1 = name
    · have ho : entry.1 ≠ other := fun e => h (e.symm.trans hk)
      simp only [erase, hk, if_true, get?, ih, Ne.symm h, if_false]
    · simp only [erase, hk, if_false, get?, ih]

end Entries

end InitialLoad
