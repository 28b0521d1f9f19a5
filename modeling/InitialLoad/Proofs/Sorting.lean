import InitialLoad.Value.Sorting
import Mathlib.Data.List.Perm.Basic
import Mathlib.Order.Lattice

/-!
# What the sort of values does

Three facts about `Value.sorted`.  Whatever it gives is a permutation of the values
(`sorted_perm`).  Values among which `less` is a linear order, such as integers or texts,
are sorted without a failure, and ascend (`sorted_ascends`).  And a sort that succeeds has
compared every value with another one, so of two or more values that were sorted none is
null, and all or none of them are texts (`uniform_of_sorted`).

Each of them goes through the sort in its order: a run is extended, a value is put in its
place by halving, and the values after the run are put in one by one.
-/

namespace InitialLoad.Value

/-! ## Halving -/

/-- A list that is not empty has a middle. -/
theorem exists_halves {vs : List Value} (h : vs ≠ []) :
    ∃ below middle above, vs = below ++ middle :: above ∧ vs.length / 2 = below.length := by
  have hlength : vs.length / 2 < vs.length :=
    Nat.div_lt_self (List.length_pos_iff.mpr h) (by decide)
  refine ⟨vs.take (vs.length / 2), vs[vs.length / 2], vs.drop (vs.length / 2 + 1), ?_, ?_⟩
  · rw [← List.drop_eq_getElem_cons hlength, List.take_append_drop]
  · rw [List.length_take]
    omega

theorem insertSorted_nil (v : Value) (steps : Nat) : insertSorted v steps [] = .ok [v] := by
  cases steps <;> simp [insertSorted]

/-- One comparison puts a value below or above the middle of a sorted list. -/
theorem insertSorted_halves (v middle : Value) (steps : Nat) {below above : List Value}
    (hhalf : (below ++ middle :: above).length / 2 = below.length) :
    insertSorted v (steps + 1) (below ++ middle :: above) =
      match less v middle with
      | .error clash => .error clash
      | .ok true => (insertSorted v steps below).map (· ++ middle :: above)
      | .ok false => (insertSorted v steps above).map (below ++ middle :: ·) := by
  cases hless : less v middle with
  | error clash => simp only [insertSorted, hhalf, List.drop_left, hless]
  | ok isBelow =>
      cases isBelow <;>
        simp only [insertSorted, hhalf, List.drop_left, List.take_left, hless]

/-- How a value was put into a list: it is at the end of all comparisons, or it was
compared with the middle and put into one half. -/
theorem insertSorted_cases {v : Value} {steps : Nat} {vs longer : List Value}
    (h : insertSorted v (steps + 1) vs = .ok longer) :
    vs = [] ∧ longer = [v] ∨
      ∃ below middle above part, vs = below ++ middle :: above ∧
        (less v middle = .ok true ∧ insertSorted v steps below = .ok part ∧
            longer = part ++ middle :: above ∨
          less v middle = .ok false ∧ insertSorted v steps above = .ok part ∧
            longer = below ++ middle :: part) := by
  by_cases hempty : vs = []
  · rw [hempty, insertSorted_nil] at h
    exact Or.inl ⟨hempty, (Except.ok.inj h).symm⟩
  · obtain ⟨below, middle, above, rfl, hhalf⟩ := exists_halves hempty
    rw [insertSorted_halves v middle steps hhalf] at h
    refine Or.inr ⟨below, middle, above, ?_⟩
    cases hless : less v middle with
    | error clash => simp [hless] at h
    | ok comesFirst =>
        cases comesFirst with
        | true =>
            cases hpart : insertSorted v steps below with
            | error clash => simp [hless, hpart, Except.map] at h
            | ok part =>
                simp only [hless, hpart, Except.map, Except.ok.injEq] at h
                exact ⟨part, rfl, Or.inl ⟨rfl, rfl, h.symm⟩⟩
        | false =>
            cases hpart : insertSorted v steps above with
            | error clash => simp [hless, hpart, Except.map] at h
            | ok part =>
                simp only [hless, hpart, Except.map, Except.ok.injEq] at h
                exact ⟨part, rfl, Or.inr ⟨rfl, rfl, h.symm⟩⟩

/-! ## Permutations -/

theorem insertSorted_perm {v : Value} {steps : Nat} {vs longer : List Value}
    (h : insertSorted v steps vs = .ok longer) : longer.Perm (v :: vs) := by
  induction steps generalizing vs longer with
  | zero => rw [← Except.ok.inj h]
  | succ steps ih =>
      obtain ⟨rfl, rfl⟩ | ⟨below, middle, above, part, rfl,
        ⟨-, hpart, rfl⟩ | ⟨-, hpart, rfl⟩⟩ := insertSorted_cases h
      · exact .refl _
      · exact (ih hpart).append_right _
      · have hinside := ((ih hpart).cons middle).trans (List.Perm.swap v middle above)
        exact (hinside.append_left below).trans List.perm_middle

theorem extendRun_perm {descending : Bool} {run longer rest : List Value} {last : Value}
    {vs : List Value} (h : extendRun descending run last vs = .ok (longer, rest)) :
    (longer ++ rest).Perm (run ++ vs) := by
  induction vs generalizing run last with
  | nil =>
      cases h
      exact .refl _
  | cons v more ih =>
      rw [extendRun] at h
      cases hless : less v last with
      | error clash => simp [hless] at h
      | ok comesFirst =>
          simp only [hless] at h
          split at h
          · refine (ih h).trans ?_
            cases descending
            · simp
            · exact List.perm_middle.symm
          · cases h
            exact .refl _

theorem firstRun_perm {vs run rest : List Value} (h : firstRun vs = .ok (run, rest)) :
    (run ++ rest).Perm vs := by
  match vs with
  | [] =>
      cases h
      exact .refl _
  | [a] =>
      cases h
      exact .refl _
  | a :: b :: more =>
      rw [firstRun] at h
      cases hless : less b a with
      | error clash => simp [hless] at h
      | ok descending =>
          simp only [hless] at h
          refine (extendRun_perm h).trans ?_
          cases descending
          · exact .refl _
          · exact List.Perm.swap a b more

theorem insertAll_perm {run vs ws : List Value} (h : insertAll run vs = .ok ws) :
    ws.Perm (run ++ vs) := by
  induction vs generalizing run with
  | nil =>
      rw [← Except.ok.inj h, List.append_nil]
  | cons v rest ih =>
      rw [insertAll] at h
      cases hlonger : insertSorted v run.length run with
      | error clash => simp [hlonger] at h
      | ok longer =>
          simp only [hlonger] at h
          have hinserted := (insertSorted_perm hlonger).append_right rest
          exact ((ih h).trans hinserted).trans List.perm_middle.symm

/-- How values were sorted: there was a first run, and the others were put into it. -/
theorem sorted_cases {vs ws : List Value} (h : sorted vs = .ok ws) :
    ∃ run rest, firstRun vs = .ok (run, rest) ∧ insertAll run rest = .ok ws := by
  rw [sorted] at h
  cases hfirst : firstRun vs with
  | error clash => simp [hfirst] at h
  | ok parts => exact ⟨parts.1, parts.2, rfl, by simpa [hfirst] using h⟩

/-- **Sorting permutes**: nothing is lost, added or changed. -/
theorem sorted_perm {vs ws : List Value} (h : sorted vs = .ok ws) : ws.Perm vs := by
  obtain ⟨run, rest, hfirst, hrest⟩ := sorted_cases h
  exact (insertAll_perm hrest).trans (firstRun_perm hfirst)

/-! ## Values in a linear order -/

section

variable {κ : Type} [LinearOrder κ]

/-- Among the values of a sort `less` is the order of their keys. -/
def OrderedBy (key : Value → κ) (sort : Value → Prop) : Prop :=
  ∀ v w, sort v → sort w →
    less v w = .ok true ∧ key v < key w ∨ less v w = .ok false ∧ key w ≤ key v

/-- The keys of the list ascend. -/
def KeysAscend (key : Value → κ) (vs : List Value) : Prop := vs.Pairwise fun v w => key v ≤ key w

variable {key : Value → κ} {sort : Value → Prop} {vs ws below above : List Value} {middle : Value}

namespace KeysAscend

/-- A list ascends when its two parts do and a value between them is their bound. -/
theorem around_iff : KeysAscend key (below ++ middle :: above) ↔
    (KeysAscend key below ∧ ∀ v ∈ below, key v ≤ key middle) ∧
      KeysAscend key above ∧ ∀ w ∈ above, key middle ≤ key w := by
  simp only [KeysAscend, List.pairwise_append, List.pairwise_cons, List.forall_mem_cons]
  constructor
  · rintro ⟨hbelow, ⟨hlower, habove⟩, hacross⟩
    exact ⟨⟨hbelow, fun v hv => (hacross v hv).1⟩, habove, hlower⟩
  · rintro ⟨⟨hbelow, hupper⟩, habove, hlower⟩
    exact ⟨hbelow, ⟨hlower, habove⟩,
      fun v hv => ⟨hupper v hv, fun w hw => (hupper v hv).trans (hlower w hw)⟩⟩

end KeysAscend

/-- A value is put in its place in an ascending list. -/
theorem insertSorted_ascends (hless : OrderedBy key sort) {v : Value} {steps : Nat}
    (hv : sort v) (hsort : ∀ w ∈ vs, sort w) (hvs : KeysAscend key vs)
    (hsteps : vs.length ≤ steps) :
    ∃ longer, insertSorted v steps vs = .ok longer ∧ KeysAscend key longer := by
  induction steps generalizing vs with
  | zero =>
      obtain rfl := List.length_eq_zero_iff.mp (Nat.le_zero.mp hsteps)
      exact ⟨[v], rfl, List.pairwise_singleton _ _⟩
  | succ steps ih =>
      by_cases hempty : vs = []
      · subst hempty
        exact ⟨[v], insertSorted_nil v _, List.pairwise_singleton _ _⟩
      · obtain ⟨below, middle, above, rfl, hhalf⟩ := exists_halves hempty
        obtain ⟨⟨hbelow, hupper⟩, habove, hlower⟩ := KeysAscend.around_iff.mp hvs
        simp only [List.forall_mem_append, List.forall_mem_cons] at hsort
        obtain ⟨hsortBelow, hsortMiddle, hsortAbove⟩ := hsort
        rw [List.length_append, List.length_cons] at hsteps
        rw [insertSorted_halves v middle steps hhalf]
        rcases hless v middle hv hsortMiddle with ⟨hfirst, hlt⟩ | ⟨hlater, hle⟩
        · obtain ⟨part, hpart, hascend⟩ := ih hsortBelow hbelow (by omega)
          have hbound : ∀ w ∈ part, key w ≤ key middle := by
            intro w hw
            rcases List.mem_cons.mp ((insertSorted_perm hpart).mem_iff.mp hw) with rfl | hw
            · exact hlt.le
            · exact hupper w hw
          refine ⟨part ++ middle :: above, by simp [hfirst, hpart, Except.map], ?_⟩
          exact KeysAscend.around_iff.mpr ⟨⟨hascend, hbound⟩, habove, hlower⟩
        · obtain ⟨part, hpart, hascend⟩ := ih hsortAbove habove (by omega)
          have hbound : ∀ w ∈ part, key middle ≤ key w := by
            intro w hw
            rcases List.mem_cons.mp ((insertSorted_perm hpart).mem_iff.mp hw) with rfl | hw
            · exact hle
            · exact hlower w hw
          refine ⟨below ++ middle :: part, by simp [hlater, hpart, Except.map], ?_⟩
          exact KeysAscend.around_iff.mpr ⟨⟨hbelow, hupper⟩, hascend, hbound⟩

/-- Values are put into an ascending list one by one. -/
theorem insertAll_ascends (hless : OrderedBy key sort) {run : List Value}
    (hsort : ∀ v ∈ run ++ vs, sort v) (hrun : KeysAscend key run) :
    ∃ ws, insertAll run vs = .ok ws ∧ KeysAscend key ws := by
  induction vs generalizing run with
  | nil => exact ⟨run, rfl, hrun⟩
  | cons v rest ih =>
      have hv : sort v := hsort v (by simp)
      have hsortRun : ∀ w ∈ run, sort w := fun w hw => hsort w (List.mem_append_left _ hw)
      obtain ⟨longer, hlonger, hascend⟩ :=
        insertSorted_ascends hless hv hsortRun hrun (Nat.le_refl _)
      have hmore : ∀ w ∈ longer ++ rest, sort w := by
        intro w hw
        refine hsort w (List.perm_middle.mem_iff.mpr ?_)
        exact ((insertSorted_perm hlonger).append_right rest).mem_iff.mp hw
      rw [insertAll, hlonger]
      exact ih hmore hascend

/-- A run grows at its upper end, or at its lower end if it descends. -/
theorem extendRun_ascends (hless : OrderedBy key sort) {descending : Bool} {run : List Value}
    {last : Value} (hlast : sort last) (hsort : ∀ v ∈ vs, sort v) (hrun : KeysAscend key run)
    (hend : ∀ v ∈ run, if descending then key last ≤ key v else key v ≤ key last) :
    ∃ longer rest, extendRun descending run last vs = .ok (longer, rest) ∧
      KeysAscend key longer := by
  induction vs generalizing run last with
  | nil => exact ⟨run, [], rfl, hrun⟩
  | cons v rest ih =>
      obtain ⟨hv, hrest⟩ := List.forall_mem_cons.mp hsort
      rw [extendRun]
      rcases hless v last hv hlast with ⟨hfirst, hlt⟩ | ⟨hlater, hle⟩
      · rw [hfirst]
        cases descending with
        | true =>
            have hlower : ∀ w ∈ run, key v ≤ key w := fun w hw =>
              hlt.le.trans (by simpa using hend w hw)
            exact ih hv hrest (List.pairwise_cons.mpr ⟨hlower, hrun⟩) (by simpa using hlower)
        | false => exact ⟨run, v :: rest, rfl, hrun⟩
      · rw [hlater]
        cases descending with
        | true => exact ⟨run, v :: rest, rfl, hrun⟩
        | false =>
            have hupper : ∀ w ∈ run, key w ≤ key v := fun w hw =>
              (show key w ≤ key last by simpa using hend w hw).trans hle
            refine ih hv hrest (KeysAscend.around_iff.mpr ⟨⟨hrun, hupper⟩, .nil, by simp⟩) ?_
            simpa [or_imp, forall_and] using hupper

/-- The run at the start ascends. -/
theorem firstRun_ascends (hless : OrderedBy key sort) (hsort : ∀ v ∈ vs, sort v) :
    ∃ run rest, firstRun vs = .ok (run, rest) ∧ KeysAscend key run := by
  match vs with
  | [] => exact ⟨[], [], rfl, .nil⟩
  | [a] => exact ⟨[a], [], rfl, List.pairwise_singleton _ _⟩
  | a :: b :: rest =>
      simp only [List.forall_mem_cons] at hsort
      obtain ⟨ha, hb, hrest⟩ := hsort
      rw [firstRun]
      rcases hless b a hb ha with ⟨hfirst, hlt⟩ | ⟨hlater, hle⟩
      · rw [hfirst]
        exact extendRun_ascends hless hb hrest (List.pairwise_pair.mpr hlt.le) (by simp [hlt.le])
      · rw [hlater]
        exact extendRun_ascends hless hb hrest (List.pairwise_pair.mpr hle) (by simp [hle])

/-- **Values in a linear order are sorted**: the sort succeeds, and its result ascends. -/
theorem sorted_ascends (hless : OrderedBy key sort) (hsort : ∀ v ∈ vs, sort v) :
    ∃ ws, sorted vs = .ok ws ∧ KeysAscend key ws := by
  obtain ⟨run, rest, hfirst, hrun⟩ := firstRun_ascends hless hsort
  have hparts : ∀ v ∈ run ++ rest, sort v := fun v hv =>
    hsort v ((firstRun_perm hfirst).mem_iff.mp hv)
  obtain ⟨ws, hws, hascend⟩ := insertAll_ascends hless hparts hrun
  exact ⟨ws, by rw [sorted, hfirst]; exact hws, hascend⟩

end

/-! ## Values that were compared -/

/-- The value is a text. -/
def isText : Value → Bool
  | .text _ => true
  | _ => false

theorem magnitude?_of_lessNumber {v w : Value} {c : Bool} (h : lessNumber v w = .ok c) :
    v.magnitude?.isSome = true ∧ w.magnitude?.isSome = true := by
  have hwhole : ∀ {u : Value} {n : Int}, u.whole? = some n → u.magnitude?.isSome = true := by
    intro u n hu
    cases u <;> first | rfl | cases hu
  unfold lessNumber at h
  split at h
  case h_1 x y hv hw => exact ⟨hwhole hv, hwhole hw⟩
  case h_2 =>
    split at h
    case h_1 x y hv hw => simp [hv, hw]
    case h_2 => cases h

/-- Values between which there is an order are not null, and both or none are texts. -/
theorem alike_of_less {v w : Value} {c : Bool} (h : less v w = .ok c) :
    v.isNull = false ∧ w.isNull = false ∧ v.isText = w.isText := by
  unfold less at h
  split at h
  case h_5 =>
    obtain ⟨hv, hw⟩ := magnitude?_of_lessNumber h
    have hnumber : ∀ {u : Value}, u.magnitude?.isSome = true →
        u.isNull = false ∧ u.isText = false := by
      intro u hu
      cases u <;> first | exact ⟨rfl, rfl⟩ | cases hu
    exact ⟨(hnumber hv).1, (hnumber hw).1, (hnumber hv).2.trans (hnumber hw).2.symm⟩
  all_goals exact ⟨rfl, rfl, rfl⟩

section

variable {p : Value → Prop} (hclosed : ∀ {v w c}, p w → less v w = .ok c → p v) {vs : List Value}

include hclosed

/-- A value that was put into a list that is not empty was compared with one of its values. -/
theorem of_insertSorted {v : Value} {longer : List Value} (hp : ∀ w ∈ vs, p w) (hvs : vs ≠ [])
    (h : insertSorted v vs.length vs = .ok longer) : p v := by
  obtain ⟨steps, hsteps⟩ := Nat.exists_eq_succ_of_ne_zero (mt List.length_eq_zero_iff.mp hvs)
  rw [hsteps] at h
  obtain ⟨hempty, -⟩ | ⟨below, middle, above, part, rfl, hless⟩ := insertSorted_cases h
  · exact absurd hempty hvs
  · have hmiddle : p middle := hp middle (by simp)
    obtain ⟨hless, -, -⟩ | ⟨hless, -, -⟩ := hless
    · exact hclosed hmiddle hless
    · exact hclosed hmiddle hless

theorem of_insertAll {run ws : List Value} (hp : ∀ w ∈ run, p w) (hrun : run ≠ [])
    (h : insertAll run vs = .ok ws) : ∀ v ∈ vs, p v := by
  induction vs generalizing run with
  | nil => simp
  | cons v rest ih =>
      rw [insertAll] at h
      cases hlonger : insertSorted v run.length run with
      | error clash => simp [hlonger] at h
      | ok longer =>
          simp only [hlonger] at h
          have hv := of_insertSorted hclosed hp hrun hlonger
          have hperm := insertSorted_perm hlonger
          have hmore : ∀ w ∈ longer, p w := fun w hw =>
            List.forall_mem_cons.mpr ⟨hv, hp⟩ w (hperm.mem_iff.mp hw)
          have hlonger : longer ≠ [] := by
            rintro rfl
            simpa using hperm.length_eq
          exact List.forall_mem_cons.mpr ⟨hv, ih hmore hlonger h⟩

theorem of_extendRun {descending : Bool} {run longer rest : List Value} {last : Value}
    (hlast : p last) (hp : ∀ w ∈ run, p w) (hrun : run ≠ [])
    (h : extendRun descending run last vs = .ok (longer, rest)) :
    longer ≠ [] ∧ ∀ w ∈ longer, p w := by
  induction vs generalizing run last with
  | nil =>
      cases h
      exact ⟨hrun, hp⟩
  | cons v more ih =>
      rw [extendRun] at h
      cases hless : less v last with
      | error clash => simp [hless] at h
      | ok comesFirst =>
          have hv := hclosed hlast hless
          simp only [hless] at h
          split at h
          · refine ih hv ?_ ?_ h
            · cases descending
              · simpa [or_imp, forall_and] using ⟨hp, hv⟩
              · exact List.forall_mem_cons.mpr ⟨hv, hp⟩
            · cases descending <;> simp
          · cases h
            exact ⟨hrun, hp⟩

end

/-- **A sort that succeeds has compared everything**: of two or more values none is null,
and they are all texts or none of them is. -/
theorem uniform_of_sorted {a b : Value} {rest ws : List Value}
    (h : sorted (a :: b :: rest) = .ok ws) :
    ∀ v ∈ a :: b :: rest, v.isNull = false ∧ v.isText = a.isText := by
  obtain ⟨run, left, hfirst, hall⟩ := sorted_cases h
  have hclosed : ∀ {v w : Value} {c : Bool}, w.isNull = false ∧ w.isText = a.isText →
      less v w = .ok c → v.isNull = false ∧ v.isText = a.isText := by
    rintro v w c ⟨-, hw⟩ hless
    obtain ⟨hv, -, hsame⟩ := alike_of_less hless
    exact ⟨hv, hsame.trans hw⟩
  have hparts := firstRun_perm hfirst
  rw [firstRun] at hfirst
  cases hless : less b a with
  | error clash => simp [hless] at hfirst
  | ok descending =>
      simp only [hless] at hfirst
      obtain ⟨hb, ha, hsame⟩ := alike_of_less hless
      have hpair : ∀ v ∈ if descending then [b, a] else [a, b],
          v.isNull = false ∧ v.isText = a.isText := by
        cases descending <;> simp [ha, hb, hsame]
      have hstart : (if descending then [b, a] else [a, b]) ≠ [] := by cases descending <;> simp
      obtain ⟨hne, hrun⟩ := of_extendRun hclosed ⟨hb, hsame⟩ hpair hstart hfirst
      have hleft := of_insertAll hclosed hrun hne hall
      intro v hv
      rcases List.mem_append.mp (hparts.mem_iff.mpr hv) with hv | hv
      · exact hrun v hv
      · exact hleft v hv

end InitialLoad.Value
