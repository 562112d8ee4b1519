import Mathlib.Data.List.Basic

/-!
Steps that may fail. A chain of steps succeeds if each of them does, and a step that is taken for
one member of a list after the other fails with what its first failing member does.
-/

namespace TestSelection

section Success

variable {ε ε' α β : Type}

theorem bind_eq_ok_iff {value : Except ε α} {next : α → Except ε β} {result : β} :
    value.bind next = .ok result ↔ ∃ input, value = .ok input ∧ next input = .ok result := by
  cases value <;> simp [Except.bind]

theorem map_eq_ok_iff {value : Except ε α} {change : α → β} {result : β} :
    value.map change = .ok result ↔ ∃ input, value = .ok input ∧ change input = result := by
  cases value <;> simp [Except.map]

theorem exists_map_eq_ok_iff {value : Except ε α} {change : α → β} :
    (∃ result, value.map change = .ok result) ↔ ∃ input, value = .ok input := by
  cases value <;> simp [Except.map]

theorem mapError_eq_ok_iff {value : Except ε α} {change : ε → ε'} {result : α} :
    value.mapError change = .ok result ↔ value = .ok result := by
  cases value <;> simp [Except.mapError]

/-- One check after the other. -/
theorem toOption_eq_some_iff {value : Except ε α} {result : α} :
    value.toOption = some result ↔ value = .ok result := by
  cases value <;> simp [Except.toOption]

theorem check_bind_eq_ok_iff {check : Except ε Unit} {next : Except ε β} {result : β} :
    (check.bind fun _ => next) = .ok result ↔ check = .ok () ∧ next = .ok result := by
  cases check <;> simp [Except.bind]

theorem exists_of_mapM {next : α → Except ε β} {members : List α} {results : List β}
    (h : members.mapM next = .ok results) {member : α} (hmember : member ∈ members) :
    ∃ result, next member = .ok result := by
  induction members generalizing results with
  | nil => exact absurd hmember List.not_mem_nil
  | cons first rest ih =>
    rw [List.mapM_cons] at h
    obtain ⟨result, hresult, h⟩ := bind_eq_ok_iff.mp h
    obtain ⟨others, hothers, _⟩ := bind_eq_ok_iff.mp h
    rcases List.mem_cons.mp hmember with rfl | hmember
    · exact ⟨result, hresult⟩
    · exact ih hothers hmember

/-- What is in the results for a list is in the result for one of its members. -/
theorem mem_flatten_of_mapM {next : α → Except ε (List β)} {members : List α}
    {parts : List (List β)} (h : members.mapM next = .ok parts) {x : β} :
    x ∈ parts.flatten ↔ ∃ member ∈ members, ∃ part, next member = .ok part ∧ x ∈ part := by
  induction members generalizing parts with
  | nil =>
    cases h
    simp
  | cons first rest ih =>
    rw [List.mapM_cons] at h
    obtain ⟨part, hpart, h⟩ := bind_eq_ok_iff.mp h
    obtain ⟨others, hothers, h⟩ := bind_eq_ok_iff.mp h
    cases h
    simp [ih hothers, hpart]

theorem forM_eq_ok_iff {check : α → Except ε Unit} {members : List α} :
    members.forM check = .ok () ↔ ∀ member ∈ members, check member = .ok () := by
  induction members with
  | nil => simp [List.forM, pure, Except.pure]
  | cons first rest ih =>
    rw [List.forall_mem_cons, ← ih]
    exact check_bind_eq_ok_iff

/-- Members that are read as they are described give what is described. -/
theorem mapM_of_forall₂ {describes : β → α → Prop} {next : α → Except ε β} {results : List β}
    {members : List α} (h : List.Forall₂ describes results members)
    (hnext : ∀ result member, describes result member → next member = .ok result) :
    members.mapM next = .ok results := by
  induction h with
  | nil => rfl
  | cons hfirst _ ih =>
    rw [List.mapM_cons, hnext _ _ hfirst, ih]
    rfl

/-- Going through a list succeeds with one result for each member. -/
theorem mapM_eq_ok_iff {next : α → Except ε β} {members : List α} {results : List β} :
    members.mapM next = .ok results ↔
      List.Forall₂ (fun member result => next member = .ok result) members results := by
  constructor
  · intro h
    induction members generalizing results with
    | nil =>
      cases h
      exact .nil
    | cons first rest ih =>
      rw [List.mapM_cons] at h
      obtain ⟨result, hresult, h⟩ := bind_eq_ok_iff.mp h
      obtain ⟨others, hothers, h⟩ := bind_eq_ok_iff.mp h
      cases h
      exact .cons hresult (ih hothers)
  · intro h
    induction h with
    | nil => rfl
    | cons hfirst _ ih =>
      rw [List.mapM_cons, hfirst, ih]
      rfl

/-- A search whose test does not fail is the search. -/
theorem findM?_of_forall {test : α → Except ε Bool} {wanted : α → Bool} {members : List α}
    (h : ∀ member ∈ members, test member = .ok (wanted member)) :
    members.findM? test = .ok (members.find? wanted) := by
  induction members with
  | nil => rfl
  | cons first rest ih =>
    obtain ⟨hfirst, hrest⟩ := List.forall_mem_cons.mp h
    have hstep : (first :: rest).findM? test =
        (test first).bind fun found => if found then .ok (some first) else rest.findM? test := by
      rw [List.findM?]
      show (test first).bind _ = _
      congr 1
      funext found
      cases found <;> rfl
    rw [hstep, hfirst, ih hrest]
    by_cases hwanted : wanted first = true
    · rw [List.find?_cons_of_pos hwanted, hwanted]
      rfl
    · rw [List.find?_cons_of_neg hwanted, Bool.eq_false_iff.mpr hwanted]
      rfl

variable {step : β → α → Except ε β} {start next : β} {first : α} {rest : List α} {error : ε}

theorem foldlM_cons_of_ok (h : step start first = .ok next) :
    (first :: rest).foldlM step start = rest.foldlM step next := by
  rw [List.foldlM_cons, h]
  rfl

theorem foldlM_cons_of_error (h : step start first = .error error) :
    (first :: rest).foldlM step start = .error error := by
  rw [List.foldlM_cons, h]
  rfl

end Success

section Failure

variable {ε α β : Type}

theorem exists_error_of_bind {value : Except ε α} {next : α → Except ε β}
    (h : ∃ error, value = .error error) : ∃ error, value.bind next = .error error := by
  obtain ⟨error, rfl⟩ := h
  exact ⟨error, rfl⟩

theorem exists_error_of_map {value : Except ε α} {change : α → β}
    (h : ∃ error, value = .error error) : ∃ error, value.map change = .error error := by
  obtain ⟨error, rfl⟩ := h
  exact ⟨error, rfl⟩

theorem exists_error_of_mapM {next : α → Except ε β} {members : List α} {member : α}
    (hmember : member ∈ members) (h : ∃ error, next member = .error error) :
    ∃ error, members.mapM next = .error error := by
  obtain ⟨error, herror⟩ := h
  cases hresults : members.mapM next with
  | error error => exact ⟨error, rfl⟩
  | ok results =>
    obtain ⟨result, hresult⟩ := exists_of_mapM hresults hmember
    cases herror.symm.trans hresult

/-- A member at which every step fails cannot be passed. -/
theorem exists_error_of_foldlM {step : β → α → Except ε β} {start : β} {members : List α}
    {member : α} (hmember : member ∈ members)
    (h : ∀ state, ∃ error, step state member = .error error) :
    ∃ error, members.foldlM step start = .error error := by
  induction members generalizing start with
  | nil => exact absurd hmember List.not_mem_nil
  | cons first rest ih =>
    cases hfirst : step start first with
    | error error => exact ⟨error, foldlM_cons_of_error hfirst⟩
    | ok next =>
      rw [foldlM_cons_of_ok hfirst]
      rcases List.mem_cons.mp hmember with rfl | hrest
      · obtain ⟨error, herror⟩ := h start
        cases herror.symm.trans hfirst
      · exact ih hrest

end Failure

section FirstFailure

variable {ε α β : Type} {next : α → Except ε β} {first : α} {rest members : List α} {error : ε}

theorem mapM_cons_of_error (h : next first = .error error) :
    (first :: rest).mapM next = .error error := by
  rw [List.mapM_cons, h]
  rfl

theorem mapM_cons_of_ok {result : β} (h : next first = .ok result) :
    (first :: rest).mapM next = (rest.mapM next).map (result :: ·) := by
  rw [List.mapM_cons, h]
  cases rest.mapM next <;> rfl

theorem isOk_iff {value : Except ε β} : value.isOk = true ↔ ∃ result, value = .ok result := by
  cases value <;> simp [Except.isOk, Except.toBool]

theorem mapM_eq_error_iff_find? :
    members.mapM next = .error error ↔
      ∃ member, members.find? (fun member => !(next member).isOk) = some member ∧
        next member = .error error := by
  induction members with
  | nil => simp [pure, Except.pure]
  | cons first rest ih =>
    cases hfirst : next first with
    | error fault => simp [mapM_cons_of_error hfirst, hfirst, Except.isOk, Except.toBool]
    | ok result =>
      have hrest : (rest.mapM next).map (result :: ·) = .error error ↔
          rest.mapM next = .error error := by
        cases rest.mapM next <;> simp [Except.map]
      rw [mapM_cons_of_ok hfirst, hrest, ih]
      simp [hfirst, Except.isOk, Except.toBool]

/-- Going through a list fails with what its first member that fails does. -/
theorem mapM_eq_error_iff :
    members.mapM next = .error error ↔ ∃ before member after, members = before ++ member :: after ∧
      (∀ earlier ∈ before, ∃ result, next earlier = .ok result) ∧ next member = .error error := by
  simp only [mapM_eq_error_iff_find?, List.find?_eq_some_iff_append, Bool.not_not, isOk_iff]
  constructor
  · rintro ⟨member, ⟨-, before, after, hmembers, hbefore⟩, hmember⟩
    exact ⟨before, member, after, hmembers, hbefore, hmember⟩
  · rintro ⟨before, member, after, hmembers, hbefore, hmember⟩
    have hfails : (!(next member).isOk) = true := by
      simp [hmember, Except.isOk, Except.toBool]
    exact ⟨member, ⟨hfails, before, after, hmembers, hbefore⟩, hmember⟩

end FirstFailure

end TestSelection
