import TestSelection.Change.Places
import TestSelection.Proofs.FallibleSteps
import TestSelection.Proofs.SourceRoots

/-!
Where the markers of a layout stand in a path. An occurrence of a marker is told by the number of
segments up to its end or by what is left behind it; the one that ends last has the least behind it.
Looking for it at one place after the other compares the marker with segments that are there, and
ends within the segments.
-/

namespace TestSelection.SourceLayout

variable {marker segments below : List String} {start stop : Nat}

/-- An occurrence of `marker` as a run of whole segments ends behind the first `stop` segments. An
empty marker does not occur anywhere. -/
def EndsAt (marker segments : List String) (stop : Nat) : Prop :=
  marker ≠ [] ∧ ∃ before below,
    segments = before ++ marker ++ below ∧ (before ++ marker).length = stop

theorem EndsAt.le_length (h : EndsAt marker segments stop) : stop ≤ segments.length := by
  obtain ⟨_, before, below, rfl, rfl⟩ := h
  simp only [List.length_append]
  omega

theorem EndsAt.follows (h : EndsAt marker segments stop) :
    Follows marker segments (segments.drop stop) := by
  obtain ⟨hmarker, before, below, rfl, rfl⟩ := h
  rw [List.drop_left]
  exact ⟨hmarker, before, rfl⟩

/-- What stands behind an occurrence tells where the occurrence ends. -/
theorem Follows.exists_endsAt (h : Follows marker segments below) :
    ∃ stop, EndsAt marker segments stop ∧ segments.drop stop = below := by
  obtain ⟨hmarker, before, rfl⟩ := h
  exact ⟨_, ⟨hmarker, before, below, rfl, rfl⟩, List.drop_left⟩

theorem Follows.exists_endsAt_length (h : Follows marker segments below) :
    ∃ stop, EndsAt marker segments stop ∧ stop + below.length = segments.length := by
  obtain ⟨stop, hends, rfl⟩ := h.exists_endsAt
  have hle := hends.le_length
  exact ⟨stop, hends, by rw [List.length_drop]; omega⟩

theorem Follows.endsAt_of_drop (h : Follows marker segments (segments.drop stop))
    (hstop : stop ≤ segments.length) : EndsAt marker segments stop := by
  obtain ⟨place, hends, hlength⟩ := h.exists_endsAt_length
  have hplace : place = stop := by
    rw [List.length_drop] at hlength
    omega
  rwa [hplace] at hends

/-- No occurrence ends later if none has less behind it. -/
theorem forall_endsAt_le_iff : (∀ other, EndsAt marker segments other → other ≤ stop) ↔
    ∀ other, Follows marker segments other → (segments.drop stop).length ≤ other.length := by
  rw [List.length_drop]
  constructor
  · intro h other hother
    obtain ⟨place, hends, hlength⟩ := hother.exists_endsAt_length
    have hle := h place hends
    omega
  · intro h other hother
    have hle := h _ hother.follows
    have hbound := hother.le_length
    rw [List.length_drop] at hle
    omega

theorem forall_endsAt_lt_iff (hstop : stop ≤ segments.length) :
    (∀ other, EndsAt marker segments other → other < stop) ↔
      ∀ other, Follows marker segments other → (segments.drop stop).length < other.length := by
  rw [List.length_drop]
  constructor
  · intro h other hother
    obtain ⟨place, hends, hlength⟩ := hother.exists_endsAt_length
    have hlt := h place hends
    omega
  · intro h other hother
    have hlt := h _ hother.follows
    rw [List.length_drop] at hlt
    omega

theorem afterLast_eq_some_iff : afterLast marker segments = some below ↔
    Follows marker segments below ∧
      ∀ other, Follows marker segments other → below.length ≤ other.length := by
  constructor
  · exact afterLast_eq_some
  · intro ⟨hfollows, hshortest⟩
    cases hlast : afterLast marker segments with
    | none => exact absurd hfollows (afterLast_eq_none hlast below)
    | some found =>
      obtain ⟨hfound, hleast⟩ := afterLast_eq_some hlast
      have hlength : found.length = below.length :=
        Nat.le_antisymm (hleast below hfollows) (hshortest found hfound)
      have hsuffix : found <:+ below :=
        List.suffix_of_suffix_length_le hfound.suffix hfollows.suffix hlength.le
      rw [hsuffix.eq_of_length hlength]

/-- An occurrence is found by comparing the marker with what stands at a place. -/
theorem endsAt_add_iff (hmarker : marker ≠ []) (hroom : start + marker.length ≤ segments.length) :
    EndsAt marker segments (start + marker.length) ↔ marker <+: segments.drop start := by
  constructor
  · intro h
    obtain ⟨_, before, below, rfl, hlength⟩ := h
    have hstart : start = before.length := by
      rw [List.length_append] at hlength
      omega
    rw [hstart, List.append_assoc, List.drop_left]
    exact List.prefix_append marker below
  · intro h
    obtain ⟨below, hbelow⟩ := h
    refine ⟨hmarker, segments.take start, below, ?_, ?_⟩
    · rw [List.append_assoc, hbelow, List.take_append_drop]
    · rw [List.length_append, List.length_take_of_le (by omega)]

theorem EndsAt.exists_start (h : EndsAt marker segments stop) :
    ∃ start, start + marker.length = stop := by
  obtain ⟨_, before, _, _, hlength⟩ := h
  exact ⟨before.length, by rw [← hlength, List.length_append]⟩

theorem all_zip_take_eq (hroom : marker.length ≤ segments.length) :
    (((segments.take marker.length).zip marker).all fun (segment, expected) =>
      segment = expected) = marker.isPrefixOf segments := by
  induction marker generalizing segments with
  | nil => simp
  | cons expected marker ih =>
    cases segments with
    | nil => simp at hroom
    | cons segment segments =>
      have hrest : marker.length ≤ segments.length := by
        simp only [List.length_cons] at hroom
        omega
      simp only [List.length_cons, List.take_succ_cons, List.zip_cons_cons, List.all_cons,
        ih hrest, List.isPrefixOf_cons_cons]
      by_cases hsegment : segment = expected
      · simp [hsegment]
      · simp [hsegment, Ne.symm hsegment]

theorem part_eq (hstart : start ≤ stop) (hstop : stop ≤ segments.length) :
    part segments start stop = .ok ((segments.drop start).take (stop - start)) := by
  rw [part, if_pos ⟨hstart, hstop⟩, List.drop_take]

theorem standsAt_eq (hroom : start + marker.length ≤ segments.length) :
    standsAt marker segments start = .ok (marker.isPrefixOf (segments.drop start)) := by
  have hlength : marker.length ≤ (segments.drop start).length := by
    rw [List.length_drop]
    omega
  rw [standsAt, part_eq (Nat.le_add_right _ _) hroom, Nat.add_sub_cancel_left]
  exact congrArg Except.ok (all_zip_take_eq hlength)

theorem EndsAt.isPrefixOf (h : EndsAt marker segments (start + marker.length)) :
    marker.isPrefixOf (segments.drop start) = true :=
  List.isPrefixOf_iff_prefix.mpr ((endsAt_add_iff h.1 h.le_length).mp h)

/-- The places at which a marker that is no longer than the segments has room, the last first. -/
def starts (marker segments : List String) : List Nat :=
  (List.range (segments.length - marker.length + 1)).reverse

/-- The last place at which the marker stands. -/
def lastStart? (marker segments : List String) : Option Nat :=
  (starts marker segments).find? fun start => marker.isPrefixOf (segments.drop start)

theorem mem_starts_iff (hroom : marker.length ≤ segments.length) :
    start ∈ starts marker segments ↔ start + marker.length ≤ segments.length := by
  rw [starts, List.mem_reverse, List.mem_range]
  omega

theorem lastStart?_eq_none (hroom : marker.length ≤ segments.length)
    (h : lastStart? marker segments = none) (stop : Nat) : ¬ EndsAt marker segments stop := by
  intro hends
  obtain ⟨start, rfl⟩ := hends.exists_start
  have hmem : start ∈ starts marker segments := (mem_starts_iff hroom).mpr hends.le_length
  exact List.find?_eq_none.mp h start hmem hends.isPrefixOf

theorem lastStart?_eq_some (hmarker : marker ≠ []) (hroom : marker.length ≤ segments.length)
    (h : lastStart? marker segments = some start) :
    EndsAt marker segments (start + marker.length) ∧
      ∀ other, EndsAt marker segments other → other ≤ start + marker.length := by
  have hdescending : (starts marker segments).Pairwise (· > ·) :=
    List.pairwise_reverse.mpr List.pairwise_lt_range
  obtain ⟨hmem, hstands, hlast⟩ :=
    (Ascending.find?_eq_some_iff_of_pairwise (fun hab hba => Nat.lt_asymm hab hba)
      hdescending).mp h
  refine ⟨(endsAt_add_iff hmarker ((mem_starts_iff hroom).mp hmem)).mpr
    (List.isPrefixOf_iff_prefix.mp hstands), ?_⟩
  intro other hother
  obtain ⟨place, rfl⟩ := hother.exists_start
  rcases hlast place ((mem_starts_iff hroom).mpr hother.le_length) hother.isPrefixOf with heq | hgt
  · omega
  · omega

/-- Wherever the search looks, the segments have the part that it compares with the marker. -/
theorem markerEnd?_of_room (hmarker : marker ≠ []) (hroom : marker.length ≤ segments.length) :
    markerEnd? marker segments =
      .ok ((lastStart? marker segments).map fun start => start + marker.length) := by
  have hguard : ¬ (marker.isEmpty || segments.length < marker.length) = true := by
    simp only [Bool.or_eq_true, List.isEmpty_iff, decide_eq_true_eq, not_or, Nat.not_lt]
    exact ⟨hmarker, hroom⟩
  have hsearch : (starts marker segments).findM? (standsAt marker segments) =
      .ok (lastStart? marker segments) := by
    apply findM?_of_forall
    intro start hstart
    exact standsAt_eq ((mem_starts_iff hroom).mp hstart)
  rw [markerEnd?, if_neg hguard, difference, if_pos hroom]
  show ((starts marker segments).findM? (standsAt marker segments)).map _ = _
  rw [hsearch]
  rfl

theorem markerEnd?_of_no_room (h : marker = [] ∨ segments.length < marker.length) :
    markerEnd? marker segments = .ok none := by
  have hguard : (marker.isEmpty || segments.length < marker.length) = true := by
    simpa only [Bool.or_eq_true, List.isEmpty_iff, decide_eq_true_eq] using h
  rw [markerEnd?, if_pos hguard]

theorem afterLast_of_forall_not_endsAt (h : ∀ stop, ¬ EndsAt marker segments stop) :
    afterLast marker segments = none := by
  cases hlast : afterLast marker segments with
  | none => rfl
  | some below =>
    obtain ⟨stop, hends, _⟩ := (afterLast_eq_some hlast).1.exists_endsAt
    exact absurd hends (h stop)

/-- The search by places ends within the segments, behind the last occurrence. -/
theorem exists_markerEnd? (marker segments : List String) :
    ∃ found, markerEnd? marker segments = .ok found ∧
      afterLast marker segments = found.map (segments.drop ·) ∧
        ∀ stop, found = some stop → stop ≤ segments.length := by
  by_cases hsearched : marker = [] ∨ segments.length < marker.length
  · refine ⟨none, markerEnd?_of_no_room hsearched, ?_, by simp⟩
    apply afterLast_of_forall_not_endsAt
    intro stop hends
    obtain ⟨start, rfl⟩ := hends.exists_start
    have hbound := hends.le_length
    rcases hsearched with hmarker | hshort
    · exact hends.1 hmarker
    · omega
  · obtain ⟨hmarker, hlong⟩ := not_or.mp hsearched
    have hroom : marker.length ≤ segments.length := Nat.le_of_not_lt hlong
    refine ⟨_, markerEnd?_of_room hmarker hroom, ?_⟩
    cases hfound : lastStart? marker segments with
    | none =>
      exact ⟨afterLast_of_forall_not_endsAt (lastStart?_eq_none hroom hfound), by simp⟩
    | some start =>
      obtain ⟨hends, hlast⟩ := lastStart?_eq_some hmarker hroom hfound
      refine ⟨afterLast_eq_some_iff.mpr ⟨hends.follows, forall_endsAt_le_iff.mp hlast⟩, ?_⟩
      intro stop hstop
      obtain rfl := Option.some.inj hstop
      exact hends.le_length

end TestSelection.SourceLayout
