import TestSelection.Proofs.MarkerPlaces

/-!
The paths of units as a grammar. The segments of a path are those of a unit if they lead over a
marker of the layout and any number of directories to a file with the source suffix, and no marker
ends later in the path; where both markers end together, the unit is a production unit. A
classification that counts segments and cuts them at the places found never leaves them, and it
comes to the same change.
-/

namespace TestSelection.SourceLayout

variable {layout : SourceLayout} {marker segments below : List String} {identity suffix : String}
  {stop : Nat}

/-- The segments lead over an occurrence of `marker` that ends behind the first `stop` of them to a
source file with the given identity, and no marker of the layout ends later. -/
structure LeadsToUnit (layout : SourceLayout) (marker segments : List String) (stop : Nat)
    (identity : String) : Prop where
  marker_ne_nil : marker ≠ []
  parts : ∃ before directories stem,
    segments = before ++ marker ++ directories ++ [stem ++ layout.suffix] ∧
      (before ++ marker).length = stop ∧ stem ≠ "" ∧
      identity = Text.joinWith "." (directories ++ [stem])
  last : ∀ other,
    EndsAt layout.mainMarker segments other ∨ EndsAt layout.testMarker segments other →
      other ≤ stop

/-- The path of a production unit with the given identity. -/
def IsMainPath (layout : SourceLayout) (segments : List String) (identity : String) : Prop :=
  ∃ stop, layout.LeadsToUnit layout.mainMarker segments stop identity

/-- The path of a test unit with the given identity: the test marker ends behind every production
marker. -/
def IsTestPath (layout : SourceLayout) (segments : List String) (identity : String) : Prop :=
  ∃ stop, layout.LeadsToUnit layout.testMarker segments stop identity ∧
    ∀ other, EndsAt layout.mainMarker segments other → other < stop

/-- `below` is what stands behind a production marker, and no marker ends later. -/
structure BelowMain (layout : SourceLayout) (segments below : List String) : Prop where
  follows : Follows layout.mainMarker segments below
  main : ∀ other, Follows layout.mainMarker segments other → below.length ≤ other.length
  test : ∀ other, Follows layout.testMarker segments other → below.length ≤ other.length

/-- `below` is what stands behind a test marker, and no test marker ends later; production markers
end before. -/
structure BelowTest (layout : SourceLayout) (segments below : List String) : Prop where
  follows : Follows layout.testMarker segments below
  test : ∀ other, Follows layout.testMarker segments other → below.length ≤ other.length
  main : ∀ other, Follows layout.mainMarker segments other → below.length < other.length

theorem unit?_of_belowMain (h : BelowMain layout segments below) :
    layout.unit? segments = (identity? layout.suffix below).map .compilationUnit := by
  have hmain : afterLast layout.mainMarker segments = some below :=
    afterLast_eq_some_iff.mpr ⟨h.follows, h.main⟩
  cases htest : afterLast layout.testMarker segments with
  | none => simp only [unit?, hmain, htest]
  | some other =>
    have hlater : ¬ other.length < below.length := by
      have hle := h.test other (afterLast_eq_some htest).1
      omega
    simp only [unit?, hmain, htest, if_neg hlater]

theorem unit?_of_belowTest (h : BelowTest layout segments below) :
    layout.unit? segments = (identity? layout.suffix below).map .testCompilationUnit := by
  have htest : afterLast layout.testMarker segments = some below :=
    afterLast_eq_some_iff.mpr ⟨h.follows, h.test⟩
  cases hmain : afterLast layout.mainMarker segments with
  | none => simp only [unit?, hmain, htest]
  | some other =>
    have hlater : below.length < other.length := h.main other (afterLast_eq_some hmain).1
    simp only [unit?, hmain, htest, if_pos hlater]

/-- A path has a production root, or a test root, or none. -/
theorem root_cases (layout : SourceLayout) (segments : List String) :
    (∃ below, BelowMain layout segments below) ∨ (∃ below, BelowTest layout segments below) ∨
      layout.unit? segments = none := by
  cases hmain : afterLast layout.mainMarker segments with
  | none =>
    have hmainless := afterLast_eq_none hmain
    cases htest : afterLast layout.testMarker segments with
    | none =>
      right
      right
      simp only [unit?, hmain, htest]
    | some test =>
      obtain ⟨hfollows, hshortest⟩ := afterLast_eq_some htest
      exact Or.inr (Or.inl ⟨test, hfollows, hshortest, fun other h => absurd h (hmainless other)⟩)
  | some main =>
    obtain ⟨hfollows, hshortest⟩ := afterLast_eq_some hmain
    cases htest : afterLast layout.testMarker segments with
    | none =>
      have htestless := afterLast_eq_none htest
      exact Or.inl ⟨main, hfollows, hshortest, fun other h => absurd h (htestless other)⟩
    | some test =>
      obtain ⟨htestFollows, htestShortest⟩ := afterLast_eq_some htest
      by_cases hlater : test.length < main.length
      · refine Or.inr (Or.inl ⟨test, htestFollows, htestShortest, ?_⟩)
        intro other hother
        exact Nat.lt_of_lt_of_le hlater (hshortest other hother)
      · refine Or.inl ⟨main, hfollows, hshortest, ?_⟩
        intro other hother
        exact Nat.le_trans (Nat.le_of_not_lt hlater) (htestShortest other hother)

theorem unit?_eq_main_iff : layout.unit? segments = some (.compilationUnit identity) ↔
    ∃ below, BelowMain layout segments below ∧
      identity? layout.suffix below = some identity := by
  constructor
  · intro h
    rcases root_cases layout segments with ⟨below, hmain⟩ | ⟨below, htest⟩ | hnone
    · rw [unit?_of_belowMain hmain] at h
      obtain ⟨found, hfound, heq⟩ := Option.map_eq_some_iff.mp h
      cases heq
      exact ⟨below, hmain, hfound⟩
    · rw [unit?_of_belowTest htest] at h
      simp at h
    · rw [hnone] at h
      cases h
  · intro ⟨below, hmain, hidentity⟩
    rw [unit?_of_belowMain hmain, hidentity]
    rfl

theorem unit?_eq_test_iff : layout.unit? segments = some (.testCompilationUnit identity) ↔
    ∃ below, BelowTest layout segments below ∧
      identity? layout.suffix below = some identity := by
  constructor
  · intro h
    rcases root_cases layout segments with ⟨below, hmain⟩ | ⟨below, htest⟩ | hnone
    · rw [unit?_of_belowMain hmain] at h
      simp at h
    · rw [unit?_of_belowTest htest] at h
      obtain ⟨found, hfound, heq⟩ := Option.map_eq_some_iff.mp h
      cases heq
      exact ⟨below, htest, hfound⟩
    · rw [hnone] at h
      cases h
  · intro ⟨below, htest, hidentity⟩
    rw [unit?_of_belowTest htest, hidentity]
    rfl

/-- A file has an identity if its name is a stem, which is not empty, with the suffix. -/
theorem identity?_eq_some_iff_exists : identity? suffix below = some identity ↔
    ∃ directories stem, below = directories ++ [stem ++ suffix] ∧ stem ≠ "" ∧
      identity = Text.joinWith "." (directories ++ [stem]) := by
  constructor
  · intro h
    rcases List.eq_nil_or_concat below with rfl | ⟨directories, file, rfl⟩
    · cases h
    · rw [List.concat_eq_append] at h ⊢
      obtain ⟨stem, hstem, rfl, hidentity⟩ := identity?_eq_some_iff.mp h
      exact ⟨directories, stem, rfl, hstem, hidentity⟩
  · intro ⟨directories, stem, hbelow, hstem, hidentity⟩
    rw [hbelow]
    exact identity?_eq_some_iff.mpr ⟨stem, hstem, rfl, hidentity⟩

/-- What stands behind the marker is the file with the directories that lead to it. -/
theorem leadsToUnit_iff : layout.LeadsToUnit marker segments stop identity ↔
    EndsAt marker segments stop ∧ identity? layout.suffix (segments.drop stop) = some identity ∧
      ∀ other,
        EndsAt layout.mainMarker segments other ∨ EndsAt layout.testMarker segments other →
          other ≤ stop := by
  rw [identity?_eq_some_iff_exists]
  constructor
  · intro ⟨hmarker, ⟨before, directories, stem, hsegments, hstop, hstem, hidentity⟩, hlast⟩
    rw [List.append_assoc] at hsegments
    refine ⟨⟨hmarker, before, _, hsegments, hstop⟩, ⟨directories, stem, ?_, hstem, hidentity⟩,
      hlast⟩
    rw [hsegments, ← hstop, List.drop_left]
  · intro ⟨⟨hmarker, before, below, hsegments, hstop⟩, ⟨directories, stem, hdrop, hrest⟩, hlast⟩
    refine ⟨hmarker, ⟨before, directories, stem, ?_, hstop, hrest⟩, hlast⟩
    rw [hsegments, ← hstop, List.drop_left] at hdrop
    rw [hsegments, hdrop, ← List.append_assoc]

theorem belowMain_drop_iff (hstop : stop ≤ segments.length) :
    BelowMain layout segments (segments.drop stop) ↔
      EndsAt layout.mainMarker segments stop ∧
        ∀ other,
          EndsAt layout.mainMarker segments other ∨ EndsAt layout.testMarker segments other →
            other ≤ stop := by
  simp only [or_imp, forall_and, forall_endsAt_le_iff]
  constructor
  · intro h
    exact ⟨h.follows.endsAt_of_drop hstop, h.main, h.test⟩
  · intro ⟨hends, hmain, htest⟩
    exact ⟨hends.follows, hmain, htest⟩

theorem belowTest_drop_iff (hstop : stop ≤ segments.length) :
    BelowTest layout segments (segments.drop stop) ↔
      EndsAt layout.testMarker segments stop ∧
        (∀ other, EndsAt layout.testMarker segments other → other ≤ stop) ∧
          ∀ other, EndsAt layout.mainMarker segments other → other < stop := by
  rw [forall_endsAt_le_iff, forall_endsAt_lt_iff hstop]
  constructor
  · intro h
    exact ⟨h.follows.endsAt_of_drop hstop, h.test, h.main⟩
  · intro ⟨hends, htest, hmain⟩
    exact ⟨hends.follows, htest, hmain⟩

theorem isMainPath_iff : layout.IsMainPath segments identity ↔
    layout.unit? segments = some (.compilationUnit identity) := by
  simp only [IsMainPath, leadsToUnit_iff, unit?_eq_main_iff]
  constructor
  · intro ⟨stop, hends, hidentity, hlast⟩
    exact ⟨_, (belowMain_drop_iff hends.le_length).mpr ⟨hends, hlast⟩, hidentity⟩
  · intro ⟨below, hmain, hidentity⟩
    obtain ⟨stop, hends, rfl⟩ := hmain.follows.exists_endsAt
    obtain ⟨_, hlast⟩ := (belowMain_drop_iff hends.le_length).mp hmain
    exact ⟨stop, hends, hidentity, hlast⟩

theorem isTestPath_iff : layout.IsTestPath segments identity ↔
    layout.unit? segments = some (.testCompilationUnit identity) := by
  simp only [IsTestPath, leadsToUnit_iff, unit?_eq_test_iff]
  constructor
  · intro ⟨stop, ⟨hends, hidentity, hlast⟩, hbefore⟩
    have htest : ∀ other, EndsAt layout.testMarker segments other → other ≤ stop :=
      fun other hother => hlast other (Or.inr hother)
    exact ⟨_, (belowTest_drop_iff hends.le_length).mpr ⟨hends, htest, hbefore⟩, hidentity⟩
  · intro ⟨below, htest, hidentity⟩
    obtain ⟨stop, hends, rfl⟩ := htest.follows.exists_endsAt
    obtain ⟨_, hlast, hbefore⟩ := (belowTest_drop_iff hends.le_length).mp htest
    refine ⟨stop, ⟨hends, hidentity, ?_⟩, hbefore⟩
    intro other hother
    rcases hother with hmain | hother
    · exact Nat.le_of_lt (hbefore other hmain)
    · exact hlast other hother

/-- Places are counted and cut within the segments, and the change found is the same. -/
theorem classifyByPlaces_eq (layout : SourceLayout) (path : String) :
    layout.classifyByPlaces path = .ok (layout.classify path) := by
  unfold classifyByPlaces classify
  by_cases hstated : (isAbsent path || decide (path = "")) = true
  · rw [if_pos hstated, if_pos hstated]
  rw [if_neg hstated, if_neg hstated]
  generalize pathSegments path = segments
  obtain ⟨main, hmainEnd, hmain, hmainBound⟩ := exists_markerEnd? layout.mainMarker segments
  obtain ⟨test, htestEnd, htest, htestBound⟩ := exists_markerEnd? layout.testMarker segments
  have hcut (start : Nat) (h : start ≤ segments.length) :
      part segments start segments.length = .ok (segments.drop start) := by
    rw [part_eq h (Nat.le_refl _), ← List.length_drop, List.take_length]
  simp only [hmainEnd, htestEnd, Except.bind, unit?, hmain, htest]
  cases main with
  | none =>
    cases test with
    | none => rfl
    | some test =>
      simp only [Option.map_none, Option.map_some, hcut test (htestBound test rfl), Except.map]
  | some main =>
    have hmainCut := hcut main (hmainBound main rfl)
    cases test with
    | none => simp only [Option.map_none, Option.map_some, hmainCut, Except.map]
    | some test =>
      have htestCut := hcut test (htestBound test rfl)
      have hlater : (segments.drop test).length < (segments.drop main).length ↔ main < test := by
        have hbound := htestBound test rfl
        rw [List.length_drop, List.length_drop]
        omega
      simp only [Option.map_some, hmainCut, htestCut, hlater, Except.map]
      by_cases hlt : main < test
      · rw [if_pos hlt, if_pos hlt]
      · rw [if_neg hlt, if_neg hlt]

theorem classify_eq_none_iff {path : String} :
    layout.classify path = none ↔ path = "" ∨ path = absentPath := by
  unfold classify isAbsent
  by_cases hstated : path = "" ∨ path = absentPath
  · rcases hstated with h | h
    · simp [h]
    · simp [h]
  · obtain ⟨hempty, habsent⟩ := not_or.mp hstated
    simp [hempty, habsent]

theorem classify_of_stated {path : String} (hempty : path ≠ "") (habsent : path ≠ absentPath) :
    layout.classify path =
      some ((layout.unit? (pathSegments path)).getD (.otherFile path)) := by
  simp [classify, isAbsent, hempty, habsent]

/-- Segments are those of a production unit, of a test unit or of no unit. -/
theorem unit?_cases (layout : SourceLayout) (segments : List String) :
    layout.unit? segments = none ∨ ∃ identity,
      layout.unit? segments = some (.compilationUnit identity) ∨
        layout.unit? segments = some (.testCompilationUnit identity) := by
  rcases root_cases layout segments with ⟨below, hmain⟩ | ⟨below, htest⟩ | hnone
  · rw [unit?_of_belowMain hmain]
    cases identity? layout.suffix below with
    | none => exact Or.inl rfl
    | some identity => exact Or.inr ⟨identity, Or.inl rfl⟩
  · rw [unit?_of_belowTest htest]
    cases identity? layout.suffix below with
    | none => exact Or.inl rfl
    | some identity => exact Or.inr ⟨identity, Or.inr rfl⟩
  · exact Or.inl hnone

theorem unit?_eq_none_iff : layout.unit? segments = none ↔
    ∀ identity, ¬ layout.IsMainPath segments identity ∧ ¬ layout.IsTestPath segments identity := by
  simp only [isMainPath_iff, isTestPath_iff]
  rcases unit?_cases layout segments with h | ⟨identity, h | h⟩
  · simp [h]
  · simp [h]
  · simp [h]

/-- A path stands for nothing if it is empty or that of an absent side. Any other path is that of a
production unit or of a test unit exactly as its segments lead to one, and that of another file, as
it stands, in all other cases. Reading it by places never leaves its segments. -/
theorem classify_by_grammar (layout : SourceLayout) (path : String) :
    (layout.classify path = none ↔ path = "" ∨ path = absentPath) ∧
    (path ≠ "" → path ≠ absentPath →
      (∀ identity, layout.classify path = some (.compilationUnit identity) ↔
        layout.IsMainPath (pathSegments path) identity) ∧
      (∀ identity, layout.classify path = some (.testCompilationUnit identity) ↔
        layout.IsTestPath (pathSegments path) identity) ∧
      ∀ name, layout.classify path = some (.otherFile name) ↔
        name = path ∧ ∀ identity, ¬ layout.IsMainPath (pathSegments path) identity ∧
          ¬ layout.IsTestPath (pathSegments path) identity) ∧
    layout.classifyByPlaces path = .ok (layout.classify path) := by
  refine ⟨classify_eq_none_iff, ?_, classifyByPlaces_eq layout path⟩
  intro hempty habsent
  simp only [← unit?_eq_none_iff]
  simp only [isMainPath_iff, isTestPath_iff, classify_of_stated hempty habsent]
  rcases unit?_cases layout (pathSegments path) with h | ⟨identity, h | h⟩
  · simp [h, eq_comm]
  · simp [h]
  · simp [h]

/-- A marker may occur within another one; the two end together here. -/
example : (ofTexts "a/a" "a" ".java").classify "a/a/a/b.c/D.java" =
    some (.compilationUnit "b.c.D") := by
  cbv

end TestSelection.SourceLayout
