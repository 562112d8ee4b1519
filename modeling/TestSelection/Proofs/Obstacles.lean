import Mathlib.Data.List.Basic
import TestSelection.CommandLine.Run
import TestSelection.Proofs.FallibleSteps

/-!
What keeps a command from being carried out: settings or a module graph that are missing, cannot be
read or make no sense, a detector that nobody knows, input that cannot be read, and texts that are
no test identities. Each of these is said in terms of the files, the settings and the texts in
question, and for each step of a command it is shown that the step fails exactly if there is such an
obstacle, with an exit code that depends on the kind of the obstacle alone.
-/

namespace TestSelection

/-- The kinds of things that keep a command from being carried out. -/
inductive Obstacle
  | missingSettings
  | unreadableSettings
  | invalidSettings
  | unknownDetector
  | missingGraph
  | unreadableGraph
  | invalidGraph
  | unreadableInput
  | invalidCandidate
  deriving Repr, DecidableEq

/-- What cannot be read is no fault of the settings or the arguments. -/
def Obstacle.exitCode : Obstacle → ExitCode
  | unreadableSettings | unreadableGraph | unreadableInput => .internalError
  | _ => .invalidInput

section Files

variable {files : FileSystem} {path text start : String}

theorem isFile_of_readText (h : files.readText path = .ok text) : files.isFile path := by
  unfold FileSystem.readText FileSystem.read at h
  unfold FileSystem.isFile FileSystem.find?
  cases hplace : files.locate path with
  | error fault => simp [hplace] at h
  | ok place =>
    simp only [hplace] at h ⊢
    cases hnode : files.node? place with
    | none => simp [hnode] at h
    | some node => cases node <;> simp [hnode] at h ⊢

theorem isFile_of_discover (h : Settings.discover files start = some path) :
    files.isFile path := by
  unfold Settings.discover at h
  generalize Path.upwards start = directories at h
  induction directories with
  | nil => cases h
  | cons directory rest ih =>
    unfold Settings.firstIn at h
    split at h
    · next hfile =>
      cases h
      exact hfile
    · split at h
      · cases h
      · exact ih h

end Files

namespace Registry

theorem find?_eq_none_iff {registry : Registry} {key : String} :
    registry.find? key = none ↔ key ∉ registry.keys := by
  simp only [find?, keys, Option.map_eq_none_iff, List.find?_eq_none, List.mem_map,
    decide_eq_true_eq, not_exists, not_and]

/-- A selection fails exactly if it names a detector that is not registered. -/
theorem select_eq_error_iff {registry : Registry} {selection : Selection} {failure : Failure} :
    (registry.select selection).value = .error failure ↔
      ∃ key, selection.detector? = some key ∧ key ∉ registry.keys ∧
        failure = .config (.unknownDetector key registry.keys) none := by
  unfold select
  cases hkey : selection.detector? with
  | none => cases hreference : selection.referenceCommit? <;> simp
  | some key =>
    cases hfactory : registry.find? key with
    | none =>
      have hunknown := find?_eq_none_iff.mp hfactory
      simp [create, hfactory, hunknown, Logged.bind, Logged.pure, eq_comm]
    | some factory =>
      have hknown : ¬ key ∉ registry.keys := by
        rw [← find?_eq_none_iff, hfactory]
        exact Option.some_ne_none factory
      simp [create, hfactory, hknown, Logged.bind, Logged.pure]

end Registry

namespace CommandLine

variable {around : Surroundings} {invocation : Invocation} {obstacle : Obstacle}

section Start

variable (around invocation)

/-- The settings file of a command: the one that it names, or else the one that is found. -/
def settingsPath? : Option String :=
  invocation.config.or
    (Settings.discover around.files (Session.rootOf invocation around.directory))

/-- The settings of a command, before its own choices are laid over them. -/
inductive Settled : Config → Prop
  | byDefault (hpath : settingsPath? around invocation = none) : Settled {}
  | stated {path text : String} {config : Config} {unknown : List String}
      (hpath : settingsPath? around invocation = some path)
      (hread : around.files.readText path = .ok text)
      (hparse : Config.parse text = .ok (config, unknown)) : Settled (config.anchored path)

/-- What keeps a session from being started. -/
inductive Startless : Obstacle → Prop
  | missing {path : String} (hpath : invocation.config = some path)
      (hfile : ¬ around.files.isFile path) : Startless .missingSettings
  | unreadable {path : String} {fault : ReadFault}
      (hpath : settingsPath? around invocation = some path) (hfile : around.files.isFile path)
      (hread : around.files.readText path = .error fault) : Startless .unreadableSettings
  | invalid {path text : String} {fault : ConfigFault}
      (hpath : settingsPath? around invocation = some path)
      (hread : around.files.readText path = .ok text)
      (hparse : Config.parse text = .error fault) : Startless .invalidSettings
  | detector {config : Config} {key : String} (hsettled : Settled around invocation config)
      (hkey : (config.selection.override invocation.detector
        invocation.referenceCommit).detector? = some key)
      (hunknown : key ∉ Registry.builtin.keys) : Startless .unknownDetector

end Start

/-- The settings that a command finds, or why it finds none. -/
def foundSettings (around : Surroundings) (invocation : Invocation) :
    Except Failure FoundSettings :=
  (Session.findSettings around.files invocation
    (Session.rootOf invocation around.directory)).value

def startedSession (around : Surroundings) (invocation : Invocation) : Except Failure Session :=
  (Session.start around.files invocation around.directory).value

theorem startSession_snd :
    (startSession around invocation).2 = startedSession around invocation := by
  unfold startSession startedSession Session.start
  cases h : (Session.findSettings around.files invocation
    (Session.rootOf invocation around.directory)).value <;> simp [h, Logged.bind, Logged.pure]

section Start

theorem foundSettings_of_missing {path : String} (hpath : invocation.config = some path)
    (hfile : ¬ around.files.isFile path) :
    foundSettings around invocation = .error (.config (.fileNotFound path) (some path)) := by
  simp [foundSettings, Session.findSettings, Settings.resolve, hpath, hfile, Logged.pure]

theorem foundSettings_of_none (hpath : settingsPath? around invocation = none) :
    foundSettings around invocation = .ok ⟨none, {}, []⟩ := by
  obtain ⟨hconfig, hdiscover⟩ := Option.or_eq_none_iff.mp hpath
  simp [foundSettings, Session.findSettings, Settings.resolve, hconfig, hdiscover]

theorem foundSettings_of_path {path : String} (hpath : settingsPath? around invocation = some path)
    (hfile : around.files.isFile path) :
    foundSettings around invocation = (Config.load around.files path).map fun loaded =>
      ⟨some path, loaded.1, loaded.2⟩ := by
  rcases Option.or_eq_some_iff.mp hpath with hconfig | ⟨hconfig, hdiscover⟩
  · simp [foundSettings, Session.findSettings, Settings.resolve, hconfig, hfile]
  · simp [foundSettings, Session.findSettings, Settings.resolve, hconfig, hdiscover]

theorem exists_found_of_settled {config : Config} (h : Settled around invocation config) :
    ∃ found, foundSettings around invocation = .ok found ∧ found.config = config := by
  cases h with
  | byDefault hpath => exact ⟨_, foundSettings_of_none hpath, rfl⟩
  | @stated path text config unknown hpath hread hparse =>
    refine ⟨⟨some path, config.anchored path, unknown⟩, ?_, rfl⟩
    rw [foundSettings_of_path hpath (isFile_of_readText hread)]
    simp [Config.load, hread, hparse, Except.map]

/-- The file that a command uses for its settings is there, unless the command names one that is
not. -/
theorem isFile_of_settingsPath? {path : String}
    (hpath : settingsPath? around invocation = some path)
    (hfile : ∀ path, invocation.config = some path → around.files.isFile path) :
    around.files.isFile path := by
  rcases Option.or_eq_some_iff.mp hpath with hconfig | ⟨_, hdiscover⟩
  · exact hfile path hconfig
  · exact isFile_of_discover hdiscover

/-- Either there are settings, or an obstacle explains why there are none. -/
theorem foundSettings_spec :
    match foundSettings around invocation with
    | .ok found => Settled around invocation found.config
    | .error failure => ∃ obstacle, Startless around invocation obstacle ∧
        failure.exitCode = obstacle.exitCode := by
  by_cases hfile : ∀ path, invocation.config = some path → around.files.isFile path
  · cases hpath : settingsPath? around invocation with
    | none =>
      rw [foundSettings_of_none hpath]
      exact .byDefault hpath
    | some path =>
      have hthere := isFile_of_settingsPath? hpath hfile
      rw [foundSettings_of_path hpath hthere]
      cases hread : around.files.readText path with
      | error fault =>
        simp only [Config.load, hread, Except.map]
        exact ⟨_, .unreadable hpath hthere hread, rfl⟩
      | ok text =>
        cases hparse : Config.parse text with
        | error fault =>
          simp only [Config.load, hread, hparse, Except.map]
          exact ⟨_, .invalid hpath hread hparse, rfl⟩
        | ok parsed =>
          simp only [Config.load, hread, hparse, Except.map]
          exact .stated hpath hread hparse
  · simp only [not_forall] at hfile
    obtain ⟨path, hpath, hmissing⟩ := hfile
    rw [foundSettings_of_missing hpath hmissing]
    exact ⟨_, .missing hpath hmissing, rfl⟩

/-- The selection of a session: what the settings select, under what the command selects. -/
def selectionOf (invocation : Invocation) (config : Config) : Selection :=
  config.selection.override invocation.detector invocation.referenceCommit

theorem startedSession_of_error {failure : Failure}
    (h : foundSettings around invocation = .error failure) :
    startedSession around invocation = .error failure := by
  unfold foundSettings at h
  simp [startedSession, Session.start, Logged.bind, Logged.pure, h]

theorem startedSession_of_found {found : FoundSettings}
    (h : foundSettings around invocation = .ok found) :
    startedSession around invocation =
      (Registry.builtin.select (selectionOf invocation found.config)).value.map fun source =>
        let config := { found.config with selection := selectionOf invocation found.config }
        let root := Session.rootOf invocation around.directory
        ⟨root, found.path, config, ⟨root, source, config.layout.sourceLayout⟩⟩ := by
  unfold foundSettings at h
  simp [startedSession, Session.start, Session.ofSettings, selectionOf, Logged.bind, Logged.pure, h]

/-- An obstacle of its kind keeps a session from being started. -/
theorem exists_failure_of_startless (h : Startless around invocation obstacle) :
    ∃ failure, startedSession around invocation = .error failure ∧
      failure.exitCode = obstacle.exitCode := by
  cases h with
  | missing hpath hfile =>
    exact ⟨_, startedSession_of_error (foundSettings_of_missing hpath hfile), rfl⟩
  | @unreadable path fault hpath hfile hread =>
    have hfound : foundSettings around invocation = .error (.unreadable path fault) := by
      rw [foundSettings_of_path hpath hfile]
      simp [Config.load, hread, Except.map]
    exact ⟨_, startedSession_of_error hfound, rfl⟩
  | @invalid path text fault hpath hread hparse =>
    have hfound : foundSettings around invocation = .error (.config fault (some path)) := by
      rw [foundSettings_of_path hpath (isFile_of_readText hread)]
      simp [Config.load, hread, hparse, Except.map]
    exact ⟨_, startedSession_of_error hfound, rfl⟩
  | @detector config key hsettled hkey hunknown =>
    obtain ⟨found, hfound, rfl⟩ := exists_found_of_settled hsettled
    have hselect := Registry.select_eq_error_iff.mpr ⟨key, hkey, hunknown, rfl⟩
    refine ⟨.config (.unknownDetector key Registry.builtin.keys) none, ?_, rfl⟩
    rw [startedSession_of_found hfound, selectionOf, hselect]
    rfl

/-- A session that is not started has met with an obstacle. -/
theorem exists_startless_of_error {failure : Failure}
    (h : startedSession around invocation = .error failure) :
    ∃ obstacle, Startless around invocation obstacle ∧ failure.exitCode = obstacle.exitCode := by
  have hspec : match foundSettings around invocation with
    | .ok found => Settled around invocation found.config
    | .error failure => ∃ obstacle, Startless around invocation obstacle ∧
        failure.exitCode = obstacle.exitCode := foundSettings_spec
  cases hfound : foundSettings around invocation with
  | error fault =>
    rw [startedSession_of_error hfound] at h
    cases h
    simpa only [hfound] using hspec
  | ok found =>
    simp only [hfound] at hspec
    rw [startedSession_of_found hfound] at h
    cases hselect : (Registry.builtin.select (selectionOf invocation found.config)).value with
    | ok source => simp [hselect, Except.map] at h
    | error fault =>
      rw [hselect] at h
      cases h
      obtain ⟨key, hkey, hunknown, rfl⟩ := Registry.select_eq_error_iff.mp hselect
      exact ⟨_, .detector hspec hkey hunknown, rfl⟩

end Start

section Graph

variable (around : Surroundings) (session : Session) (given : Option String)

/-- The file with the module graph: the one that the command names, or else the one of the
settings. -/
def graphPath? : Option String :=
  (given.map (Path.join around.directory)).or session.config.graphPath

/-- What keeps a session from having a module graph. -/
inductive Graphless : Obstacle → Prop
  | unnamed (hpath : graphPath? around session given = none) : Graphless .missingGraph
  | missing {path : String} (hpath : graphPath? around session given = some path)
      (hfile : ¬ around.files.isFile path) : Graphless .missingGraph
  | unreadable {path : String} {fault : ReadFault}
      (hpath : graphPath? around session given = some path) (hfile : around.files.isFile path)
      (hread : around.files.readText path = .error fault) : Graphless .unreadableGraph
  | invalid {path text : String} {fault : ConfigFault}
      (hpath : graphPath? around session given = some path)
      (hread : around.files.readText path = .ok text)
      (hparse : ModuleGraph.parse (.ofPath path) text = .error fault) : Graphless .invalidGraph

variable {around session given}

theorem readGraph_of_none (hpath : graphPath? around session given = none) :
    (readGraph around session given).2 = .error (.argument .noGraph) := by
  unfold graphPath? at hpath
  simp only [readGraph, hpath]

theorem readGraph_of_missing {path : String} (hpath : graphPath? around session given = some path)
    (hfile : ¬ around.files.isFile path) :
    (readGraph around session given).2 = .error (.argument (.graphNotFound path)) := by
  unfold graphPath? at hpath
  simp only [readGraph, hpath, hfile, Bool.false_eq_true, if_false]

theorem readGraph_of_path {path : String} (hpath : graphPath? around session given = some path)
    (hfile : around.files.isFile path) :
    (readGraph around session given).2 = ModuleGraph.load around.files path := by
  unfold graphPath? at hpath
  simp only [readGraph, hpath, hfile, if_true]
  cases ModuleGraph.load around.files path <;> rfl

theorem exists_failure_of_graphless (h : Graphless around session given obstacle) :
    ∃ failure, (readGraph around session given).2 = .error failure ∧
      failure.exitCode = obstacle.exitCode := by
  cases h with
  | unnamed hpath => exact ⟨_, readGraph_of_none hpath, rfl⟩
  | missing hpath hfile => exact ⟨_, readGraph_of_missing hpath hfile, rfl⟩
  | @unreadable path fault hpath hfile hread =>
    refine ⟨.unreadable path fault, ?_, rfl⟩
    simp only [readGraph_of_path hpath hfile, ModuleGraph.load, hread]
  | @invalid path text fault hpath hread hparse =>
    refine ⟨.config fault (some path), ?_, rfl⟩
    simp only [readGraph_of_path hpath (isFile_of_readText hread), ModuleGraph.load, hread, hparse]

theorem exists_graphless_of_error {failure : Failure}
    (h : (readGraph around session given).2 = .error failure) :
    ∃ obstacle, Graphless around session given obstacle ∧ failure.exitCode = obstacle.exitCode := by
  cases hpath : graphPath? around session given with
  | none =>
    rw [readGraph_of_none hpath] at h
    cases h
    exact ⟨_, .unnamed hpath, rfl⟩
  | some path =>
    by_cases hfile : around.files.isFile path
    · rw [readGraph_of_path hpath hfile] at h
      cases hread : around.files.readText path with
      | error fault =>
        simp only [ModuleGraph.load, hread] at h
        cases h
        exact ⟨_, .unreadable hpath hfile hread, rfl⟩
      | ok text =>
        cases hparse : ModuleGraph.parse (.ofPath path) text with
        | error fault =>
          simp only [ModuleGraph.load, hread, hparse] at h
          cases h
          exact ⟨_, .invalid hpath hread hparse, rfl⟩
        | ok graph => simp [ModuleGraph.load, hread, hparse] at h
    · rw [readGraph_of_missing hpath hfile] at h
      cases h
      exact ⟨_, .missing hpath hfile, rfl⟩

end Graph

section Candidates

/-- What the lines of the input name, the lines that are passed over left out. -/
def listed (lines : List (Except ReadFault String)) : List (Except ReadFault String) :=
  lines.filterMap fun
    | .error fault => some (.error fault)
    | .ok text => (identityIn text).map .ok

/-- What a command names as candidates, in order; a fault stands where the input ends before its
end. -/
def tokens (lines : List (Except ReadFault String)) : List String → List (Except ReadFault String)
  | [] => []
  | argument :: rest =>
    if argument = dash then listed lines ++ tokens [] rest else .ok argument :: tokens lines rest

/-- The candidate that is named. -/
def readToken : Except ReadFault String → Except Refusal TestCandidate
  | .error fault => .error (.input fault)
  | .ok identity => candidate identity

variable {lines : List (Except ReadFault String)} {tests : List String}

theorem listed_fault {fault : ReadFault} :
    listed (.error fault :: lines) = .error fault :: listed lines := rfl

theorem listed_of_identityIn {text identity : String} (h : identityIn text = some identity) :
    listed (.ok text :: lines) = .ok identity :: listed lines := by
  simp [listed, h]

theorem listed_passedOver {text : String} (h : identityIn text = none) :
    listed (.ok text :: lines) = listed lines := by
  simp [listed, h]

theorem readLines_eq : readLines lines = (listed lines).mapM readToken := by
  induction lines with
  | nil => rfl
  | cons line rest ih =>
    cases line with
    | error fault =>
      rw [listed_fault, List.mapM_cons]
      rfl
    | ok text =>
      cases hidentity : identityIn text with
      | none => simp only [readLines, hidentity, ih, listed_passedOver hidentity]
      | some identity =>
        rw [listed_of_identityIn hidentity, List.mapM_cons, ← ih]
        simp only [readLines, hidentity, readToken]
        cases candidate identity with
        | error refusal => rfl
        | ok first => cases readLines rest <;> rfl

/-- To read the candidates is to read what is named, up to the first thing that is refused. -/
theorem readCandidates_eq : readCandidates lines tests = (tokens lines tests).mapM readToken := by
  induction tests generalizing lines with
  | nil => rfl
  | cons argument rest ih =>
    by_cases hdash : argument = dash
    · rw [readCandidates, if_pos hdash, tokens, if_pos hdash, List.mapM_append, ← readLines_eq, ih]
      cases readLines lines with
      | error refusal => rfl
      | ok first => cases (tokens [] rest).mapM readToken <;> rfl
    · rw [readCandidates, if_neg hdash, tokens, if_neg hdash, List.mapM_cons, ih]
      simp only [readToken]
      cases candidate argument with
      | error refusal => rfl
      | ok first => cases (tokens lines rest).mapM readToken <;> rfl

/-- Whether something is named that is a test identity. -/
def IsIdentity : Except ReadFault String → Prop
  | .error _ => False
  | .ok identity => (TestCandidate.parse? identity).isSome

/-- What keeps the things named from being candidates: the first of them that is none. -/
inductive Unidentified (named : List (Except ReadFault String)) : Obstacle → Prop
  | unreadable {before after : List (Except ReadFault String)} {fault : ReadFault}
      (hnamed : named = before ++ .error fault :: after)
      (hbefore : ∀ token ∈ before, IsIdentity token) : Unidentified named .unreadableInput
  | invalid {before after : List (Except ReadFault String)} {identity : String}
      (hnamed : named = before ++ .ok identity :: after)
      (hbefore : ∀ token ∈ before, IsIdentity token) (hidentity : ¬ IsIdentity (.ok identity)) :
      Unidentified named .invalidCandidate

theorem isIdentity_iff {token : Except ReadFault String} :
    IsIdentity token ↔ ∃ candidate, readToken token = .ok candidate := by
  cases token with
  | error fault => simp [IsIdentity, readToken]
  | ok identity =>
    cases h : TestCandidate.parse? identity <;> simp [IsIdentity, readToken, candidate, h]

/-- Something that is named in place of a test identity keeps a command from having candidates. -/
theorem exists_refusal_of_unidentified (h : Unidentified (tokens lines tests) obstacle) :
    ∃ refusal, readCandidates lines tests = .error refusal ∧
      refusal.exitCode = obstacle.exitCode := by
  rw [readCandidates_eq]
  cases h with
  | @unreadable before after fault hnamed hbefore =>
    refine ⟨.input fault, mapM_eq_error_iff.mpr ⟨before, _, after, hnamed, ?_, rfl⟩, rfl⟩
    exact fun token htoken => isIdentity_iff.mp (hbefore token htoken)
  | @invalid before after identity hnamed hbefore hidentity =>
    have hrefused : readToken (.ok identity) =
        .error (.failure (.argument (.invalidIdentity identity))) := by
      have hnone : TestCandidate.parse? identity = none := by simpa [IsIdentity] using hidentity
      simp only [readToken, candidate, hnone]
    refine ⟨_, mapM_eq_error_iff.mpr ⟨before, _, after, hnamed, ?_, hrefused⟩, rfl⟩
    exact fun token htoken => isIdentity_iff.mp (hbefore token htoken)

theorem exists_unidentified_of_error {refusal : Refusal}
    (h : readCandidates lines tests = .error refusal) :
    ∃ obstacle, Unidentified (tokens lines tests) obstacle ∧
      refusal.exitCode = obstacle.exitCode := by
  rw [readCandidates_eq] at h
  obtain ⟨before, token, after, hnamed, hbefore, htoken⟩ := mapM_eq_error_iff.mp h
  have hidentities : ∀ earlier ∈ before, IsIdentity earlier :=
    fun earlier hearlier => isIdentity_iff.mpr (hbefore earlier hearlier)
  cases token with
  | error fault =>
    cases htoken
    exact ⟨_, .unreadable hnamed hidentities, rfl⟩
  | ok identity =>
    have hidentity : ¬ IsIdentity (.ok identity) := by
      rw [isIdentity_iff, htoken]
      simp
    simp only [readToken, candidate] at htoken
    split at htoken
    · cases htoken
      exact ⟨_, .invalid hnamed hidentities hidentity, rfl⟩
    · cases htoken

end Candidates

end CommandLine

end TestSelection
