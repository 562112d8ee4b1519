import Mathlib.Data.Finset.Card
import TestSelection.Detection.Requests
import TestSelection.Proofs.ParallelRuns

/-!
One detection for each run. The first request of a run that cannot be answered without the changes
binds the run to what the source then reports, and the run keeps it, failure or not. So the source
has been asked once for each run with such a request, and in their order. The other requests leave
all runs as they are.
-/

namespace TestSelection

namespace Selector

/-- What a report of the source is taken for. -/
def classified (selector : Selector) : FileReport → DetectionOutcome
  | .ok paths => .changes (selector.layout.changes paths)
  | .error error => .failed error

/-- What is told at the most urgent level about a report of the source. -/
def failureLines (selector : Selector) : FileReport → List LogLine
  | .ok _ => []
  | .error error =>
    let told := s!"change detection failed ({selector.source.description}), " ++
      s!"running all tests: {error.message}"
    [⟨.selector, .error, told⟩]

end Selector

def errorLines (log : List LogLine) : List LogLine := log.filter fun line => line.level = .error

namespace SelectionRequest

/-- Whether a request cannot be answered without the changes: it asks for them, or for the decision
about a class whose package has a module. -/
def Demanding (request : SelectionRequest) : Prop :=
  match request.step with
  | .evaluate candidate => Crew.Demanding request.graph candidate
  | .outcome => True
  | .peek => False

instance : DecidablePred Demanding
  | ⟨_, graph, .evaluate candidate⟩ => inferInstanceAs (Decidable (Crew.Demanding graph candidate))
  | ⟨_, _, .outcome⟩ => .isTrue trivial
  | ⟨_, _, .peek⟩ => .isFalse id

/-- How a request is answered when `bound?` is the outcome that its run is bound to by then. -/
def IsAnswer (request : SelectionRequest) (bound? : Option DetectionOutcome)
    (answer : SelectionAnswer) : Prop :=
  match request.step with
  | .peek => answer = .stored bound?
  | .outcome => ∃ found, bound? = some found ∧ answer = .outcome found
  | .evaluate candidate =>
    match candidate.method, request.graph.moduleForPackage candidate.package with
    | none, some name =>
      ∃ found, bound? = some found ∧ answer = .decision (request.graph.decide name found)
    | _, _ => ∃ decision, answer = .decision decision ∧ decision.verdict = .run

end SelectionRequest

theorem errorLines_append (first second : List LogLine) :
    errorLines (first ++ second) = errorLines first ++ errorLines second :=
  List.filter_append first second

namespace SelectionRuns

/-- The runs that demanding requests have been made for, in the order of their first ones. -/
def boundRuns (history : List SelectionRequest) : List Nat :=
  ((history.filter fun request => request.Demanding).map (·.run)).eraseDups

/-- The outcome that is stored for a run. -/
def stored? (runs : SelectionRuns) (run : Nat) : Option DetectionOutcome :=
  ((runs.cache run).get? changesKey).map (·.2)

/-- The cache of a run that is bound to an outcome, or to none yet. -/
def cacheOf : Option DetectionOutcome → DetectionCache
  | none => {}
  | some found => (DetectionCache.start {} changesKey).store 0 found

section

variable (selector : Selector) (read : BaselineReader)

/-- What the source reports when it has been asked `calls` times before. -/
def report (calls : Nat) : FileReport := (selector.source.report read calls).value

/-- The outcome that a run is bound to after a history of requests. -/
def bound? (history : List SelectionRequest) (run : Nat) : Option DetectionOutcome :=
  ((boundRuns history).idxOf? run).map fun calls => selector.classified (report selector read calls)

/-- What is told at the most urgent level when the source has been asked `calls` times before: what
the source itself tells, and that it has failed, if it has. -/
def detectionErrors (calls : Nat) : List LogLine :=
  errorLines (selector.source.report read calls).log ++
    selector.failureLines (report selector read calls)

/-- What is told at the most urgent level during a history of requests. -/
def errors (history : List SelectionRequest) : List LogLine :=
  (List.range (boundRuns history).length).flatMap (detectionErrors selector read)

/-- The runs as a history of requests leaves them. -/
structure Settled (history : List SelectionRequest) (runs : SelectionRuns) : Prop where
  calls_eq : runs.calls = (boundRuns history).length
  cache_eq : ∀ run, runs.cache run = cacheOf (bound? selector read history run)

end

variable {selector : Selector} {read : BaselineReader} {runs : SelectionRuns}
variable {history : List SelectionRequest} {request : SelectionRequest} {run other calls : Nat}
variable {found : DetectionOutcome}

theorem eraseDups_concat (members : List Nat) (last : Nat) :
    (members ++ [last]).eraseDups =
      if last ∈ members then members.eraseDups else members.eraseDups ++ [last] := by
  rw [List.eraseDups_append]
  split
  · next hmem => simp [List.removeAll, hmem]
  · next hnew =>
    have hlast : [last].removeAll members = [last] := by simp [List.removeAll, hnew]
    rw [hlast, List.eraseDups_cons, List.filter_nil, List.eraseDups_nil]

theorem nodup_eraseDups (members : List Nat) : members.eraseDups.Nodup := by
  induction members using List.reverseRecOn with
  | nil => exact List.nodup_nil
  | append_singleton members last ih =>
    rw [eraseDups_concat]
    split
    · exact ih
    · next hnew =>
      refine List.nodup_append.mpr ⟨ih, List.nodup_singleton last, ?_⟩
      intro member hmember new hmem heq
      rw [heq, List.mem_singleton.mp hmem, List.mem_eraseDups] at hmember
      exact hnew hmember

theorem boundRuns_concat (history : List SelectionRequest) (request : SelectionRequest) :
    boundRuns (history ++ [request]) =
      if request.Demanding ∧ request.run ∉ boundRuns history then
        boundRuns history ++ [request.run]
      else boundRuns history := by
  unfold boundRuns
  rw [List.filter_append, List.map_append]
  by_cases hdemanding : request.Demanding
  · simp only [List.filter_cons, hdemanding, decide_true, if_true, List.filter_nil, List.map_cons,
      List.map_nil, eraseDups_concat, List.mem_eraseDups, true_and]
    split <;> simp_all
  · simp [hdemanding]

theorem boundRuns_prefix (history later : List SelectionRequest) :
    boundRuns history <+: boundRuns (history ++ later) := by
  unfold boundRuns
  rw [List.filter_append, List.map_append, List.eraseDups_append]
  exact List.prefix_append _ _

theorem bound?_of_getElem? {k : Nat} (h : (boundRuns history)[k]? = some run) :
    bound? selector read history run = some (selector.classified (report selector read k)) := by
  obtain ⟨hlt, hget⟩ := List.getElem?_eq_some_iff.mp h
  have hidx : (boundRuns history).idxOf? run = some k := by
    refine List.idxOf?_eq_some_iff.mpr ⟨hlt, hget, ?_⟩
    intro other hother heq
    have hsame := (List.getElem_inj (nodup_eraseDups _)).mp (heq.trans hget.symm)
    omega
  unfold bound?
  rw [hidx, Option.map_some]

theorem bound?_eq_none_iff :
    bound? selector read history run = none ↔ run ∉ boundRuns history := by
  unfold bound?
  rw [Option.map_eq_none_iff, List.idxOf?_eq_none_iff]

theorem lookup_filter_ne {entries : List (Nat × DetectionCache)} (h : other ≠ run) :
    (entries.filter fun entry => entry.1 ≠ run).lookup other = entries.lookup other := by
  induction entries with
  | nil => rfl
  | cons entry rest ih =>
    obtain ⟨key, cache⟩ := entry
    by_cases hkey : key = run
    · have hother : (other == key) = false := by simpa [hkey] using h
      rw [List.filter_cons_of_neg (by simpa using hkey), List.lookup_cons, hother, ih]
    · rw [List.filter_cons_of_pos (by simpa using hkey), List.lookup_cons, List.lookup_cons, ih]

theorem cache_record (runs : SelectionRuns) (run : Nat) (standing : Selector.Standing) :
    (runs.record run standing).cache other =
      if other = run then standing.cache else runs.cache other := by
  unfold cache record
  rw [List.lookup_cons]
  split
  · next heq => rw [if_pos (by simpa using heq), Option.getD_some]
  · next hne =>
    have hother : other ≠ run := by simpa using hne
    rw [if_neg hother, lookup_filter_ne hother]

theorem get?_cacheOf (bound : Option DetectionOutcome) :
    (cacheOf bound).get? changesKey = bound.map fun found => (0, found) := by
  cases bound <;> rfl

theorem detect_value_eq (calls : Nat) :
    (selector.detect read calls).value = selector.classified (report selector read calls) := by
  rw [Selector.detect_value]
  rfl

theorem errorLines_detect (calls : Nat) :
    errorLines (selector.detect read calls).log = detectionErrors selector read calls := by
  unfold Selector.detect Logged.bind detectionErrors report
  rw [errorLines_append]
  cases (selector.source.report read calls).value <;> rfl

theorem outcome_of_bound {standing : Selector.Standing}
    (h : standing.cache = cacheOf (some found)) :
    selector.outcome read standing = Logged.pure (found, standing) := by
  unfold Selector.outcome
  rw [h, get?_cacheOf]
  rfl

theorem outcome_of_unbound {standing : Selector.Standing} (h : standing.cache = cacheOf none) :
    selector.outcome read standing =
      ⟨((selector.detect read standing.calls).value,
        ⟨standing.calls + 1, cacheOf (some (selector.detect read standing.calls).value)⟩),
        (selector.detect read standing.calls).log⟩ := by
  unfold Selector.outcome
  rw [h, get?_cacheOf]
  simp only [Option.map_none, Logged.bind, Logged.pure, List.append_nil]
  rfl

/-- A request that adds no bound run leaves the runs settled. -/
theorem Settled.of_boundRuns_eq {next : SelectionRuns} {more : List SelectionRequest}
    (h : Settled selector read history runs) (hsame : boundRuns more = boundRuns history)
    (hcalls : next.calls = runs.calls) (hcache : ∀ run, next.cache run = runs.cache run) :
    Settled selector read more next where
  calls_eq := by rw [hcalls, hsame, h.calls_eq]
  cache_eq run := by
    unfold bound?
    rw [hcache, hsame]
    exact h.cache_eq run

theorem record_standing_cache (runs : SelectionRuns) (run other : Nat) :
    (runs.record run (runs.standing run)).cache other = runs.cache other := by
  rw [cache_record]
  split
  · next heq => rw [heq]; rfl
  · rfl

/-- What a demanding request has of the outcome that it asks for. -/
structure Consulted (selector : Selector) (read : BaselineReader)
    (history more : List SelectionRequest) (runs : SelectionRuns) (run : Nat)
    (result : Logged (DetectionOutcome × Selector.Standing)) : Prop where
  bound_eq : bound? selector read more run = some result.value.1
  settled : Settled selector read more (runs.record run result.value.2)
  errors_eq : errors selector read more =
    errors selector read history ++ errorLines result.log

theorem consulted_of_bound {more : List SelectionRequest} (h : Settled selector read history runs)
    (hsame : boundRuns more = boundRuns history)
    (hbound : bound? selector read history run = some found) :
    Consulted selector read history more runs run
      (selector.outcome read (runs.standing run)) := by
  have hcache : (runs.standing run).cache = cacheOf (some found) := hbound ▸ h.cache_eq run
  rw [outcome_of_bound hcache]
  refine ⟨?_, ?_, ?_⟩
  · unfold bound? at hbound ⊢
    rw [hsame]
    exact hbound
  · exact h.of_boundRuns_eq hsame rfl (record_standing_cache runs run)
  · unfold errors
    rw [hsame]
    exact (List.append_nil _).symm

theorem consulted_of_unbound {more : List SelectionRequest}
    (h : Settled selector read history runs) (hnew : run ∉ boundRuns history)
    (hmore : boundRuns more = boundRuns history ++ [run]) :
    Consulted selector read history more runs run
      (selector.outcome read (runs.standing run)) := by
  have hnone : bound? selector read history run = none := bound?_eq_none_iff.mpr hnew
  have hcache : (runs.standing run).cache = cacheOf none := hnone ▸ h.cache_eq run
  have hcalls : (runs.standing run).calls = (boundRuns history).length := h.calls_eq
  have hbound : bound? selector read more run =
      some (selector.classified (report selector read (boundRuns history).length)) :=
    bound?_of_getElem? (by rw [hmore]; exact List.getElem?_concat_length)
  rw [outcome_of_unbound hcache, hcalls, detect_value_eq]
  refine ⟨hbound, ⟨?_, ?_⟩, ?_⟩
  · rw [hmore, List.length_append, List.length_singleton]
    rfl
  · intro other
    rw [cache_record]
    split
    · next heq => rw [heq, hbound]
    · next hother =>
      have hidx : (boundRuns more).idxOf? other = (boundRuns history).idxOf? other := by
        have hrun : (run == other) = false := by simpa using Ne.symm hother
        unfold List.idxOf?
        rw [hmore, List.findIdx?_append]
        simp [List.findIdx?_cons, hrun]
      unfold bound?
      rw [hidx]
      exact h.cache_eq other
  · unfold errors
    rw [hmore, List.length_append, List.length_singleton, List.range_succ, List.flatMap_append,
      errorLines_detect]
    simp

/-- A demanding request finds its run bound, or binds it. -/
theorem consulted (h : Settled selector read history runs) (request : SelectionRequest)
    (hdemanding : request.Demanding) :
    Consulted selector read history (history ++ [request]) runs request.run
      (selector.outcome read (runs.standing request.run)) := by
  have hconcat := boundRuns_concat history request
  by_cases hbound : request.run ∈ boundRuns history
  · rw [if_neg fun hnew => hnew.2 hbound] at hconcat
    obtain ⟨found, hfound⟩ := Option.ne_none_iff_exists'.mp
      (mt bound?_eq_none_iff.mp (not_not_intro hbound) :
        bound? selector read history request.run ≠ none)
    exact consulted_of_bound h hconcat hfound
  · rw [if_pos ⟨hdemanding, hbound⟩] at hconcat
    exact consulted_of_unbound h hbound hconcat

/-- What one request does. -/
structure Answered (selector : Selector) (read : BaselineReader)
    (history : List SelectionRequest) (request : SelectionRequest)
    (result : Logged (SelectionAnswer × SelectionRuns)) : Prop where
  settled : Settled selector read (history ++ [request]) result.value.2
  isAnswer : request.IsAnswer (bound? selector read (history ++ [request]) request.run)
    result.value.1
  errors_eq : errors selector read (history ++ [request]) =
    errors selector read history ++ errorLines result.log

theorem boundRuns_of_undemanding (history : List SelectionRequest) (h : ¬ request.Demanding) :
    boundRuns (history ++ [request]) = boundRuns history := by
  rw [boundRuns_concat, if_neg fun hdemanding => h hdemanding.1]

/-- A request that needs no changes leaves the runs settled and tells nothing urgent. -/
theorem Answered.of_undemanding {answer : SelectionAnswer} {next : SelectionRuns}
    {log : List LogLine} (h : Settled selector read history runs)
    (hundemanding : ¬ request.Demanding) (hcalls : next.calls = runs.calls)
    (hcache : ∀ run, next.cache run = runs.cache run) (hlog : errorLines log = [])
    (hanswer : request.IsAnswer (bound? selector read history request.run) answer) :
    Answered selector read history request ⟨(answer, next), log⟩ := by
  have hsame := boundRuns_of_undemanding history hundemanding
  refine ⟨h.of_boundRuns_eq hsame hcalls hcache, ?_, ?_⟩
  · unfold bound? at hanswer ⊢
    rw [hsame]
    exact hanswer
  · unfold errors
    rw [hsame, hlog, List.append_nil]

theorem isAnswer_of_module? {graph : ModuleGraph} {candidate : TestCandidate} {name : String}
    (hmodule : Selector.module? graph candidate = some name) :
    SelectionRequest.IsAnswer ⟨run, graph, .evaluate candidate⟩ (some found)
      (.decision (graph.decide name found)) := by
  obtain ⟨hclass, hlocated⟩ := Selector.module?_eq_some_iff.mp hmodule
  simp only [SelectionRequest.IsAnswer, hclass, hlocated]
  exact ⟨found, rfl, rfl⟩

theorem isAnswer_of_unlocated {graph : ModuleGraph} {candidate : TestCandidate}
    (hmodule : Selector.module? graph candidate = none) (bound : Option DetectionOutcome) :
    SelectionRequest.IsAnswer ⟨run, graph, .evaluate candidate⟩ bound
      (.decision (Selector.unlocated candidate)) := by
  simp only [SelectionRequest.IsAnswer]
  split
  · next name hclass hlocated =>
    rw [Selector.module?_eq_some_iff.mpr ⟨hclass, hlocated⟩] at hmodule
    cases hmodule
  · exact ⟨_, rfl, Selector.unlocated_run candidate⟩

theorem Settled.stored?_eq (h : Settled selector read history runs) (run : Nat) :
    stored? runs run = bound? selector read history run := by
  unfold stored?
  rw [h.cache_eq run, get?_cacheOf, Option.map_map]
  exact Option.map_id'

theorem errorLines_noteDecision (candidate : TestCandidate) (decision : Decision) :
    errorLines [Selector.noteDecision candidate decision] = [] := rfl

theorem answered (h : Settled selector read history runs) (request : SelectionRequest) :
    Answered selector read history request (runs.answer selector read request) := by
  obtain ⟨run, graph, step⟩ := request
  cases step with
  | peek => exact .of_undemanding h id rfl (fun _ => rfl) rfl (congrArg _ (h.stored?_eq run))
  | outcome =>
    obtain ⟨hbound, hsettled, herrors⟩ := consulted h ⟨run, graph, .outcome⟩ trivial
    refine ⟨hsettled, ⟨_, hbound, rfl⟩, ?_⟩
    change _ = _ ++ errorLines ((selector.outcome read (runs.standing run)).log ++ [])
    rw [List.append_nil]
    exact herrors
  | evaluate candidate =>
    cases hmodule : Selector.module? graph candidate with
    | none =>
      have hanswer : runs.answer selector read ⟨run, graph, .evaluate candidate⟩ =
          ⟨(.decision (Selector.unlocated candidate), runs.record run (runs.standing run)),
            [Selector.noteDecision candidate (Selector.unlocated candidate)]⟩ := by
        simp only [answer, SelectionRuns.step, Selector.evaluate, hmodule]
        rfl
      have hundemanding : ¬ Crew.Demanding graph candidate := by
        simp [Crew.demanding_iff, hmodule]
      rw [hanswer]
      exact .of_undemanding h hundemanding rfl (record_standing_cache runs run)
        (errorLines_noteDecision candidate _) (isAnswer_of_unlocated hmodule _)
    | some name =>
      have hdemanding : Crew.Demanding graph candidate := Crew.demanding_iff.mpr ⟨name, hmodule⟩
      obtain ⟨hbound, hsettled, herrors⟩ :=
        consulted h ⟨run, graph, .evaluate candidate⟩ hdemanding
      have hanswer : runs.answer selector read ⟨run, graph, .evaluate candidate⟩ =
          ⟨(.decision (graph.decide name (selector.outcome read (runs.standing run)).value.1),
              runs.record run (selector.outcome read (runs.standing run)).value.2),
            (selector.outcome read (runs.standing run)).log ++ [Selector.noteDecision candidate
              (graph.decide name (selector.outcome read (runs.standing run)).value.1)]⟩ := by
        simp only [answer, SelectionRuns.step, Selector.evaluate, hmodule, Logged.bind, Logged.pure,
          List.append_nil]
      rw [hanswer]
      refine ⟨hsettled, ?_, ?_⟩
      · rw [hbound]
        exact isAnswer_of_module? hmodule
      · rw [errorLines_append, errorLines_noteDecision, List.append_nil]
        exact herrors

theorem serve_append (runs : SelectionRuns) (first second : List SelectionRequest) :
    let begun := serve selector read runs first
    let ended := serve selector read begun.value.2 second
    serve selector read runs (first ++ second) =
      ⟨(begun.value.1 ++ ended.value.1, ended.value.2), begun.log ++ ended.log⟩ := by
  induction first generalizing runs with
  | nil => rfl
  | cons request rest ih =>
    simp only [List.cons_append, serve, Logged.bind, Logged.pure, ih, List.append_nil,
      List.append_assoc]

theorem serve_concat (runs : SelectionRuns) (history : List SelectionRequest)
    (request : SelectionRequest) :
    let begun := serve selector read runs history
    let last := begun.value.2.answer selector read request
    serve selector read runs (history ++ [request]) =
      ⟨(begun.value.1 ++ [last.value.1], last.value.2), begun.log ++ last.log⟩ := by
  rw [serve_append]
  simp only [serve, Logged.bind, Logged.pure, List.append_nil]

theorem settled_serve (selector : Selector) (read : BaselineReader)
    (history : List SelectionRequest) :
    Settled selector read history (serve selector read {} history).value.2 ∧
      errorLines (serve selector read {} history).log = errors selector read history := by
  induction history using List.reverseRecOn with
  | nil => exact ⟨⟨rfl, fun _ => rfl⟩, rfl⟩
  | append_singleton history request ih =>
    obtain ⟨hsettled, herrors⟩ := ih
    have hanswered := answered hsettled request
    rw [serve_concat]
    refine ⟨hanswered.settled, ?_⟩
    rw [errorLines_append, herrors]
    exact hanswered.errors_eq.symm

theorem mem_boundRuns_iff :
    run ∈ boundRuns history ↔ ∃ request ∈ history, request.Demanding ∧ request.run = run := by
  simp [boundRuns, and_assoc]

theorem length_boundRuns (history : List SelectionRequest) :
    (boundRuns history).length =
      ((history.filter fun request => request.Demanding).map (·.run)).toFinset.card := by
  have hnodup : (boundRuns history).Nodup := nodup_eraseDups _
  rw [← List.toFinset_card_of_nodup hnodup]
  congr 1
  ext run
  simp only [boundRuns, List.mem_toFinset, List.mem_eraseDups]

theorem length_serve (runs : SelectionRuns) (history : List SelectionRequest) :
    (serve selector read runs history).value.1.length = history.length := by
  induction history generalizing runs with
  | nil => rfl
  | cons request rest ih =>
    simp only [serve, Logged.bind, Logged.pure, List.length_cons, ih]

/-- A request is answered by what the requests up to it have bound its run to. -/
theorem exists_answer (selector : Selector) (read : BaselineReader)
    (before : List SelectionRequest) (request : SelectionRequest)
    (later : List SelectionRequest) :
    ∃ answer, (serve selector read {} (before ++ request :: later)).value.1[before.length]? =
        some answer ∧
      request.IsAnswer (bound? selector read (before ++ [request]) request.run) answer := by
  have hanswered := answered (settled_serve selector read before).1 request
  refine ⟨_, ?_, hanswered.isAnswer⟩
  rw [serve_append, List.getElem?_append_right (Nat.le_of_eq (length_serve _ before)),
    length_serve, Nat.sub_self]
  rfl

/-- What serving a history of requests with a new selector comes to. The source has been asked once
for every run that a demanding request was made for, and these runs are bound to its reports one
after the other, whatever comes later; no other run is. Every request is answered by the outcome
that its run is bound to by then, requests that are not demanding change no run, and every failure
is told once. -/
structure OncePerRun (selector : Selector) (read : BaselineReader)
    (history : List SelectionRequest)
    (served : Logged (List SelectionAnswer × SelectionRuns)) : Prop where
  calls_eq : served.value.2.calls =
    ((history.filter fun request => request.Demanding).map (·.run)).toFinset.card
  stored?_bound : ∀ (k run : Nat), (boundRuns history)[k]? = some run → ∀ later,
    stored? (serve selector read {} (history ++ later)).value.2 run =
      some (selector.classified (report selector read k))
  stored?_unbound : ∀ run, (∀ request ∈ history, request.Demanding → request.run ≠ run) →
    stored? served.value.2 run = none
  isAnswer : ∀ before request later, history = before ++ request :: later →
    ∃ answer, served.value.1[before.length]? = some answer ∧
      request.IsAnswer (bound? selector read (before ++ [request]) request.run) answer
  unchanged : ∀ request : SelectionRequest, ¬ request.Demanding →
    (served.value.2.answer selector read request).value.2.calls = served.value.2.calls ∧
      ∀ run, (served.value.2.answer selector read request).value.2.cache run =
        served.value.2.cache run
  errors_eq : errorLines served.log =
    (List.range (boundRuns history).length).flatMap fun k =>
      errorLines (selector.source.report read k).log ++
        selector.failureLines (report selector read k)

theorem bound_by_first_demand (selector : Selector) (read : BaselineReader)
    (history : List SelectionRequest) :
    OncePerRun selector read history (serve selector read {} history) := by
  obtain ⟨hsettled, herrors⟩ := settled_serve selector read history
  refine ⟨?_, ?_, ?_, ?_, ?_, herrors⟩
  · rw [hsettled.calls_eq, length_boundRuns]
  · intro k run hrun later
    rw [(settled_serve selector read (history ++ later)).1.stored?_eq]
    obtain ⟨hlt, _⟩ := List.getElem?_eq_some_iff.mp hrun
    obtain ⟨rest, hrest⟩ := boundRuns_prefix history later
    refine bound?_of_getElem? ?_
    rw [← hrest, List.getElem?_append_left hlt, hrun]
  · intro run hundemanded
    rw [hsettled.stored?_eq, bound?_eq_none_iff, mem_boundRuns_iff]
    rintro ⟨request, hmem, hdemanding, hrun⟩
    exact hundemanded request hmem hdemanding hrun
  · rintro before request later rfl
    exact exists_answer selector read before request later
  · intro request hundemanding
    have hanswered := (answered hsettled request).settled
    have hsame := boundRuns_of_undemanding history hundemanding
    refine ⟨?_, ?_⟩
    · rw [hanswered.calls_eq, hsettled.calls_eq, hsame]
    · intro run
      rw [hanswered.cache_eq, hsettled.cache_eq]
      unfold bound?
      rw [hsame]

/-- Two runs on a source that fails at first. Run 1 is the first to ask, by an evaluation, and run 0
is bound to the second report; the peeks and the method ask for nothing. -/
example :
    let reports : Nat → FileReport := fun calls =>
      if calls = 0 then .error (.source "scripted" "no repository") else .ok []
    let selector : Selector := ⟨"repo", .custom "scripted" "scripted" reports, .default⟩
    let read : BaselineReader := fun _ => Logged.pure (.ok [])
    let graph := ModuleGraph.shop
    let served := serve selector read {}
      [⟨0, graph, .peek⟩, ⟨0, graph, .evaluate ⟨"a.b.OrderTest", some "adds"⟩⟩,
        ⟨1, graph, .evaluate ⟨"a.b.OrderTest", none⟩⟩, ⟨0, graph, .outcome⟩, ⟨1, graph, .outcome⟩,
        ⟨2, graph, .peek⟩]
    served.value.2.calls = 2 ∧ (errorLines served.log).length = 1 ∧
      stored? served.value.2 0 = some (.changes ChangeSet.empty) ∧
      stored? served.value.2 1 = some (.failed (.source "scripted" "no repository")) ∧
      stored? served.value.2 2 = none := by
  decide

end SelectionRuns

end TestSelection
