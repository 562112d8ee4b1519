import TestSelection.Module.Graph

/-!
Modules reachable along dependency edges. The traversal keeps a queue of modules to visit and
skips those it has visited, so a cycle ends it and the depth of the graph costs no stack. Beside
it stands the relation it computes: a module reaches itself and whatever its dependencies reach.
-/

namespace TestSelection.ModuleGraph

inductive Reaches (graph : ModuleGraph) : String → String → Prop
  | refl (name : String) : Reaches graph name name
  | step {name next target : String} :
    next ∈ graph.dependencies name → Reaches graph next target → Reaches graph name target

/-- The declared modules that are not in `visited`. -/
def unvisited (graph : ModuleGraph) (visited : List String) : List String :=
  graph.names.filter fun name => !visited.contains name

theorem unvisited_length_lt {graph : ModuleGraph} {visited : List String} {name : String}
    (hname : name ∈ graph.names) (hnew : visited.contains name = false) :
    (graph.unvisited (visited ++ [name])).length < (graph.unvisited visited).length := by
  have hsub : graph.unvisited (visited ++ [name]) =
      (graph.unvisited visited).filter fun other => other ≠ name := by
    unfold unvisited
    rw [List.filter_filter]
    congr 1
    funext other
    simp [Bool.and_comm]
  rw [hsub]
  refine List.length_filter_lt_length_iff_exists.mpr ⟨name, ?_, by simp⟩
  have hmem : name ∉ visited := by simpa using hnew
  unfold unvisited
  simp [hname, hmem]

theorem unvisited_length_le (graph : ModuleGraph) (visited : List String) (name : String) :
    (graph.unvisited (visited ++ [name])).length ≤ (graph.unvisited visited).length := by
  unfold unvisited
  rw [← List.countP_eq_length_filter, ← List.countP_eq_length_filter]
  refine List.countP_mono_left fun other _ h => ?_
  simp only [Bool.not_eq_true', List.contains_eq_mem, decide_eq_false_iff_not] at h ⊢
  exact fun hmem => h (List.mem_append_left _ hmem)

theorem mem_names_of_dependencies_ne_nil {graph : ModuleGraph} {name : String}
    (h : graph.dependencies name ≠ []) : name ∈ graph.names := by
  unfold dependencies find? at h
  unfold names
  cases hfind : graph.modules.find? (fun spec => spec.name = name) with
  | none => simp [hfind] at h
  | some spec =>
    have hname := List.find?_some hfind
    have hmem := List.mem_of_find?_eq_some hfind
    simp only [decide_eq_true_eq] at hname
    exact List.mem_map.mpr ⟨spec, hmem, hname⟩

/-- The modules visited from a queue, in the order in which their dependencies are read, after
those already visited. -/
def visit (graph : ModuleGraph) (visited : List String) : List String → List String
  | [] => visited
  | name :: queue =>
    if visited.contains name then visit graph visited queue
    else visit graph (visited ++ [name])
      (queue ++ (graph.dependencies name).filter fun next => !(visited ++ [name]).contains next)
  termination_by queue => ((graph.unvisited visited).length, queue.length)
  decreasing_by
    · exact Prod.Lex.right _ (by simp)
    · next hnew =>
      have hnew' : visited.contains name = false := by simpa using hnew
      by_cases hname : name ∈ graph.names
      · exact Prod.Lex.left _ _ (unvisited_length_lt hname hnew')
      · have hnone : graph.dependencies name = [] := by
          by_cases h : graph.dependencies name = []
          · exact h
          · exact absurd (mem_names_of_dependencies_ne_nil h) hname
        have hle := unvisited_length_le graph visited name
        rcases Nat.lt_or_eq_of_le hle with hlt | heq
        · exact Prod.Lex.left _ _ hlt
        · rw [hnone, heq]
          exact Prod.Lex.right _ (by simp)

/-- The modules whose dependencies are read from `start` on, each in its turn. -/
def visitOrder (graph : ModuleGraph) (start : String) : List String := graph.visit [] [start]

/-- `start` and every module that it depends on at any distance, in ascending order. -/
def reachable (graph : ModuleGraph) (start : String) : List String :=
  Ascending.ofList (graph.visitOrder start)

end TestSelection.ModuleGraph
