import TreeLint.Proofs.Analysis.ReportedLists
import TreeLint.Proofs.Rule.Relocation
import TreeLint.Proofs.Tree.Copies

/-!
# The reported lists of copies

A host that does not tell the copies of a call apart lets the rules report the same of copies, so
that the same lists are reported below both (`TreeLint.Engine.listsAlike_reportedPaths`). Hosts that
know one answer for each node (`TreeLint.SemanticModel.answersOnce_of_same`), as bindings of calls
do (`TreeLint.BoundSymbols.answersOnce`), are such hosts, and every host is one if all arguments
have text (`TreeLint.SemanticModel.answersOnce_of_text`).
-/

namespace TreeLint

open Node

/-- A host answers for the copies of a call of a tree as for the call. -/
def SemanticModel.AnswersOnce (model : SemanticModel) (tree : Tree) : Prop :=
  ∀ first second, Copies tree first second → first.kind.callForm?.isSome = true →
    model.boundMethod? second = model.boundMethod? first

/-- Hosts that know one answer for each node are such hosts. -/
theorem SemanticModel.answersOnce_of_same {model : SemanticModel} (tree : Tree)
    (alike : ∀ first second : Node, first.Same second →
      model.boundMethod? second = model.boundMethod? first) : model.AnswersOnce tree :=
  fun _ _ copies _ => alike _ _ copies.same

/-- Bindings are such a host, because nodes that are the same share a key. -/
theorem BoundSymbols.answersOnce (bound : BoundSymbols) (tree : Tree) :
    bound.model.AnswersOnce tree := by
  refine SemanticModel.answersOnce_of_same tree fun first second same => ?_
  have keys : second.key = first.key := by
    rw [Node.key, Node.key, same.kind_eq, same.span_eq]
  exact congrArg (bound.bindings.lookup ·) keys

/-- Without two arguments that are the same node there are no calls to tell apart. -/
theorem SemanticModel.answersOnce_of_text (model : SemanticModel) {tree : Tree}
    (text : ∀ node ∈ tree.root.descendants, node.kind = .argument → node.text ≠ "") :
    model.AnswersOnce tree := by
  intro first second copies _
  rw [copies.eq_of_text text]

namespace Node.Copies

open AnonymousMethodList

variable {tree : Tree} {first second : Node}

theorem upwards (tree : Tree) : Upwards (Copies tree) where
  kind_eq := fun copies => copies.same.kind_eq
  parent := fun copies => copies.parent

theorem upwards_flip (tree : Tree) : Upwards (flip (Copies tree)) where
  kind_eq := fun copies => copies.same.kind_eq.symm
  parent := fun copies up =>
    have ⟨parent, found, above⟩ := copies.symm.parent up
    ⟨parent, found, above.symm⟩

/-- The lists of copies can be removed alike. -/
theorem removable_eq {context : Context} (once : context.unit.model.AnswersOnce tree)
    (copies : Copies tree first second) : removable context second = removable context first := by
  refine removable_eq_of_upwards (upwards tree) (upwards_flip tree) rfl rfl copies.placed copies
    fun place arguments lists calls => ?_
  have isCall := (isSome_callForm?_iff _).mpr place.isCall
  exact ⟨lists.same.positionOf?_eq arguments.same, once _ _ calls isCall⟩

theorem agreement {context : Context} (once : context.unit.model.AnswersOnce tree) :
    tree.copies.Agreement context context (fun _ => .unknown) (fun _ => .unknown) where
  settings := rfl
  version := rfl
  places := fun _ _ _ => rfl
  removable := fun _ _ like => (copies_iff.mp like).removable_eq once

/-- Of copies the rules report lists at the same index, or none. -/
theorem reportedList? (context : Context) (once : context.unit.model.AnswersOnce tree)
    (copies : Copies tree first second) :
    Option.Rel (first.SameChild second) (Builtin.reportedList? context first)
      (Builtin.reportedList? context second) := by
  have empty := isEmpty_eq_of_rel ((agreement once).findings (copies_iff.mpr copies))
  have views {kind : NodeKind} {one two : Option (View kind)}
      (like : Option.Rel (fun one two => first.SameChild second one.node two.node) one two) :
      Option.Rel (first.SameChild second) (one.map (·.node)) (two.map (·.node)) := by
    cases like with
    | some child => exact .some child
    | none => exact .none
  unfold Builtin.reportedList?
  rw [empty, copies.same.kind_eq]
  split
  · exact .none
  · split
    · exact views (copies.same.childAs? .parameterList)
    · exact views (copies.same.childAs? .attributeArgumentList)
    · exact .none

end Node.Copies

namespace Engine

variable {settings : Settings} {unit : AnalysisUnit}

theorem exists_owner {path : List Nat} (listed : path ∈ reportedPaths settings unit) :
    ∃ owner list, owner.Placed unit.tree ∧ list ∈ owner.children ∧ list.path = path ∧
      Builtin.reportedList? ⟨unit, settings⟩ owner = some list := by
  obtain ⟨list, reported, path⟩ := List.mem_map.mp listed
  obtain ⟨owner, visited, reported⟩ := List.mem_filterMap.mp reported
  exact ⟨owner, list, placed_of_mem_descendants visited,
    (Builtin.list_of_reportedList? _ reported).1, path, reported⟩

theorem mem_reportedPaths_of_copies (once : unit.model.AnswersOnce unit.tree) {first second : Node}
    (copies : Copies unit.tree first second) {way : List Nat} (below : way ≠ [])
    (listed : way ++ first.path ∈ reportedPaths settings unit) :
    way ++ second.path ∈ reportedPaths settings unit := by
  obtain ⟨owner, list, placed, member, path, reported⟩ := exists_owner listed
  obtain ⟨index, rest, rfl⟩ := List.exists_cons_of_ne_nil below
  obtain ⟨here, down⟩ := path_of_mem_children member
  obtain ⟨rfl, up⟩ := List.cons.inj (down.symm.trans path)
  -- The owner of the list has a copy at the same way down, whose list is reported as well.
  obtain ⟨ownerToo, owners, pathToo⟩ := copies.exists_below placed up
  have lists := owners.reportedList? ⟨unit, settings⟩ once
  rw [reported] at lists
  generalize reportedToo : Builtin.reportedList? ⟨unit, settings⟩ ownerToo = found at lists
  cases lists with
  | @some _ listToo child =>
      obtain ⟨-, _, stands, standsToo⟩ := child
      obtain ⟨rfl, -⟩ := List.cons.inj (down.symm.trans stands)
      have known := mem_reportedPaths owners.symm.placed reportedToo
      rw [standsToo, pathToo] at known
      exact known

/-- The same lists are reported below copies. -/
theorem listsAlike_reportedPaths (settings : Settings) (once : unit.model.AnswersOnce unit.tree) :
    ListsAlike unit.tree (reportedPaths settings unit) :=
  fun _ _ copies _ below => ⟨mem_reportedPaths_of_copies once copies below,
    mem_reportedPaths_of_copies once copies.symm below⟩

end Engine

end TreeLint
