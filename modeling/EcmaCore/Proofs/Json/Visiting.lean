/-
This file is about the order in which conversion to JSON comes by the properties of an
object. The own keys are listed once, at the start. Then they are visited in the order of
the list, and each is looked up again when its turn comes, since a script that was called
before may have taken it away. What is said about it is written down at once, so the
members of the text stand in the order of the keys.
-/

import EcmaCore.Proofs.Json.Members
import Mathlib.Data.List.ReduceOption

namespace EcmaCore.Json

/-- Keys of an object are visited one after another, each in the world that the ones before have
left. A key that is no enumerable own key by then is passed over, any other is read and converted;
and what comes of it is a member unless the value has no tree. -/
inductive Visits (call : Caller) (realm : RealmId) (inner : Value → Run (Option Tree))
    (id : ObjectId) : World → List Key → List (Option (Units × Tree)) → World → Prop
  | done (world : World) : Visits call realm inner id world [] [] world
  | hidden {world after : World} {key : Key} {keys : List Key}
      {members : List (Option (Units × Tree))}
      (passed : (world.object id).isEnumerable key = false)
      (rest : Visits call realm inner id world keys members after) :
      Visits call realm inner id world (key :: keys) (none :: members) after
  | shown {world between middle after : World} {key : Key} {keys : List Key} {value : Value}
      {tree : Option Tree} {members : List (Option (Units × Tree))}
      (enumerable : (world.object id).isEnumerable key = true)
      (read : (get call realm id key).outcome world = .done value between)
      (converted : (inner value).outcome between = .done tree middle)
      (rest : Visits call realm inner id middle keys members after) :
      Visits call realm inner id world (key :: keys)
        (tree.map (fun tree => (repaired key.units, tree)) :: members) after

variable {call : Caller} {realm : RealmId} {inner : Value → Run (Option Tree)} {id : ObjectId}
  {world middle after : World} {keys : List Key} {members : List (Option (Units × Tree))}
  {value : Value} {tree : Option Tree}

/-- What the visits have collected comes before what they still yield. -/
theorem visits_traverseFrom {collected : List (Option (Units × Tree))}
    (ended : (Run.traverseFrom (memberTree call realm inner id) collected keys).outcome world =
      .done members after) :
    ∃ rest, members = collected.reverse ++ rest ∧
      Visits call realm inner id world keys rest after := by
  induction keys generalizing world collected with
  | nil =>
    cases ended
    exact ⟨[], (List.append_nil _).symm, .done _⟩
  | cons key keys inductionHypothesis =>
    obtain ⟨member, middle, visited, later⟩ := Run.exists_of_outcome_bind ended
    obtain ⟨rest, rfl, visits⟩ := inductionHypothesis later
    refine ⟨member :: rest, by rw [List.reverse_cons, List.append_assoc]; rfl, ?_⟩
    rw [memberTree, Run.outcome_bind_of_done (Run.outcome_object id world)] at visited
    split at visited
    · rename_i enumerable
      obtain ⟨value, between, read, told⟩ := Run.exists_of_outcome_bind visited
      obtain ⟨tree, last, converted, same⟩ := Run.exists_of_outcome_bind told
      cases same
      exact .shown enumerable read converted visits
    · rename_i passed
      cases visited
      exact .hidden (Bool.eq_false_iff.mpr passed) visits

/-- The names in the text are those of the members that are there, in the same order. A name that is
there already keeps its place. -/
theorem map_fst_mergedMembers_reduceOption (members : List (Option (Units × Tree))) :
    (mergedMembers members).map Prod.fst = (members.reduceOption.map Prod.fst).eraseDups := by
  have present : mergedMembers members = mergedMembers (members.reduceOption.map some) := by
    unfold mergedMembers
    generalize ([] : List (Units × Tree)) = written
    induction members generalizing written with
    | nil => rfl
    | cons member members inductionHypothesis =>
      cases member with
      | none => exact inductionHypothesis written
      | some entry => exact inductionHypothesis _
  rw [present, map_fst_mergedMembers]

/-- The tree has come from the own keys of the object, visited in the order in which it lists them,
and its names are those of the members that are there, in the order of the visits. A name that is
there already keeps its place. -/
def ToldInOrder (call : Caller) (realm : RealmId) (inner : Value → Run (Option Tree))
    (id : ObjectId) (world : World) (tree : Tree) (after : World) : Prop :=
  ∃ members, Visits call realm inner id world (world.object id).ownKeys members after ∧
    tree = .object (mergedMembers members) ∧
    (mergedMembers members).map Prod.fst = (members.reduceOption.map Prod.fst).eraseDups

theorem toldInOrder_objectTree {tree : Tree}
    (ended : (objectTree call realm inner id).outcome world = .done tree after) :
    ToldInOrder call realm inner id world tree after := by
  rw [objectTree, Run.outcome_bind_of_done (Run.outcome_object id world)] at ended
  obtain ⟨members, last, traversed, same⟩ := Run.exists_of_outcome_bind ended
  cases same
  obtain ⟨rest, all, visits⟩ := visits_traverseFrom traversed
  rw [List.reverse_nil, List.nil_append] at all
  exact ⟨members, all ▸ visits, rfl, map_fst_mergedMembers_reduceOption members⟩

/-- So it is wherever an object is converted, at the outside and inside of others. -/
theorem toldInOrder_treeWithin {room : Nat} {enclosing : List ObjectId}
    (ended : (treeWithin call realm room enclosing value).outcome world = .done tree after)
    (stands : (replacement call realm value).outcome world = .done (.object id) middle)
    (noFunction : middle.isCallable (.object id) = false)
    (noArray : (middle.object id).isArray = false) :
    ∃ inside object, room = inside + 1 ∧ tree = some object ∧
      ToldInOrder call realm (treeWithin call realm inside (id :: enclosing)) id middle object
        after := by
  have answered : (Run.isCallable (.object id)).outcome middle = .done false middle := by
    rw [Run.isCallable, Run.outcome_read, noFunction]
  have kind : (Run.isArray (.object id)).outcome middle = .done false middle := by
    rw [Run.isArray, Run.outcome_read]
    exact congrArg (Outcome.done · middle) noArray
  rw [treeWithin.eq_def, Run.outcome_bind_of_done stands] at ended
  dsimp only at ended
  rw [Run.outcome_bind_of_done answered, if_neg Bool.false_ne_true] at ended
  split at ended
  · cases ended
  · cases room with
    | zero => cases ended
    | succ inside =>
      dsimp only at ended
      rw [Run.outcome_bind_of_done kind, if_neg Bool.false_ne_true] at ended
      obtain ⟨object, last, converted, same⟩ := Run.exists_of_outcome_bind ended
      cases same
      exact ⟨inside, object, rfl, rfl, toldInOrder_objectTree converted⟩

end EcmaCore.Json
