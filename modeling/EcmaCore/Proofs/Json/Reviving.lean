/-
This file is about parsing with a reviver that changes no object, whatever it returns. The
walk over the parsed value changes the very containers that it goes over, and it learns the
keys of a container before it revives what stands under them. Still it is as if the order of
the calls were fixed from the start: the nodes as parsing left them, children before their
parents, the whole value last. After each call but the last the result is settled in the
container of the node.

What keeps the walk and the fixed order together is that no place is visited twice. So at
the turn of a node what has become of any object is known from the results of the visits to
its own places: the node still stands where parsing put it, and its children, of which each
had its turn, have been settled.
-/

import EcmaCore.Engine.Function
import EcmaCore.Proofs.Engine.Asking
import EcmaCore.Proofs.Engine.Calling
import EcmaCore.Proofs.Json.Postorder
import EcmaCore.Proofs.Json.Serializing

namespace EcmaCore

variable {α β : Type}

/-! ### Loops, step by step -/

/-- The outcome without its value. -/
def Outcome.unvalued (outcome : Outcome α) : Outcome Unit :=
  outcome.andThen fun _ world => .done () world

/-- What goes on without the value needs the outcome without its value only. -/
theorem Outcome.andThen_const (outcome : Outcome α) (continuation : World → Outcome β) :
    outcome.andThen (fun _ world => continuation world) =
      outcome.unvalued.andThen fun _ world => continuation world := by
  cases outcome <;> rfl

theorem Outcome.andThen_assoc {γ : Type} (outcome : Outcome α) (next : α → World → Outcome β)
    (last : β → World → Outcome γ) :
    (outcome.andThen next).andThen last =
      outcome.andThen fun value world => (next value world).andThen last := by
  cases outcome <;> rfl

namespace Run

variable {step : α → Run β}

theorem outcome_traverseFrom_collected (collected : List β) (members : List α) (world : World) :
    (traverseFrom step collected members).outcome world =
      ((traverse members step).outcome world).andThen fun results after =>
        .done (collected.reverse ++ results) after := by
  rw [traverse]
  induction members generalizing collected world with
  | nil =>
    rw [traverseFrom, traverseFrom, outcome_pure, outcome_pure, Outcome.andThen_done]
    exact congrArg (Outcome.done · world) (List.append_nil _).symm
  | cons member rest inductionHypothesis =>
    rw [traverseFrom, traverseFrom, outcome_bind, outcome_bind]
    cases (step member).outcome world with
    | done result after =>
      rw [Outcome.andThen_done, Outcome.andThen_done, inductionHypothesis,
        inductionHypothesis [result]]
      cases (traverseFrom step [] rest).outcome after with
      | done results last =>
        exact congrArg (Outcome.done · last) (by rw [List.reverse_cons, List.append_assoc]; rfl)
      | _ => rfl
    | _ => rfl

theorem outcome_traverse_cons (member : α) (rest : List α) (world : World) :
    (traverse (member :: rest) step).outcome world =
      ((step member).outcome world).andThen fun result after =>
        ((traverse rest step).outcome after).andThen fun results last =>
          .done (result :: results) last := by
  rw [traverse, traverseFrom, outcome_bind]
  refine congrArg _ (funext fun result => funext fun after => ?_)
  exact outcome_traverseFrom_collected [result] rest after

theorem outcome_traverse_append (first second : List α) (world : World) :
    (traverse (first ++ second) step).outcome world =
      ((traverse first step).outcome world).andThen fun results after =>
        ((traverse second step).outcome after).andThen fun more last =>
          .done (results ++ more) last := by
  induction first generalizing world with
  | nil =>
    rw [List.nil_append, traverse, traverse, traverseFrom, outcome_pure, Outcome.andThen_done]
    cases (traverseFrom step [] second).outcome world <;> rfl
  | cons member rest inductionHypothesis =>
    rw [List.cons_append, outcome_traverse_cons, outcome_traverse_cons]
    cases (step member).outcome world with
    | done result after =>
      rw [Outcome.andThen_done, Outcome.andThen_done, inductionHypothesis]
      cases (traverse rest step).outcome after with
      | done results last =>
        rw [Outcome.andThen_done, Outcome.andThen_done, Outcome.andThen_done]
        cases (traverse second step).outcome last <;> rfl
      | _ => rfl
    | _ => rfl

/-- The ends of a loop do not depend on what was collected. -/
theorem unvalued_traverse_cons (member : α) (rest : List α) (world : World) :
    ((traverse (member :: rest) step).outcome world).unvalued =
      ((step member).outcome world).andThen fun _ after =>
        ((traverse rest step).outcome after).unvalued := by
  rw [outcome_traverse_cons]
  cases (step member).outcome world with
  | done result after =>
    rw [Outcome.andThen_done, Outcome.andThen_done]
    cases (traverse rest step).outcome after <;> rfl
  | _ => rfl

theorem unvalued_traverse_append (first second : List α) (world : World) :
    ((traverse (first ++ second) step).outcome world).unvalued =
      ((traverse first step).outcome world).andThen fun _ after =>
        ((traverse second step).outcome after).unvalued := by
  rw [outcome_traverse_append]
  cases (traverse first step).outcome world with
  | done results after =>
    rw [Outcome.andThen_done, Outcome.andThen_done]
    cases (traverse second step).outcome after <;> rfl
  | _ => rfl

theorem collectFrom_eq_traverseFrom {step : Nat → Run β} (collected : List β)
    (index remaining : Nat) :
    collectFrom step collected index remaining =
      traverseFrom step collected (List.range' index remaining) := by
  induction remaining generalizing collected index with
  | zero => rfl
  | succ remaining inductionHypothesis =>
    rw [collectFrom, List.range'_succ, traverseFrom]
    exact congrArg _ (funext fun result => inductionHypothesis (result :: collected) (index + 1))

/-- A loop over indices goes over the list of them. -/
theorem collect_eq_traverse (count : Nat) (step : Nat → Run β) :
    collect count step = traverse (List.range count) step := by
  rw [collect, traverse, collectFrom_eq_traverseFrom, List.range_eq_range']

theorem traverse_map {γ : Type} (members : List γ) (view : γ → α) :
    traverse (members.map view) step = traverse members fun member => step (view member) := by
  suffices all : ∀ collected, traverseFrom step collected (members.map view) =
      traverseFrom (fun member => step (view member)) collected members from all []
  induction members with
  | nil => exact fun _ => rfl
  | cons member rest inductionHypothesis =>
    intro collected
    rw [List.map_cons, traverseFrom, traverseFrom]
    exact congrArg _ (funext fun result => inductionHypothesis (result :: collected))

end Run

/-- The world still extends an earlier one after a change of an object that is newer. -/
theorem World.Extends.modifyObject {before after : World} (extended : after.Extends before)
    {id : ObjectId} (new : ¬ before.Has id) (update : Object → Object) :
    (after.modifyObject id update).Extends before where
  hasRealm realm made := (World.hasRealm_modifyRealm _ realm).mpr (extended.hasRealm realm made)
  has other made := (World.has_modifyObject update other).mpr (extended.has other made)
  object other made := by
    have different : other ≠ id := fun same => new (same ▸ made)
    rw [World.object_modifyObject_of_ne different, extended.object other made]

namespace Json

variable (call : Caller) (realm : RealmId) (reviver : Value)

/-! ### Visits in turn -/

/-- Calls the reviver for a node: on the holder, with the key as a string and the node. -/
def Visit.ask (visit : Visit) : Run Value :=
  call realm reviver (.object visit.holder) [.string visit.key.units, visit.value]

/-- Calls the reviver for a node and settles the result in the holder. -/
def Visit.settle (visit : Visit) : Run Value := do
  let result ← visit.ask call realm reviver
  Run.modifyObject visit.holder (·.settled visit.key result)
  return result

/-- What the visits to places of one object resulted in, under the keys. -/
def settledIn (id : ObjectId) (answered : List (Visit × Value)) : List (Key × Value) :=
  (answered.filter (·.1.holder = id)).map fun answer => (answer.1.key, answer.2)

/-- In every world that goes on from a first one a call of the reviver leaves all objects as they
are. It may make new ones, and it may return any value or fail. -/
def Harmless (start : World) : Prop :=
  ∀ before, before.Extends start → ∀ receiver arguments after,
    ((call realm reviver receiver arguments).outcome before).last? = some after →
      after.Extends before

/-- The visit is to a child in a container that parsing has made, and finds it there. -/
structure Visit.Due (start planted : World) (visit : Visit) : Prop where
  new : ¬ start.Has visit.holder
  made : planted.Has visit.holder
  orderly : (planted.object visit.holder).Orderly
  child : visit.key ∈ (planted.object visit.holder).childKeys
  held : (planted.object visit.holder).own? visit.key = some (.plain visit.value)

variable {call realm reviver} {start planted before after : World} {front : List Visit}
  {results : List Value} {visit : Visit} {id : ObjectId} {key : Key}

theorem Visit.Due.defined (due : visit.Due start planted) : visit.value ≠ .undefined := by
  obtain ⟨value, defined, held⟩ := due.orderly.held visit.key due.child
  rw [due.held] at held
  exact (Property.data.inj (Option.some.inj held)).1 ▸ defined

/-- All visits to what a container holds that parsing has made are due. -/
theorem PostOrder.due {first last depth : Nat} {tree : Tree} {keys : List Key} {visits : List Visit}
    (order : PostOrder planted id keys visits)
    (stands : Stands planted realm first last tree (.object id))
    (regular : Regular planted depth id) (children : keys ⊆ (planted.object id).childKeys)
    (new : start.nextSlot realm ≤ first) : ∀ visit ∈ visits, visit.Due start planted := by
  intro visit member
  obtain ⟨made, inRealm, low, _⟩ := order.within stands children visit member
  obtain ⟨orderly, child, held⟩ := order.held regular children visit member
  refine ⟨fun old => ?_, made, orderly, child, held⟩
  rw [World.Has, inRealm] at old
  exact absurd (Nat.le_trans new low) (Nat.not_le_of_lt old)

/-! ### What has been settled -/

theorem settledIn_concat (id : ObjectId) (answered : List (Visit × Value)) (result : Value) :
    settledIn id (answered ++ [(visit, result)]) =
      settledIn id answered ++ if visit.holder = id then [(visit.key, result)] else [] := by
  rw [settledIn, List.filter_append, List.map_append, ← settledIn, List.filter_singleton,
    cond_eq_ite]
  by_cases here : visit.holder = id
  · rw [if_pos here, if_pos (decide_eq_true here), List.map_singleton]
  · rw [if_neg here, if_neg fun same => here (of_decide_eq_true same), List.map_nil]

/-- What was settled in an object was settled in the order of the visits to its places. -/
theorem map_fst_settledIn (id : ObjectId) (counted : results.length = front.length) :
    (settledIn id (front.zip results)).map Prod.fst =
      (front.filter (·.holder = id)).map Visit.key := by
  have visits : (front.zip results).map Prod.fst = front := List.map_fst_zip counted.ge
  rw [settledIn, List.map_map]
  conv_rhs => rw [← visits, List.filter_map, List.map_map]
  rfl

theorem mem_settledIn {entry : Key × Value} {answered : List (Visit × Value)}
    (member : entry ∈ settledIn id answered) :
    ∃ visit, (visit, entry.2) ∈ answered ∧ visit.holder = id ∧ visit.key = entry.1 := by
  obtain ⟨⟨visit, result⟩, present, rfl⟩ := List.mem_map.mp member
  obtain ⟨present, here⟩ := List.mem_filter.mp present
  exact ⟨visit, present, of_decide_eq_true here, rfl⟩

/-- No key of an object has two results. -/
theorem nodup_settledIn (distinct : (front.map Visit.place).Nodup)
    (counted : results.length = front.length) :
    ((settledIn id (front.zip results)).map Prod.fst).Nodup := by
  rw [map_fst_settledIn id counted]
  refine List.Nodup.of_map (id, ·) ?_
  rw [List.map_map]
  have same : ∀ visit ∈ front.filter (·.holder = id),
      ((id, ·) ∘ Visit.key) visit = visit.place := by
    intro visit member
    have here : visit.holder = id := of_decide_eq_true (List.mem_filter.mp member).2
    rw [Visit.place, here]
    rfl
  rw [List.map_congr_left same]
  exact distinct.sublist (List.filter_sublist.map _)

/-- After some visits in turn every object is what parsing made of it, with the results of the
visits to its places settled; and what was there before parsing is as it was. -/
structure Reached (start planted : World) (front : List Visit) (results : List Value)
    (before : World) : Prop where
  extended : before.Extends start
  counted : results.length = front.length
  has : ∀ id, planted.Has id → before.Has id
  object : ∀ id, planted.Has id →
    before.object id = (planted.object id).settledAll (settledIn id (front.zip results))

/-- One visit more settles one result more. -/
theorem Reached.next (reached : Reached start planted front results before)
    (harmless : Harmless call realm reviver start) (due : visit.Due start planted) {result : Value}
    (answered : (visit.ask call realm reviver).outcome before = .done result after) :
    Reached start planted (front ++ [visit]) (results ++ [result])
      (after.modifyObject visit.holder (·.settled visit.key result)) := by
  have kept : after.Extends before :=
    harmless before reached.extended _ _ after (congrArg Outcome.last? answered)
  refine ⟨(kept.trans reached.extended).modifyObject due.new _, ?_, fun id made => ?_,
    fun id made => ?_⟩
  · rw [List.length_append, List.length_append, reached.counted]
    rfl
  · exact (World.has_modifyObject _ id).mpr (kept.has id (reached.has id made))
  · have still := kept.object id (reached.has id made)
    rw [List.zip_append reached.counted.symm, List.zip_cons_cons, List.zip_nil_right,
      settledIn_concat]
    split
    · rename_i here
      rw [here, World.object_modifyObject_self (kept.has id (reached.has id made)), still,
        reached.object id made, Object.settledAll_concat]
    · rename_i elsewhere
      rw [World.object_modifyObject_of_ne (Ne.symm elsewhere), still, reached.object id made,
        List.append_nil]

theorem outcome_settle_of_answered {result : Value}
    (answered : (visit.ask call realm reviver).outcome before = .done result after) :
    (visit.settle call realm reviver).outcome before =
      .done result (after.modifyObject visit.holder (·.settled visit.key result)) := by
  rw [Visit.settle, Run.outcome_bind_of_done answered]
  rfl

/-- So it is when further visits have been made in turn. -/
theorem Reached.traverse (reached : Reached start planted front results before)
    (harmless : Harmless call realm reviver start) {visits : List Visit}
    (due : ∀ visit ∈ visits, visit.Due start planted) {more : List Value}
    (ended : (Run.traverse visits (Visit.settle call realm reviver)).outcome before =
      .done more after) :
    Reached start planted (front ++ visits) (results ++ more) after := by
  induction visits generalizing front results before more with
  | nil =>
    cases ended
    rw [List.append_nil]
    exact (List.append_nil results).symm ▸ reached
  | cons visit visits inductionHypothesis =>
    obtain ⟨here, due⟩ := List.forall_mem_cons.mp due
    rw [Run.outcome_traverse_cons] at ended
    cases answered : (visit.ask call realm reviver).outcome before with
    | done result between =>
      rw [outcome_settle_of_answered answered, Outcome.andThen_done] at ended
      cases rest : (Run.traverse visits (Visit.settle call realm reviver)).outcome
          (between.modifyObject visit.holder (·.settled visit.key result)) with
      | done others last =>
        rw [rest] at ended
        cases ended
        have further := inductionHypothesis (reached.next harmless here answered) due rest
        rwa [List.append_assoc, List.append_assoc] at further
      | _ =>
        rw [rest] at ended
        cases ended
    | _ =>
      rw [Visit.settle, Run.outcome_bind, answered] at ended
      cases ended

theorem reached_start (extended : planted.Extends start) : Reached start planted [] [] planted :=
  ⟨extended, rfl, fun _ made => made, fun _ _ => rfl⟩

/-- What has become of an object. -/
theorem Reached.revived (reached : Reached start planted front results before)
    (due : ∀ visit ∈ front, visit.Due start planted) (distinct : (front.map Visit.place).Nodup)
    (made : planted.Has id) :
    Object.Revived (settledIn id (front.zip results)) (planted.object id) (before.object id) := by
  rw [reached.object id made]
  refine Object.revived_settledAll (nodup_settledIn distinct reached.counted) fun entry member => ?_
  obtain ⟨visit, present, rfl, same⟩ := mem_settledIn member
  rw [← same, (due visit (List.of_mem_zip present).1).held]
  rfl

/-! ### One node at its turn -/

/-- The node stands where it stood, and it may be replaced. -/
structure Visit.Ready (world : World) (visit : Visit) : Prop where
  held : (world.object visit.holder).own? visit.key = some (.plain visit.value)
  receptive : (world.object visit.holder).Receptive
  child : (world.object visit.holder).isArray = true →
    visit.key ∈ (world.object visit.holder).childKeys

/-- At its turn every node is ready, since nothing was settled in its place before. -/
theorem Reached.ready (reached : Reached start planted front results before)
    (dueFront : ∀ visit ∈ front, visit.Due start planted) (due : visit.Due start planted)
    (distinct : ((front ++ [visit]).map Visit.place).Nodup) : visit.Ready before := by
  rw [List.map_append, List.map_singleton] at distinct
  obtain ⟨distinctFront, _, apart⟩ := List.nodup_append.mp distinct
  have revived := reached.revived dueFront distinctFront due.made
  have settledKeys {key : Key}
      (member : key ∈ (settledIn visit.holder (front.zip results)).map Prod.fst) :
      ∃ other ∈ front, other.holder = visit.holder ∧ other.key = key := by
    obtain ⟨entry, present, rfl⟩ := List.mem_map.mp member
    obtain ⟨other, answered, here, same⟩ := mem_settledIn present
    exact ⟨other, (List.of_mem_zip answered).1, here, same⟩
  have unsettled : visit.key ∉ (settledIn visit.holder (front.zip results)).map Prod.fst := by
    intro member
    obtain ⟨other, present, here, same⟩ := settledKeys member
    refine apart other.place (List.mem_map_of_mem present) visit.place
      (List.mem_singleton_self _) ?_
    rw [Visit.place, here, same]
    rfl
  have noLength (array : (planted.object visit.holder).isArray = true) :
      Key.length ∉ (settledIn visit.holder (front.zip results)).map Prod.fst := by
    intro member
    obtain ⟨other, present, here, same⟩ := settledKeys member
    have child := (dueFront other present).child
    rw [here, same] at child
    exact Object.ne_length_of_mem_childKeys array child rfl
  refine ⟨?_, revived.receptive due.orderly.receptive noLength, fun array => ?_⟩
  · rw [revived.own_of_not_mem unsettled, due.held]
  · rw [revived.isArray_eq] at array
    rw [revived.childKeys_eq array (noLength array)]
    exact due.child

theorem Visit.Ready.of_object (ready : visit.Ready before)
    (same : after.object visit.holder = before.object visit.holder) : visit.Ready after := by
  refine ⟨?_, ?_, ?_⟩ <;> rw [same]
  · exact ready.held
  · exact ready.receptive
  · exact ready.child

/-- Replacing a child that is ready settles the result. -/
theorem outcome_replaceChild (ready : visit.Ready before) (result : Value) :
    (replaceChild call realm visit.holder visit.key result).outcome before =
      .done () (before.modifyObject visit.holder (·.settled visit.key result)) := by
  rw [replaceChild]
  split
  · rename_i deleted
    have allowed : (before.object visit.holder).deleted? visit.key =
        some ((before.object visit.holder).settled visit.key result) := by
      rw [Object.deleted?, ready.held, Object.settled, if_pos deleted]
      rfl
    rw [delete, Run.outcome_bind_of_done (outcome_changeObject allowed)]
    exact congrArg (Outcome.done ()) (World.modifyObject_congr rfl)
  · rename_i replaced
    have noLength (array : (before.object visit.holder).isArray = true) :=
      Object.ne_length_of_mem_childKeys array (ready.child array)
    rw [Run.outcome_bind_of_done (outcome_create call realm ready.receptive noLength result)]
    refine congrArg (Outcome.done ()) (World.modifyObject_congr ?_)
    rw [Object.created_of_child ready.child, Object.settled, if_neg replaced]

/-! ### The walk -/

variable (call realm reviver) in
/-- Revives what an object holds under a key and replaces it. -/
def reviveChild (depth : Nat) (id : ObjectId) (key : Key) : Run Unit := do
  replaceChild call realm id key (← revive call realm reviver depth id key)

variable (call realm reviver) in
/-- A node that is no container is only handed to the reviver. -/
theorem outcome_revive_leaf (ready : visit.Ready before) (leaf : visit.value.object? = none)
    (depth : Nat) :
    (revive call realm reviver (depth + 1) visit.holder visit.key).outcome before =
      (visit.ask call realm reviver).outcome before := by
  rw [revive, Run.outcome_bind_of_done (outcome_get call realm (shown?_of_own? ready.held))]
  obtain ⟨holder, key, value⟩ := visit
  cases value with
  | object => cases leaf
  | _ => rfl

variable (call realm reviver) in
/-- The children of a container are revived in order, and then it is handed to the reviver. -/
theorem outcome_revive_node (ready : visit.Ready before) (node : visit.value = .object id)
    (orderly : (before.object id).Orderly) (depth : Nat) :
    (revive call realm reviver (depth + 1) visit.holder visit.key).outcome before =
      ((Run.traverse (before.object id).childKeys
        (reviveChild call realm reviver depth id)).outcome before).andThen fun _ after =>
          (visit.ask call realm reviver).outcome after := by
  obtain ⟨holder, key, value⟩ := visit
  cases node
  rw [revive, Run.outcome_bind_of_done (outcome_get call realm (shown?_of_own? ready.held))]
  dsimp only
  cases array : (before.object id).isArray with
  | true =>
    obtain ⟨length, bound, slot⟩ := orderly.length array
    have counted : (lengthOf call realm id).outcome before =
        .done (before.object id).arrayLength before := by
      rw [outcome_lengthOf call realm (shown?_of_own? slot), Object.arrayLength_of_slot bound slot,
        Number.toLength_ofNat bound]
    have yes : (Run.isArray (.object id)).outcome before = .done true before :=
      congrArg (Outcome.done · before) array
    rw [Object.childKeys_of_array array, Run.traverse_map, ← Run.collect_eq_traverse,
      Run.outcome_bind_of_done yes, if_pos rfl, Run.outcome_bind_of_done counted, Run.outcome_bind]
    rfl
  | false =>
    have no : (Run.isArray (.object id)).outcome before = .done false before :=
      congrArg (Outcome.done · before) array
    rw [Object.childKeys_of_noArray array, Run.outcome_bind_of_done no,
      if_neg Bool.false_ne_true, Run.outcome_bind_of_done (Run.outcome_object id before),
      Run.outcome_bind]
    rfl

/-- The turn of a node ends with the call of the reviver, and its result is settled. -/
theorem unvalued_turn (reached : Reached start planted front results before)
    (harmless : Harmless call realm reviver start) (due : visit.Due start planted)
    (ready : visit.Ready before) {others : List Visit} {rest : World → Outcome Unit}
    (goesOn : ∀ result after,
      Reached start planted (front ++ [visit]) (results ++ [result]) after →
        rest after =
          ((Run.traverse others (Visit.settle call realm reviver)).outcome after).unvalued) :
    (((visit.ask call realm reviver).outcome before).andThen fun result after =>
      ((replaceChild call realm visit.holder visit.key result).outcome after).andThen
        fun _ last => rest last) =
      ((Run.traverse (visit :: others) (Visit.settle call realm reviver)).outcome
        before).unvalued := by
  rw [Run.unvalued_traverse_cons]
  cases answered : (visit.ask call realm reviver).outcome before with
  | done result after =>
    have kept : after.Extends before :=
      harmless before reached.extended _ _ after (congrArg Outcome.last? answered)
    have readyStill := ready.of_object (kept.object _ (reached.has _ due.made))
    rw [outcome_settle_of_answered answered, Outcome.andThen_done, Outcome.andThen_done,
      outcome_replaceChild readyStill, Outcome.andThen_done]
    exact goesOn result _ (reached.next harmless due answered)
  | _ =>
    rw [Visit.settle, Run.outcome_bind, answered]
    rfl

/-- A container that has not been visited is as parsing left it. -/
theorem Reached.object_of_unvisited (reached : Reached start planted front results before)
    (due : ∀ visit ∈ front, visit.Due start planted) (made : planted.Has id)
    {below : List Visit} (order : PostOrder planted id (planted.object id).childKeys below)
    (distinct : ((front ++ below).map Visit.place).Nodup) :
    before.object id = planted.object id := by
  have nothing : settledIn id (front.zip results) = [] := by
    refine List.eq_nil_iff_forall_not_mem.mpr fun entry member => ?_
    obtain ⟨visit, answered, rfl, _⟩ := mem_settledIn member
    have present := (List.of_mem_zip answered).1
    rw [List.map_append] at distinct
    exact (List.nodup_append.mp distinct).2.2 visit.place (List.mem_map_of_mem present) visit.place
      (order.mem_places (due visit present).child) rfl
  rw [reached.object id made, nothing]
  rfl

/-- The loop over the children of a container ends as the visits in turn do. -/
theorem unvalued_traverse_revive (harmless : Harmless call realm reviver start)
    {keys : List Key} {visits : List Visit} (order : PostOrder planted id keys visits) {depth : Nat}
    (nested : ∀ key ∈ keys, ∀ child,
      (planted.object id).own? key = some (.plain (.object child)) → Regular planted depth child)
    (reached : Reached start planted front results before)
    (due : ∀ visit ∈ front ++ visits, visit.Due start planted)
    (distinct : ((front ++ visits).map Visit.place).Nodup) :
    ((Run.traverse keys (reviveChild call realm reviver (depth + 1) id)).outcome
        before).unvalued =
      ((Run.traverse visits (Visit.settle call realm reviver)).outcome before).unvalued := by
  induction order generalizing depth front results before with
  | nil => rfl
  | @leaf holder key keys value others held leaf rest inductionHypothesis =>
    obtain ⟨_, nested⟩ := List.forall_mem_cons.mp nested
    rw [← List.singleton_append, ← List.append_assoc] at due distinct
    obtain ⟨dueSoFar, _⟩ := List.forall_mem_append.mp due
    obtain ⟨dueFront, here⟩ := List.forall_mem_append.mp dueSoFar
    have here := here _ (List.mem_singleton_self _)
    have ready := reached.ready dueFront here
      (distinct.sublist ((List.sublist_append_left _ others).map _))
    have revives := outcome_revive_leaf call realm reviver ready leaf depth
    dsimp only at revives
    rw [Run.unvalued_traverse_cons, reviveChild, Run.outcome_bind, revives, Outcome.andThen_assoc]
    exact unvalued_turn reached harmless here ready fun result after further =>
      inductionHypothesis nested further due distinct
  | @node holder inner key keys below others held children rest belowHypothesis restHypothesis =>
    obtain ⟨nestedHere, nested⟩ := List.forall_mem_cons.mp nested
    rw [← List.append_assoc, ← List.singleton_append, ← List.append_assoc] at due distinct
    obtain ⟨dueSoFar, _⟩ := List.forall_mem_append.mp due
    obtain ⟨dueBefore, here⟩ := List.forall_mem_append.mp dueSoFar
    obtain ⟨dueFront, dueBelow⟩ := List.forall_mem_append.mp dueBefore
    have here := here _ (List.mem_singleton_self _)
    have distinctSoFar := distinct.sublist ((List.sublist_append_left _ others).map _)
    have distinctBefore := distinctSoFar.sublist ((List.sublist_append_left _ [_]).map _)
    have ready := reached.ready dueFront here (distinctSoFar.sublist
      ((List.Sublist.append (List.sublist_append_left front below) (List.Sublist.refl _)).map _))
    cases nestedHere inner held with
    | @node depth _ made orderly deeper =>
      have unvisited := reached.object_of_unvisited dueFront made children distinctBefore
      have revives := outcome_revive_node call realm reviver ready rfl (unvisited ▸ orderly)
        (depth + 1)
      rw [unvisited] at revives
      have loop := belowHypothesis deeper reached dueBefore distinctBefore
      dsimp only at revives
      rw [Run.unvalued_traverse_cons, reviveChild, Run.outcome_bind, revives,
        Outcome.andThen_assoc, Outcome.andThen_assoc, Outcome.andThen_const, loop,
        ← Outcome.andThen_const, Run.unvalued_traverse_append]
      cases begun : (Run.traverse below (Visit.settle call realm reviver)).outcome before with
      | done more middle =>
        have further := reached.traverse harmless dueBelow begun
        rw [Outcome.andThen_done, Outcome.andThen_done]
        exact unvalued_turn further harmless here (further.ready dueBefore here distinctSoFar)
          fun result after later => restHypothesis nested later due distinct
      | _ => rfl

/-! ### Whole values -/

/-- What the reviver finds at the turn of a visit, after the visits before it with their results:
the node is where parsing put it; every object is as parsing made it but for the results of the
visits to its places; if the node is a container, then these are all its children in order; and if
the reviver fails, this is the end. -/
structure Visit.AtTurn (call : Caller) (realm : RealmId) (reviver : Value) (planted : World)
    (answer : Outcome Value) (front : List Visit) (results : List Value) (before : World)
    (visit : Visit) : Prop where
  found : (before.object visit.holder).own? visit.key = some (.plain visit.value)
  counted : results.length = front.length
  settled : ∀ id, planted.Has id → before.Has id ∧
    Object.Revived (settledIn id (front.zip results)) (planted.object id) (before.object id)
  children : ∀ id, visit.value = .object id →
    (settledIn id (front.zip results)).map Prod.fst = (planted.object id).childKeys
  stops : ∀ error after, (visit.ask call realm reviver).outcome before = .threw error after →
    answer = .threw error after

variable (call realm reviver) in
/-- Visits in turn, each settled but the last, whose result is that of the whole. -/
def inTurn (visits : List Visit) (last : Visit) : Run Value := do
  let _ ← Run.traverse visits (Visit.settle call realm reviver)
  last.ask call realm reviver

/-- A failing visit ends the whole. -/
theorem inTurn_threw {visits back : List Visit} {last : Visit}
    (split : visits ++ [last] = front ++ visit :: back)
    (ended : (Run.traverse front (Visit.settle call realm reviver)).outcome planted =
      .done results before) {error : Error}
    (failed : (visit.ask call realm reviver).outcome before = .threw error after) :
    (inTurn call realm reviver visits last).outcome planted = .threw error after := by
  rw [inTurn, Run.outcome_bind]
  rcases List.eq_nil_or_concat back with rfl | ⟨back, final, rfl⟩
  · obtain ⟨rfl, same⟩ := List.append_inj' split rfl
    cases same
    rw [ended]
    exact failed
  · rw [List.concat_eq_append, ← List.cons_append, ← List.append_assoc] at split
    obtain ⟨rfl, _⟩ := List.append_inj' split rfl
    have stopped : (Run.traverse (visit :: back) (Visit.settle call realm reviver)).outcome
        before = .threw error after := by
      rw [Run.outcome_traverse_cons, Visit.settle, Run.outcome_bind, failed]
      rfl
    rw [Run.outcome_traverse_append, ended, Outcome.andThen_done, stopped]
    rfl

/-- If the reviver returns every node as it is, then nothing changes. -/
theorem exists_done_of_identity (harmless : Harmless call realm reviver start)
    (identity : ∀ before, before.Extends start → ∀ receiver key node, ∃ after,
      (call realm reviver receiver [key, node]).outcome before = .done node after)
    {visits : List Visit} (reached : Reached start planted front results before)
    (due : ∀ visit ∈ visits, visit.Due start planted) :
    ∃ after, (Run.traverse visits (Visit.settle call realm reviver)).outcome before =
      .done (visits.map Visit.value) after := by
  induction visits generalizing front results before with
  | nil => exact ⟨before, rfl⟩
  | cons visit visits inductionHypothesis =>
    obtain ⟨here, due⟩ := List.forall_mem_cons.mp due
    obtain ⟨between, answered⟩ := identity before reached.extended (.object visit.holder)
      (.string visit.key.units) visit.value
    obtain ⟨after, ended⟩ := inductionHypothesis (reached.next harmless here answered) due
    refine ⟨after, ?_⟩
    rw [Run.outcome_traverse_cons, outcome_settle_of_answered answered, Outcome.andThen_done, ended]
    rfl

/-- The walk over a whole value, under the empty key of a new holder, goes as the visits in turn. -/
theorem outcome_revive_root (harmless : Harmless call realm reviver start)
    (extended : planted.Extends start) {root : ObjectId} {visits : List Visit} {depth : Nat}
    (order : PostOrder planted root [.text ""] visits) (regular : Regular planted (depth + 1) root)
    (only : (planted.object root).childKeys = [.text ""])
    (due : ∀ visit ∈ visits, visit.Due start planted)
    (distinct : (visits.map Visit.place).Nodup) :
    ∃ front last, visits = front ++ [last] ∧ last.place = (root, .text "") ∧
      (revive call realm reviver (depth + 1) root (.text "")).outcome planted =
        (inTurn call realm reviver front last).outcome planted := by
  have beginning : Reached start planted [] [] planted := reached_start extended
  cases order with
  | @leaf _ _ _ value _ held leaf rest =>
    cases rest
    refine ⟨[], ⟨root, .text "", value⟩, rfl, rfl, ?_⟩
    have ready := beginning.ready (List.forall_mem_nil _) (due _ (List.mem_singleton_self _))
      distinct
    exact outcome_revive_leaf call realm reviver ready leaf depth
  | @node _ id _ _ below _ held children rest =>
    cases rest
    refine ⟨below, ⟨root, .text "", .object id⟩, rfl, rfl, ?_⟩
    obtain ⟨dueBelow, here⟩ := List.forall_mem_append.mp due
    have distinctBelow := distinct.sublist ((List.sublist_append_left below _).map _)
    have ready := beginning.ready (List.forall_mem_nil _) (here _ (List.mem_singleton_self _))
      (List.nodup_singleton _)
    cases regular with
    | node _ _ inside =>
      cases inside (.text "") (only ▸ List.mem_singleton_self _) id held with
      | @node depth _ made orderly deeper =>
        have revives := outcome_revive_node call realm reviver ready rfl orderly (depth + 1)
        rw [inTurn, Run.outcome_bind, Outcome.andThen_const, revives, Outcome.andThen_const,
          unvalued_traverse_revive harmless children deeper beginning dueBelow distinctBelow]

theorem childKeys_root (realm : RealmId) (value : Value) :
    ((Object.plain realm).created (.text "") value).childKeys = [.text ""] := by
  have shape := Object.isRecordOf_createdAll realm [(Key.text "", value)]
  have ordered : Key.InOrder ([(Key.text "", value)].map Prod.fst) := List.pairwise_singleton _ _
  have noArray : ((Object.plain realm).created (.text "") value).isArray = false :=
    Object.isArray_createdAll_plain realm [(.text "", value)]
  rw [Object.childKeys_of_noArray noArray]
  exact shape.enumerableKeys_eq.trans (shape.ownKeys_eq ordered)

/-- What an accepted text says stands in new places, and nests only as deep as a text may. -/
theorem exists_stands_of_accepted {world parsed : World} {text : Units} {value : Value}
    (made : world.HasRealm realm)
    (accepted : (readValue call realm text).outcome world = .done value parsed) :
    parsed.Extends world ∧ ∃ tree : Tree, tree.depth ≤ maxDepth ∧
      ∀ later : World, later.Extends parsed →
        Stands later realm (world.nextSlot realm) (parsed.nextSlot realm) tree value := by
  cases spelled : parse text with
  | error fault =>
    rw [readValue, spelled] at accepted
    cases accepted
  | ok tree =>
    rw [outcome_readValue_of_ok call made spelled] at accepted
    cases accepted
    refine ⟨World.extends_addAll world realm _, tree, (parse_ok_iff.mp spelled).2,
      fun later extended => ?_⟩
    rw [World.nextSlot_addAll made]
    exact tree.stands_planted ((World.row_addAll made _).extend extended)

/-- The value under the empty key of the new holder stands as a tree with one member. -/
theorem stands_root {parsed : World} (made : parsed.HasRealm realm) {first : Nat} {tree : Tree}
    {value : Value}
    (stands : Stands (parsed.add realm ((Object.plain realm).created (.text "") value)) realm first
      (parsed.nextSlot realm) tree value) :
    Stands (parsed.add realm ((Object.plain realm).created (.text "") value)) realm first
      (parsed.nextSlot realm + 1) (.object [([], tree)]) (.object (parsed.nextId realm)) := by
  have names : [(Key.text "", value)].map Prod.fst =
      [(([] : Units), tree)].map fun member => Key.ofUnits member.1 :=
    congrArg (fun key => [key]) (Key.ofUnits_units (.text "")).symm
  exact .object names (.cons stands stands.forward (.nil _)) (World.has_add_nextId made _)
    (World.object_add_nextId made _)

/-- Objects in which every node was settled as it is are as they were. -/
theorem Reached.object_of_identity {visits : List Visit}
    (reached : Reached start planted visits (visits.map Visit.value) before)
    (due : ∀ visit ∈ visits, visit.Due start planted) (made : planted.Has id) :
    before.object id = planted.object id := by
  have same : ∀ entry ∈ settledIn id (visits.zip (visits.map Visit.value)),
      ∃ visit ∈ visits, visit.holder = id ∧ (visit.key, visit.value) = entry := by
    intro entry member
    obtain ⟨visit, answered, here, key⟩ := mem_settledIn member
    rw [← List.map_prod_left_eq_zip] at answered
    obtain ⟨other, present, equal⟩ := List.mem_map.mp answered
    obtain ⟨rfl, node⟩ := Prod.mk.inj equal
    exact ⟨other, present, here, Prod.ext key node⟩
  rw [reached.object id made, Object.settledAll_of_own?]
  · intro entry member
    obtain ⟨visit, present, rfl, rfl⟩ := same entry member
    exact (due visit present).held
  · intro entry member
    obtain ⟨visit, present, _, rfl⟩ := same entry member
    exact (due visit present).defined

theorem exists_done_of_inTurn_identity (harmless : Harmless call realm reviver start)
    (identity : ∀ before, before.Extends start → ∀ receiver key node, ∃ after,
      (call realm reviver receiver [key, node]).outcome before = .done node after)
    (extended : planted.Extends start) {visits : List Visit}
    (due : ∀ visit ∈ visits, visit.Due start planted) (last : Visit) :
    ∃ after, (inTurn call realm reviver visits last).outcome planted = .done last.value after ∧
      ∀ id, planted.Has id → after.Has id ∧ after.object id = planted.object id := by
  obtain ⟨between, ended⟩ := exists_done_of_identity harmless identity (reached_start extended) due
  have reached := (reached_start extended).traverse harmless due ended
  rw [List.nil_append, List.nil_append] at reached
  obtain ⟨after, answered⟩ := identity between reached.extended (.object last.holder)
    (.string last.key.units) last.value
  have kept := harmless between reached.extended _ _ after (congrArg Outcome.last? answered)
  refine ⟨after, ?_, fun id made => ⟨kept.has id (reached.has id made), ?_⟩⟩
  · rw [inTurn, Run.outcome_bind_of_done ended]
    exact answered
  · rw [kept.object id (reached.has id made), reached.object_of_identity due made]

/-- The children of a node that has been reached are all settled, in their order. -/
theorem Reached.children (reached : Reached start planted front results before)
    (due : ∀ visit ∈ front, visit.Due start planted) (distinct : (front.map Visit.place).Nodup)
    {earlier below : List Visit} (split : front = earlier ++ below)
    (order : PostOrder planted id (planted.object id).childKeys below)
    (own : (below.filter (·.holder = id)).map Visit.key = (planted.object id).childKeys) :
    (settledIn id (front.zip results)).map Prod.fst = (planted.object id).childKeys := by
  have nothing : earlier.filter (·.holder = id) = [] := by
    refine List.filter_eq_nil_iff.mpr fun visit present here => ?_
    have child := (due visit (split ▸ List.mem_append_left _ present)).child
    rw [of_decide_eq_true here] at child
    rw [split, List.map_append] at distinct
    refine (List.nodup_append.mp distinct).2.2 visit.place (List.mem_map_of_mem present) visit.place
      ?_ rfl
    rw [Visit.place, of_decide_eq_true here]
    exact order.mem_places child
  rw [map_fst_settledIn id reached.counted, split, List.filter_append, nothing, List.nil_append,
    own]

/-- At its turn a visit finds all as it should be. -/
theorem Reached.atTurn (reached : Reached start planted front results before)
    {root : ObjectId} {keys : List Key} {back : List Visit}
    (order : PostOrder planted root keys (front ++ visit :: back)) {first last : Nat} {tree : Tree}
    (stands : Stands planted realm first last tree (.object root))
    (children : keys ⊆ (planted.object root).childKeys)
    (due : ∀ other ∈ front ++ visit :: back, other.Due start planted)
    (distinct : ((front ++ visit :: back).map Visit.place).Nodup) {answer : Outcome Value}
    (stops : ∀ error after, (visit.ask call realm reviver).outcome before = .threw error after →
      answer = .threw error after) :
    visit.AtTurn call realm reviver planted answer front results before := by
  obtain ⟨dueFront, dueRest⟩ := List.forall_mem_append.mp due
  have here := dueRest visit List.mem_cons_self
  have distinctFront := distinct.sublist ((List.sublist_append_left front _).map _)
  have single : [visit].Sublist (visit :: back) := List.singleton_sublist.mpr List.mem_cons_self
  have ready := reached.ready dueFront here
    (distinct.sublist ((single.append_left front).map Visit.place))
  refine ⟨ready.held, reached.counted, fun id made => ?_, fun id node => ?_, stops⟩
  · exact ⟨reached.has id made, reached.revived dueFront distinctFront made⟩
  · obtain ⟨earlier, below, parts, inside, own⟩ := order.of_node stands children rfl node
    exact reached.children dueFront distinctFront parts inside own

/-- Parsing with a reviver goes on with the parsed value under the empty key of a new holder. -/
theorem outcome_jsonParse_of_accepted {world parsed : World} {text : Units} {value : Value}
    (receiver : Value) (depth : Nat) (extended : parsed.Extends world)
    (accepted : (readValue call realm text).outcome world = .done value parsed)
    (callable : world.isCallable reviver = true) :
    (Builtin.jsonParse.run call depth realm receiver [.string text, reviver]).outcome world =
      (revive call realm reviver depth (parsed.nextId realm) (.text "")).outcome
        (parsed.add realm ((Object.plain realm).created (.text "") value)) := by
  have given : (toUnits call realm (.string text)).outcome world = .done text world := rfl
  have asked : (Run.isCallable reviver).outcome parsed = .done true parsed :=
    congrArg (Outcome.done · parsed) (extended.isCallable callable)
  change (parseWith call _ realm (.string text) reviver).outcome world = _
  rw [parseWith, Run.outcome_bind_of_done given, Run.outcome_bind_of_done accepted,
    Run.outcome_bind_of_done asked, if_pos rfl, reviveRoot,
    Run.outcome_bind_of_done (outcome_objectOf call realm _ parsed)]
  rfl

/-- Parsing an accepted text with a reviver that changes no object calls the reviver for every node
of the parsed value, once each and in post-order, the whole value last under the empty key; each
call is on the holder of the node, with the key as a string and the node. Each result but the last
is settled in the holder, the last is the result of the whole, and a failing call is the end. At
its turn a node is where parsing put it, with the results for its children settled in it. If every
node is returned as it is, then so is the parsed value, and nothing has changed. -/
theorem jsonParse_revives (call : Caller) {realm : RealmId} {world parsed : World} {text : Units}
    {value reviver : Value} (receiver : Value) {depth : Nat} (made : world.HasRealm realm)
    (accepted : (readValue call realm text).outcome world = .done value parsed)
    (callable : world.isCallable reviver = true) (room : maxDepth < depth)
    (harmless : Harmless call realm reviver world) :
    let root := parsed.nextId realm
    let planted := parsed.add realm ((Object.plain realm).created (.text "") value)
    let last : Visit := ⟨root, .text "", value⟩
    let answer :=
      (Builtin.jsonParse.run call depth realm receiver [.string text, reviver]).outcome world
    ∃ visits : List Visit, PostOrder planted root [.text ""] (visits ++ [last]) ∧
      ((visits ++ [last]).map Visit.place).Nodup ∧
      answer = (inTurn call realm reviver visits last).outcome planted ∧
      (∀ front visit back, visits ++ [last] = front ++ visit :: back → ∀ results before,
        (Run.traverse front (Visit.settle call realm reviver)).outcome planted =
            .done results before →
          visit.AtTurn call realm reviver planted answer front results before) ∧
      ((∀ before, before.Extends world → ∀ receiver key node, ∃ after,
          (call realm reviver receiver [key, node]).outcome before = .done node after) →
        ∃ after, answer = .done value after ∧
          ∀ id, parsed.Has id → after.Has id ∧ after.object id = parsed.object id) := by
  intro root planted last answer
  obtain ⟨extended, tree, shallow, standing⟩ := exists_stands_of_accepted made accepted
  have madeStill := extended.hasRealm realm made
  have grown : planted.Extends parsed := World.extends_add parsed realm _
  have fromStart : planted.Extends world := grown.trans extended
  have stands := stands_root madeStill (standing planted grown)
  have only : (planted.object root).childKeys = [.text ""] :=
    (congrArg Object.childKeys (World.object_add_nextId madeStill _)).trans
      (childKeys_root realm value)
  obtain ⟨depth, rfl⟩ := Nat.exists_eq_add_of_lt room
  have regular : Regular planted (maxDepth + depth + 1) root := by
    refine stands.regular ?_
    rw [Tree.depth, membersDepth, membersDepth, Nat.max_zero]
    omega
  obtain ⟨visits, order⟩ := regular.exists_postOrder
  have distinct := order.nodup stands (List.Subset.refl _) (Object.nodup_childKeys _)
  have due := order.due stands regular (List.Subset.refl _) (Nat.le_refl (world.nextSlot realm))
  rw [only] at order
  obtain ⟨front, final, rfl, place, walk⟩ := outcome_revive_root harmless fromStart order
    regular only due distinct
  have same : final = last := by
    obtain ⟨holder, key, node⟩ := final
    obtain ⟨rfl, rfl⟩ : holder = root ∧ key = .text "" := Prod.mk.inj place
    have slot := (due _ (List.mem_append_right _ (List.mem_singleton_self _))).held
    have own : (planted.object root).own? (.text "") = some (.plain value) := by
      rw [World.object_add_nextId madeStill, Object.own?_created _ value (by decide), if_pos rfl]
    rw [own] at slot
    exact congrArg (Visit.mk root (.text "")) (Property.data.inj (Option.some.inj slot)).1.symm
  rw [same] at order distinct due walk
  have course : answer = (inTurn call realm reviver front last).outcome planted :=
    (outcome_jsonParse_of_accepted receiver _ extended accepted callable).trans walk
  refine ⟨front, order, distinct, course, ?_, ?_⟩
  · intro before visit back split results now ended
    rw [split] at order distinct due
    have reached := (reached_start fromStart).traverse harmless
      (List.forall_mem_append.mp due).1 ended
    rw [List.nil_append, List.nil_append] at reached
    exact reached.atTurn order stands (only ▸ List.Subset.refl _) due distinct
      fun error after failed => course.trans (inTurn_threw split ended failed)
  · intro identity
    obtain ⟨after, ended, kept⟩ := exists_done_of_inTurn_identity harmless identity fromStart
      (List.forall_mem_append.mp due).1 last
    refine ⟨after, course.trans ended, fun id present => ?_⟩
    obtain ⟨has, object⟩ := kept id (grown.has id present)
    exact ⟨has, object.trans (grown.object id present)⟩

/-- A reviver that drops booleans and keeps all other nodes. -/
def dropping : Body := fun invocation =>
  .finish (match argumentAt invocation.arguments 1 with
    | .boolean _ => .undefined
    | node => node)

/-- A world with the reviver. -/
def droppingWorld : World :=
  (World.fresh 1).add 0 (.ofCallable 0 "dropping" 2 (.host dropping))

/-- An array of a literal and an object with one member. -/
def nestedTree : Tree := .array [.boolean true, .object [(unitsOf "a", .null)]]

theorem harmless_dropping : Harmless (callWithin 1) 0 (.object ⟨0, 20⟩) droppingWorld := by
  intro before extended receiver arguments after ended
  have found : (before.object ⟨0, 20⟩).callable = some ⟨"dropping", .host dropping⟩ := by
    rw [extended.object ⟨0, 20⟩ (by decide +kernel)]
    rfl
  rw [outcome_callWithin 0 0 receiver arguments found] at ended
  cases ended
  exact ⟨fun _ made => made, fun _ made => made, fun _ _ => rfl⟩

/-- The world with the parsed value and the holder of the whole. -/
def nestedWorld : World :=
  (droppingWorld.addAll 0 (nestedTree.planted 0 (droppingWorld.nextSlot 0)).2).add 0
    ((Object.plain 0).created (.text "") (.object ⟨0, 22⟩))

theorem jsonParse_revives_nested :
    ∃ visits last, visits ++ [last] = [⟨⟨0, 22⟩, .ofIndex 0, .boolean true⟩,
        ⟨⟨0, 21⟩, .text "a", .null⟩, ⟨⟨0, 22⟩, .ofIndex 1, .object ⟨0, 21⟩⟩,
        ⟨⟨0, 23⟩, .text "", .object ⟨0, 22⟩⟩] ∧
      (Builtin.jsonParse.run (callWithin 1) 513 0 .undefined
          [.string nestedTree.compact, .object ⟨0, 20⟩]).outcome droppingWorld =
        (inTurn (callWithin 1) 0 (.object ⟨0, 20⟩) visits last).outcome nestedWorld := by
  have made : droppingWorld.HasRealm 0 := Nat.one_pos
  have tidy : nestedTree.Tidy := by
    have wellFormed : WellFormed (unitsOf "a") := by decide
    simp [nestedTree, Tree.Tidy, ElementsTidy, MembersTidy, Key.InOrder, wellFormed]
  have parsed : parse nestedTree.compact = .ok nestedTree :=
    parse_ok_iff.mpr ⟨tidy.document_compact, by decide +kernel⟩
  obtain ⟨visits, order, _, course, _⟩ := jsonParse_revives (callWithin 1) .undefined made
    (outcome_readValue_of_ok (callWithin 1) made parsed) (by decide +kernel)
    (Nat.lt_succ_self maxDepth) harmless_dropping
  have inner : (nestedWorld.object ⟨0, 21⟩).childKeys = [.text "a"] := by decide +kernel
  have outer : (nestedWorld.object ⟨0, 22⟩).childKeys = [.ofIndex 0, .ofIndex 1] := by
    decide +kernel
  have object : PostOrder nestedWorld ⟨0, 21⟩ [.text "a"] [⟨⟨0, 21⟩, .text "a", .null⟩] :=
    .leaf (by decide +kernel) rfl (.nil _)
  have element : (nestedWorld.object ⟨0, 22⟩).own? (.ofIndex 1) =
      some (.plain (.object ⟨0, 21⟩)) := by decide +kernel
  have array : PostOrder nestedWorld ⟨0, 22⟩ [.ofIndex 0, .ofIndex 1]
      [⟨⟨0, 22⟩, .ofIndex 0, .boolean true⟩, ⟨⟨0, 21⟩, .text "a", .null⟩,
        ⟨⟨0, 22⟩, .ofIndex 1, .object ⟨0, 21⟩⟩] :=
    .leaf (by decide +kernel) rfl (.node element (inner ▸ object) (.nil _))
  have root : (nestedWorld.object ⟨0, 23⟩).own? (.text "") =
      some (.plain (.object ⟨0, 22⟩)) := by decide +kernel
  have whole : PostOrder nestedWorld ⟨0, 23⟩ [.text ""] _ := .node root (outer ▸ array) (.nil _)
  exact ⟨visits, _, order.unique whole, course⟩

end Json

end EcmaCore
