/-
This file is about joining arrays that may hold one another in any way, themselves included.
Where nothing but data is read and every object is converted to a string by the function
that its realm was made with, the joined text is given by a recursion: an array that is
among those whose join is running shows as nothing, and any other shows as its own join, in
which it is among them. What was joined before makes no difference, so an array that occurs
twice shows twice.

The recursion ends because the arrays whose join is running are different objects of the
world. Each of them costs one level of calls; so with as many levels as there are objects
every join has an answer, and it leaves nothing behind but the calls in the log.
-/

import EcmaCore.Proofs.Json.Nesting

namespace EcmaCore

variable {α β : Type}

/-! ### What elements show as -/

/-- The text of a value as an element, while the joins of some arrays are running. -/
inductive World.ElementText (world : World) : List ObjectId → Value → Units → Prop
  | undefined (running : List ObjectId) : ElementText world running .undefined []
  | null (running : List ObjectId) : ElementText world running .null []
  | primitive {value : Value} (running : List ObjectId) (defined : value ≠ .undefined)
      (notNull : value ≠ .null) (noObject : value.object? = none) :
      ElementText world running value value.primitiveUnits
  | object {id : ObjectId} (running : List ObjectId)
      (noArray : (world.object id).isArray = false) :
      ElementText world running (.object id)
        (unitsOf ("[object " ++ (world.object id).kind.tag ++ "]"))
  | again {running : List ObjectId} {id : ObjectId} (array : (world.object id).isArray = true)
      (joining : id ∈ running) : ElementText world running (.object id) []
  | array {running : List ObjectId} {id : ObjectId} {elements : Nat → Value}
      {texts : Nat → Units} (array : (world.object id).isArray = true) (new : id ∉ running)
      (shown : ∀ index < (world.object id).arrayLength,
        world.shown? id (.ofIndex index) = some (elements index))
      (each : ∀ index < (world.object id).arrayLength,
        ElementText world (id :: running) (elements index) (texts index)) :
      ElementText world running (.object id) ((unitsOf ",").intercalate
        ((List.range (world.object id).arrayLength).map texts))

/-- An element has one text only. -/
theorem World.ElementText.unique {world : World} {running : List ObjectId} {value : Value}
    {text other : Units} (elementText : world.ElementText running value text)
    (elementOther : world.ElementText running value other) : text = other := by
  induction elementText generalizing other with
  | undefined =>
    cases elementOther with
    | undefined => rfl
    | primitive _ defined => exact absurd rfl defined
  | null =>
    cases elementOther with
    | null => rfl
    | primitive _ _ notNull => exact absurd rfl notNull
  | primitive _ defined notNull noObject =>
    cases elementOther with
    | undefined => exact absurd rfl defined
    | null => exact absurd rfl notNull
    | primitive => rfl
    | _ => cases noObject
  | object _ noArray =>
    cases elementOther with
    | primitive _ _ _ noObject => cases noObject
    | object => rfl
    | again array => rw [noArray] at array; cases array
    | array array => rw [noArray] at array; cases array
  | again array joining =>
    cases elementOther with
    | primitive _ _ _ noObject => cases noObject
    | object _ noArray => rw [array] at noArray; cases noArray
    | again => rfl
    | array _ new => exact absurd joining new
  | array array new shown _ inductionHypothesis =>
    cases elementOther with
    | primitive _ _ _ noObject => cases noObject
    | object _ noArray => rw [array] at noArray; cases noArray
    | again _ joining => exact absurd joining new
    | array _ _ shownOther each =>
      refine congrArg _ (List.map_congr_left fun index member => ?_)
      have inside := List.mem_range.mp member
      refine inductionHypothesis index inside ?_
      rw [Option.some.inj ((shown index inside).symm.trans (shownOther index inside))]
      exact each index inside

/-! ### Heaps on which a join has an answer -/

/-- What can be met when an array of the heap is joined, with the functions of a realm. Chains of
prototypes end and have data properties only; arrays are well formed and hold values of the heap;
and every object finds the function of the realm that makes a string of it: an array that of
arrays, any other object that of objects. -/
structure World.Joinable (world : World) (realm : RealmId) (heap : ObjectId → Prop) : Prop where
  made : ∀ id, heap id → world.Has id
  chain : ∀ id, heap id → ∃ chain, world.HasChain id chain ∧
    ∀ holder ∈ chain, (world.object holder).DataOnly
  wellFormed : ∀ id, heap id → (world.object id).isArray = true →
    (world.object id).WellFormedArray
  closed : ∀ id, heap id → (world.object id).isArray = true →
    ∀ index < (world.object id).arrayLength, ∀ other,
      world.shown? id (.ofIndex index) = some (.object other) → heap other
  arrays : ∀ id, heap id → (world.object id).isArray = true →
    world.shown? id (.text "toString") = some ((Intrinsic.function .arrayToString).value realm)
  others : ∀ id, heap id → (world.object id).isArray = false →
    world.shown? id (.text "toString") = some ((Intrinsic.function .objectToString).value realm)
  functions : ∀ which ∈ [Builtin.arrayToString, .objectToString], ∃ name,
    (world.object ((Intrinsic.function which).id realm)).callable = some ⟨name, .builtin which⟩

/-! ### Worlds in which joins are running -/

namespace World

/-- The world but for its log, with the joins of some arrays running in a realm. -/
def Joining (world : World) (realm : RealmId) (running : List ObjectId) (before : World) : Prop :=
  before.realms =
    (world.modifyRealm realm fun region => { region with joining := running }).realms

variable {world before after : World} {realm : RealmId} {running : List ObjectId} {id : ObjectId}

theorem realm_congr (same : after.realms = before.realms) (realm : RealmId) :
    after.realm realm = before.realm realm := by rw [World.realm, same]; rfl

theorem object_congr (same : after.realms = before.realms) (id : ObjectId) :
    after.object id = before.object id := by rw [World.object, realm_congr same]; rfl

theorem modifyRealm_congr_realms (same : after.realms = before.realms)
    (change : Realm → Realm) :
    (after.modifyRealm realm change).realms = (before.modifyRealm realm change).realms :=
  congrArg (·.modify realm change) same

/-- Where no join is running, that is what the world itself is like. -/
theorem joining_nil (idle : (world.realm realm).joining = []) :
    (world.modifyRealm realm fun region => { region with joining := [] }) = world := by
  have same : (world.modifyRealm realm fun region => { region with joining := [] }) =
      world.modifyRealm realm fun region => region :=
    modifyRealm_congr (by rw [← idle])
  have realms : (world.realms.modify realm fun region => region) = world.realms := by
    apply Array.ext_getElem?
    intro index
    rw [Array.getElem?_modify]
    split <;> simp
  rw [same, modifyRealm, realms]

namespace Joining

theorem object (joining : world.Joining realm running before) (id : ObjectId) :
    before.object id = world.object id := by
  have same : world.SameObjects
      (world.modifyRealm realm fun region => { region with joining := running }) :=
    SameObjects.modifyRealm fun _ => rfl
  rw [object_congr joining, same.object]

theorem joining_eq (joining : world.Joining realm running before) (made : world.HasRealm realm) :
    (before.realm realm).joining = running := by
  rw [realm_congr joining, realm_modifyRealm_self made]

theorem logged (joining : world.Joining realm running before) (call : Call) :
    world.Joining realm running (before.logged call) := joining

theorem enter (joining : world.Joining realm running before) (id : ObjectId) :
    world.Joining realm (id :: running) (before.enterJoin realm id) := by
  rw [Joining, enterJoin, modifyRealm_congr_realms joining, modifyRealm_modifyRealm]

theorem leave (joining : world.Joining realm (id :: running) before) :
    world.Joining realm running (before.leaveJoin realm) := by
  rw [Joining, leaveJoin, modifyRealm_congr_realms joining, modifyRealm_modifyRealm]
  rfl

theorem hasChain {chain : List ObjectId} (joining : world.Joining realm running before)
    (hasChain : world.HasChain id chain) : before.HasChain id chain := by
  induction hasChain with
  | last top => exact .last (by rw [joining.object, top])
  | next above _ inductionHypothesis =>
    exact .next (by rw [joining.object, above]) inductionHypothesis

/-- Reading shows what it shows in the world. -/
theorem shown? {chain : List ObjectId} (joining : world.Joining realm running before)
    (hasChain : world.HasChain id chain) (key : Key) :
    before.shown? id key = world.shown? id key := by
  have nearest : before.nearest? chain key = world.nearest? chain key := by
    rw [nearest?, nearest?]
    simp only [joining.object]
  rw [World.shown?, World.shown?]
  rcases (joining.hasChain hasChain).search_cases key with ⟨_, property, near, found⟩ |
    ⟨near, absent⟩ <;>
  rcases hasChain.search_cases key with ⟨_, other, nearOther, foundOther⟩ | ⟨nearOther, absentOther⟩
  · rw [nearest, nearOther] at near
    rw [found, foundOther, Option.some.inj near]
    cases property with
    | data => rfl
    | accessor getter => cases getter <;> rfl
  · rw [nearest, nearOther] at near
    cases near
  · rw [nearest, nearOther] at near
    cases near
  · rw [absent, absentOther]

end Joining

end World

/-! ### One element -/

/-- An object becomes a string by the method that it shows. -/
theorem outcome_toUnits_of_method (call : Caller) (realm : RealmId) {world after : World}
    {id : ObjectId} {method : Value} {text : Units}
    (shown : world.shown? id (.text "toString") = some method)
    (callable : world.isCallable method = true)
    (called : (call realm method (.object id) []).outcome world = .done (.string text) after) :
    (toUnits call realm (.object id)).outcome world = .done text after := by
  have answered : (Run.isCallable method).outcome world = .done true world :=
    congrArg (Outcome.done · world) callable
  have converted : (firstPrimitive call realm id ["toString", "valueOf"]).outcome world =
      .done (.string text) after := by
    rw [firstPrimitive, Run.outcome_bind_of_done (outcome_get call realm shown),
      Run.outcome_bind_of_done answered, if_pos rfl, Run.outcome_bind_of_done called]
    rfl
  rw [toUnits, Run.outcome_bind_of_done converted]
  rfl

/-- What an element yields that is neither undefined nor null. -/
theorem outcome_elementText (call : Caller) (realm : RealmId) {world after : World}
    {id : ObjectId} {index : Nat} {value : Value} {text : Units}
    (shown : world.shown? id (.ofIndex index) = some value) (defined : value ≠ .undefined)
    (notNull : value ≠ .null)
    (ended : (toUnits call realm value).outcome world = .done text after) :
    (elementText call realm id index).outcome world = .done text after := by
  rw [elementText, Run.outcome_bind_of_done (outcome_get call realm shown)]
  cases value with
  | undefined => exact absurd rfl defined
  | null => exact absurd rfl notNull
  | _ => exact ended

/-! ### One join -/

/-- An array whose join is running is joined as nothing. -/
theorem outcome_joinArray_again (call : Caller) {realm : RealmId} {world : World} {id : ObjectId}
    (again : id ∈ (world.realm realm).joining) (separator : Units) :
    (joinArray call realm (.object id) separator).outcome world = .done [] world := by
  have self : (toObject realm (.object id)).outcome world = .done id world := rfl
  rw [joinArray, Run.outcome_bind_of_done self, Run.outcome_bind_of_done (Run.outcome_read _ world),
    if_pos again]
  rfl

/-- Any other object is joined from its elements, among the objects whose join is running. -/
theorem outcome_joinArray_new (call : Caller) {realm : RealmId} {world : World} {id : ObjectId}
    (new : id ∉ (world.realm realm).joining) (separator : Units) :
    (joinArray call realm (.object id) separator).outcome world =
      ((joinElements call realm id separator).outcome (world.enterJoin realm id)).followedBy
        (·.leaveJoin realm) := by
  have self : (toObject realm (.object id)).outcome world = .done id world := rfl
  have entered : (Run.modify (·.enterJoin realm id)).outcome world =
      .done () (world.enterJoin realm id) := rfl
  rw [joinArray, Run.outcome_bind_of_done self, Run.outcome_bind_of_done (Run.outcome_read _ world),
    if_neg new, Run.outcome_bind_of_done entered, Run.outcome_followedBy]

/-! ### Joins inside joins -/

/-- While the joins of some arrays are running, the value has a text as an element, and with enough
levels of calls that is what it yields as an element. -/
def World.ShowsWithin (world : World) (realm : RealmId) (running : List ObjectId) (room : Nat)
    (value : Value) : Prop :=
  ∃ text, world.ElementText running value text ∧
    ∀ depth, room < depth → ∀ id index before, world.Joining realm running before →
      before.shown? id (.ofIndex index) = some value →
      ∃ after, world.Joining realm running after ∧
        (elementText (callWithin depth) realm id index).outcome before = .done text after

/-- While the joins of some arrays are running, the elements of an array have texts, in which it is
among them, and with enough levels of calls the array is joined from them. -/
def World.JoinsWithin (world : World) (realm : RealmId) (running : List ObjectId) (room : Nat)
    (id : ObjectId) : Prop :=
  ∃ (elements : Nat → Value) (texts : Nat → Units),
    (∀ index < (world.object id).arrayLength,
      world.shown? id (.ofIndex index) = some (elements index) ∧
        world.ElementText (id :: running) (elements index) (texts index)) ∧
    ∀ depth, room ≤ depth → ∀ separator before, world.Joining realm running before →
      ∃ after, world.Joining realm running after ∧
        (joinArray (callWithin depth) realm (.object id) separator).outcome before =
          .done (separator.intercalate
            ((List.range (world.object id).arrayLength).map texts)) after

namespace World.Joinable

variable {world before after : World} {realm : RealmId} {heap : ObjectId → Prop}
  {running : List ObjectId} {id : ObjectId} {value : Value} {text : Units} {room : Nat}

theorem hasRealm (joinable : world.Joinable realm heap) : world.HasRealm realm := by
  obtain ⟨name, found⟩ := joinable.functions .arrayToString List.mem_cons_self
  exact (has_of_callable found).hasRealm

/-- An object shows as what the function makes of it that it has for a string. -/
theorem showsWithin_of_ends (joinable : world.Joinable realm heap) (member : heap id)
    {which : Builtin} (listed : which ∈ [Builtin.arrayToString, .objectToString])
    (shown : world.shown? id (.text "toString") = some ((Intrinsic.function which).value realm))
    (element : world.ElementText running (.object id) text)
    (ends : ∀ depth, room ≤ depth → ∀ before, world.Joining realm running before →
      ∃ after, world.Joining realm running after ∧
        (which.run (callWithin depth) depth realm (.object id) []).outcome before =
          .done (.string text) after) :
    world.ShowsWithin realm running room (.object id) := by
  refine ⟨text, element, fun depth enough holder index before joining shownThere => ?_⟩
  obtain ⟨depth, rfl⟩ : ∃ further, depth = further + 1 := ⟨depth - 1, by omega⟩
  obtain ⟨chain, hasChain, _⟩ := joinable.chain id member
  obtain ⟨name, found⟩ := joinable.functions which listed
  rw [← joining.object] at found
  rw [← joining.shown? hasChain] at shown
  have callable : before.isCallable ((Intrinsic.function which).value realm) = true := by
    show (before.object _).callable.isSome = true
    rw [found]
    rfl
  obtain ⟨after, joiningAfter, ended⟩ := ends depth (by omega) _
    (joining.logged ⟨(Intrinsic.function which).id realm, .object id, [], .begun⟩)
  refine ⟨after, joiningAfter, outcome_elementText _ realm shownThere nofun nofun ?_⟩
  refine outcome_toUnits_of_method _ realm shown callable ?_
  exact (outcome_callWithin depth realm (.object id) [] found).trans ended

/-- An array shows within so many levels if it is joined within them or its join is running. -/
theorem showsWithin_of_array (joinable : world.Joinable realm heap) (member : heap id)
    (array : (world.object id).isArray = true)
    (below : id ∉ running → world.JoinsWithin realm running room id) :
    world.ShowsWithin realm running room (.object id) := by
  have shown := joinable.arrays id member array
  by_cases again : id ∈ running
  · refine joinable.showsWithin_of_ends member List.mem_cons_self shown (.again array again)
      fun depth _ before joining => ⟨before, joining, ?_⟩
    rw [← joining.joining_eq joinable.hasRealm] at again
    rw [Builtin.run, Run.outcome_bind_of_done (outcome_joinArray_again _ again _)]
    rfl
  · obtain ⟨elements, texts, each, joins⟩ := below again
    refine joinable.showsWithin_of_ends member List.mem_cons_self shown
      (.array array again (fun index inside => (each index inside).1)
        fun index inside => (each index inside).2)
      fun depth enough before joining => ?_
    obtain ⟨after, joiningAfter, ended⟩ := joins depth enough (unitsOf ",") before joining
    refine ⟨after, joiningAfter, ?_⟩
    rw [Builtin.run, Run.outcome_bind_of_done ended]
    rfl

theorem showsWithin_of_other (joinable : world.Joinable realm heap) (member : heap id)
    (noArray : (world.object id).isArray = false) :
    world.ShowsWithin realm running room (.object id) := by
  refine joinable.showsWithin_of_ends member (List.mem_cons_of_mem _ List.mem_cons_self)
    (joinable.others id member noArray) (.object running noArray)
    fun depth _ before joining => ⟨before, joining, ?_⟩
  rw [← joining.object]
  rfl

/-- A value shows within so many levels if the array is joined within them that it may be. -/
theorem showsWithin (joinable : world.Joinable realm heap)
    (member : ∀ id, value = .object id → heap id)
    (below : ∀ id, heap id → (world.object id).isArray = true → id ∉ running →
      world.JoinsWithin realm running room id) :
    world.ShowsWithin realm running room value := by
  cases value with
  | object id =>
    cases array : (world.object id).isArray with
    | true =>
      exact joinable.showsWithin_of_array (member id rfl) array (below id (member id rfl) array)
    | false => exact joinable.showsWithin_of_other (member id rfl) array
  | undefined =>
    refine ⟨[], .undefined running, fun depth _ id index before joining shown => ?_⟩
    refine ⟨before, joining, ?_⟩
    rw [elementText, Run.outcome_bind_of_done (outcome_get _ realm shown)]
    rfl
  | null =>
    refine ⟨[], .null running, fun depth _ id index before joining shown => ?_⟩
    refine ⟨before, joining, ?_⟩
    rw [elementText, Run.outcome_bind_of_done (outcome_get _ realm shown)]
    rfl
  | _ =>
    refine ⟨_, .primitive running nofun nofun rfl, fun depth _ id index before joining shown => ?_⟩
    exact ⟨before, joining, outcome_elementText _ realm shown nofun nofun rfl⟩

/-- An array is joined within one level more than its elements show within. -/
theorem joinsWithin_succ (joinable : world.Joinable realm heap) (member : heap id)
    (array : (world.object id).isArray = true) (new : id ∉ running)
    (below : ∀ index < (world.object id).arrayLength, ∀ value,
      world.shown? id (.ofIndex index) = some value →
        world.ShowsWithin realm (id :: running) room value) :
    world.JoinsWithin realm running (room + 1) id := by
  obtain ⟨chain, hasChain, data⟩ := joinable.chain id member
  -- Beyond the length of the array any value and any text will do.
  have exists_each : ∀ index, ∃ value text, index < (world.object id).arrayLength →
      world.shown? id (.ofIndex index) = some value ∧
      world.ElementText (id :: running) value text ∧
      ∀ depth, room < depth → ∀ before, world.Joining realm (id :: running) before →
        ∃ after, world.Joining realm (id :: running) after ∧
          (elementText (callWithin depth) realm id index).outcome before = .done text after := by
    intro index
    by_cases inside : index < (world.object id).arrayLength
    · obtain ⟨value, shown⟩ := Option.isSome_iff_exists.mp
        (isSome_shown? hasChain data (.ofIndex index))
      obtain ⟨text, elementText, ends⟩ := below index inside value shown
      refine ⟨value, text, fun _ => ⟨shown, elementText, fun depth enough before joining => ?_⟩⟩
      exact ends depth enough id index before joining ((joining.shown? hasChain _).trans shown)
    · exact ⟨.undefined, [], fun within => absurd within inside⟩
  choose elements texts each using exists_each
  refine ⟨elements, texts, fun index inside => ⟨(each index inside).1, (each index inside).2.1⟩,
    fun depth enough separator before joining => ?_⟩
  have inside := joining.enter id
  obtain ⟨number, shownLength, counted, _⟩ :=
    Json.exists_length_of_wellFormed (joinable.wellFormed id member array)
  rw [← inside.shown? hasChain] at shownLength
  have length := outcome_lengthOf (callWithin depth) realm shownLength
  rw [counted] at length
  obtain ⟨after, joiningAfter, ended⟩ := Run.exists_outcome_collect
    (fun index bound => (each index bound).2.2 depth enough) inside
  have other : id ∉ (before.realm realm).joining := by
    rwa [joining.joining_eq joinable.hasRealm]
  refine ⟨after.leaveJoin realm, joiningAfter.leave, ?_⟩
  rw [outcome_joinArray_new _ other, joinElements, Run.outcome_bind_of_done length,
    Run.outcome_bind_of_done ended]
  rfl

/-- Every array whose join is running is another object of the world, so with as many levels as
there are other objects the join of one more ends. -/
theorem joinsWithin (joinable : world.Joinable realm heap) (member : heap id)
    (array : (world.object id).isArray = true) (distinct : running.Nodup)
    (made : ∀ outer ∈ running, world.Has outer) (new : id ∉ running)
    (enough : world.population ≤ running.length + room) :
    world.JoinsWithin realm running room id := by
  induction room generalizing running id with
  | zero =>
    -- The objects of the world are all among those whose join is running, and this is one more.
    have distinctMore : (id :: running).Nodup := List.nodup_cons.mpr ⟨new, distinct⟩
    have given : id :: running ⊆ world.ids := List.cons_subset.mpr
      ⟨mem_ids (joinable.made id member), fun outer further => mem_ids (made outer further)⟩
    have few := (List.subperm_of_subset distinctMore given).length_le
    rw [List.length_cons, length_ids] at few
    omega
  | succ room inductionHypothesis =>
    refine joinable.joinsWithin_succ member array new fun index inside value shown => ?_
    refine joinable.showsWithin
      (fun other same => joinable.closed id member array index inside other (same ▸ shown))
      fun other otherMember otherArray otherNew => ?_
    refine inductionHypothesis otherMember otherArray (List.nodup_cons.mpr ⟨new, distinct⟩)
      (List.forall_mem_cons.mpr ⟨joinable.made id member, made⟩) otherNew ?_
    rw [List.length_cons]
    omega

/-- However arrays hold one another, when no join is running an array is joined, and nothing but the
log of calls is changed by that. The separator stands between the texts of the elements, each of
which is the only one that the element has while the join of the array is running. As many levels
of calls as there are objects are enough. -/
theorem outcome_arrayJoin (joinable : world.Joinable realm heap) (member : heap id)
    (array : (world.object id).isArray = true) (idle : (world.realm realm).joining = []) :
    ∃ (elements : Nat → Value) (texts : Nat → Units),
      (∀ index < (world.object id).arrayLength,
        world.shown? id (.ofIndex index) = some (elements index) ∧
          ∀ text, world.ElementText [id] (elements index) text ↔ text = texts index) ∧
      ∀ separator depth bound, world.population ≤ depth →
        ∃ after, after.realms = world.realms ∧
          (Builtin.arrayJoin.run (callWithin depth) bound realm (.object id)
            [.string separator]).outcome world = .done (.string (separator.intercalate
              ((List.range (world.object id).arrayLength).map texts))) after := by
  have joinsWithin : world.JoinsWithin realm [] world.population id :=
    joinable.joinsWithin member array List.nodup_nil (List.forall_mem_nil _) List.not_mem_nil
      (Nat.le_of_eq (Nat.zero_add _).symm)
  obtain ⟨elements, texts, each, joins⟩ := joinsWithin
  refine ⟨elements, texts, fun index inside => ?_, fun separator depth bound enough => ?_⟩
  · obtain ⟨shown, elementText⟩ := each index inside
    refine ⟨shown, fun text => ⟨fun other => other.unique elementText, ?_⟩⟩
    rintro rfl
    exact elementText
  · obtain ⟨after, joining, ended⟩ := joins depth enough separator world
      (congrArg World.realms (joining_nil idle).symm)
    refine ⟨after, joining.trans (congrArg World.realms (joining_nil idle)), ?_⟩
    have converted : (separatorOf (callWithin depth) realm (.string separator)).outcome world =
        .done separator world := rfl
    rw [Builtin.run, argumentAt, List.getD_cons_zero, Run.outcome_bind_of_done converted,
      Run.outcome_bind_of_done ended]
    rfl

end World.Joinable

/-! ### Two arrays that hold each other -/

theorem Object.IsArrayOf.wellFormedArray {realm : RealmId} {values : List Value} {object : Object}
    (shape : object.IsArrayOf realm values) (bound : values.length ≤ maxLength) :
    object.WellFormedArray := by
  refine ⟨by rw [Object.isArray, shape.kind]; rfl, values.length, bound,
    ⟨_, _, shape.length, Number.integer?_ofNat_of_le bound⟩, fun key index present spelled => ?_⟩
  rcases shape.key_of_own present with rfl | ⟨other, inside, rfl⟩
  · cases spelled
  · have small : other ≤ maxArrayIndex :=
      Nat.le_of_lt_succ (Nat.lt_of_lt_of_le inside bound)
    rw [Key.arrayIndex?_ofIndex small] at spelled
    exact Option.some.inj spelled ▸ inside

/-- The elements of an array that holds itself, and another one twice. -/
def knotElements : List Value :=
  [.number (.ofNat 1), .object ⟨0, 20⟩, .object ⟨0, 21⟩, .object ⟨0, 21⟩]

/-- The elements of the other array, which holds the first one. -/
def loopElements : List Value := [.object ⟨0, 20⟩, .number (.ofNat 2)]

/-- A fresh world with these two arrays besides. -/
def knotWorld : World :=
  ((World.fresh 1).add 0 ((Object.emptyArray 0).createdAll (indexed knotElements))).add 0
    ((Object.emptyArray 0).createdAll (indexed loopElements))

/-- Of two objects that are added one after the other, both are there. -/
theorem World.object_add_add {world : World} {realm : RealmId} (made : world.HasRealm realm)
    (first second : Object) :
    ((world.add realm first).add realm second).object (world.nextId realm) = first ∧
      ((world.add realm first).add realm second).object
        ((world.add realm first).nextId realm) = second :=
  ⟨(object_add_of_ne (has_add_nextId made first).ne_nextId second).trans
    (object_add_nextId made first),
    object_add_nextId ((extends_add world realm first).hasRealm realm made) second⟩

theorem isArrayOf_knotWorld : (knotWorld.object ⟨0, 20⟩).IsArrayOf 0 knotElements ∧
    (knotWorld.object ⟨0, 21⟩).IsArrayOf 0 loopElements := by
  have objects := World.object_add_add (World.hasRealm_fresh Nat.zero_lt_one)
    ((Object.emptyArray 0).createdAll (indexed knotElements))
    ((Object.emptyArray 0).createdAll (indexed loopElements))
  have places : (World.fresh 1).nextId 0 = ⟨0, 20⟩ ∧ ((World.fresh 1).add 0
      ((Object.emptyArray 0).createdAll (indexed knotElements))).nextId 0 = ⟨0, 21⟩ := by
    decide +kernel
  rw [places.1, places.2, ← knotWorld] at objects
  rw [objects.1, objects.2]
  exact ⟨Object.isArrayOf_createdAll 0 knotElements (by decide),
    Object.isArrayOf_createdAll 0 loopElements (by decide)⟩

theorem shown?_knotWorld :
    (∀ index < 4, knotWorld.shown? ⟨0, 20⟩ (.ofIndex index) = knotElements[index]?) ∧
      ∀ index < 2, knotWorld.shown? ⟨0, 21⟩ (.ofIndex index) = loopElements[index]? := by
  decide +kernel

theorem length_knotWorld : (knotWorld.object ⟨0, 20⟩).arrayLength = 4 ∧
    (knotWorld.object ⟨0, 21⟩).arrayLength = 2 := by decide +kernel

theorem joinable_knotWorld : knotWorld.Joinable 0 (· ∈ [⟨0, 20⟩, ⟨0, 21⟩]) where
  made := by decide +kernel
  chain := by
    refine List.forall_mem_cons.mpr ⟨⟨[⟨0, 20⟩, Intrinsic.arrayPrototype.id 0,
      Intrinsic.objectPrototype.id 0], ?_, by decide +kernel⟩, List.forall_mem_singleton.mpr
        ⟨[⟨0, 21⟩, Intrinsic.arrayPrototype.id 0, Intrinsic.objectPrototype.id 0], ?_,
          by decide +kernel⟩⟩
    · exact .next (by decide +kernel) (.next (by decide +kernel) (.last (by decide +kernel)))
    · exact .next (by decide +kernel) (.next (by decide +kernel) (.last (by decide +kernel)))
  wellFormed := List.forall_mem_cons.mpr
    ⟨fun _ => isArrayOf_knotWorld.1.wellFormedArray (by decide), List.forall_mem_singleton.mpr
      fun _ => isArrayOf_knotWorld.2.wellFormedArray (by decide)⟩
  closed := by
    refine List.forall_mem_cons.mpr ⟨fun _ index inside other shown => ?_,
      List.forall_mem_singleton.mpr fun _ index inside other shown => ?_⟩
    · rw [shown?_knotWorld.1 index (length_knotWorld.1 ▸ inside)] at shown
      simpa [knotElements] using List.mem_of_getElem? shown
    · rw [shown?_knotWorld.2 index (length_knotWorld.2 ▸ inside)] at shown
      have member := List.mem_of_getElem? shown
      simp only [loopElements, List.mem_cons, Value.object.injEq, reduceCtorEq, List.not_mem_nil,
        or_false] at member
      exact member ▸ List.mem_cons_self
  arrays := by decide +kernel
  others := by decide +kernel
  functions := List.forall_mem_cons.mpr
    ⟨⟨"toString", rfl⟩, List.forall_mem_singleton.mpr ⟨"toString", rfl⟩⟩

/-- While the join of the first array is running, it shows in the other one as nothing. -/
theorem elementText_loopElements :
    knotWorld.ElementText [⟨0, 20⟩] (.object ⟨0, 21⟩) (unitsOf ",2") := by
  have shown : ∀ index < 2, knotWorld.shown? ⟨0, 21⟩ (.ofIndex index) =
      some (loopElements.getD index .undefined) := by decide +kernel
  have each : ∀ index < 2, knotWorld.ElementText [⟨0, 21⟩, ⟨0, 20⟩]
      (loopElements.getD index .undefined)
      ([[], (Value.number (.ofNat 2)).primitiveUnits].getD index []) := by
    have number : knotWorld.ElementText [⟨0, 21⟩, ⟨0, 20⟩] (.number (.ofNat 2))
        (Value.number (.ofNat 2)).primitiveUnits := .primitive _ nofun nofun rfl
    intro index inside
    interval_cases index
    · exact .again (by decide +kernel) (by decide)
    · simp only [loopElements, List.getD_cons_succ, List.getD_cons_zero]
      exact number
  have joined : (unitsOf ",").intercalate ((List.range 2).map fun index =>
      [[], (Value.number (.ofNat 2)).primitiveUnits].getD index []) = unitsOf ",2" := by
    decide +kernel
  have array : (knotWorld.object ⟨0, 21⟩).isArray = true := by decide +kernel
  have new : (⟨0, 21⟩ : ObjectId) ∉ [⟨0, 20⟩] := by decide
  have text := World.ElementText.array array new
    (fun index inside => shown index (length_knotWorld.2 ▸ inside))
    fun index inside => each index (length_knotWorld.2 ▸ inside)
  rwa [length_knotWorld.2, joined] at text

/-- The array that holds itself shows as nothing in its own join, and in that of the array which
it holds twice. That one is joined in full both times. -/
theorem outcome_arrayJoin_knotted : ∃ after, after.realms = knotWorld.realms ∧
    (Builtin.arrayJoin.run (callWithin 22) 22 0 (.object ⟨0, 20⟩) [.string (unitsOf "-")]).outcome
      knotWorld = .done (.string (unitsOf "1--,2-,2")) after := by
  have array : (knotWorld.object ⟨0, 20⟩).isArray = true := by decide +kernel
  obtain ⟨elements, texts, each, joins⟩ :=
    joinable_knotWorld.outcome_arrayJoin List.mem_cons_self array (by decide +kernel)
  rw [length_knotWorld.1] at each joins
  have shows : ∀ index < 4, ∀ value text, knotElements[index]? = some value →
      knotWorld.ElementText [⟨0, 20⟩] value text → texts index = text := by
    intro index inside value text element elementText
    obtain ⟨shown, only⟩ := each index inside
    rw [shown?_knotWorld.1 index inside, element, Option.some.injEq] at shown
    exact ((only text).mp (shown ▸ elementText)).symm
  have again := shows 1 (by decide) _ _ rfl (.again (by decide +kernel) (by decide))
  have first := shows 0 (by decide) _ _ rfl (.primitive _ nofun nofun rfl)
  have third := shows 2 (by decide) _ _ rfl elementText_loopElements
  have fourth := shows 3 (by decide) _ _ rfl elementText_loopElements
  obtain ⟨after, same, ended⟩ := joins (unitsOf "-") 22 22 (by decide +kernel)
  refine ⟨after, same, ended.trans ?_⟩
  have range : (List.range 4).map texts = [texts 0, texts 1, texts 2, texts 3] := rfl
  have joined : (unitsOf "-").intercalate [(Value.number (.ofNat 1)).primitiveUnits, [],
      unitsOf ",2", unitsOf ",2"] = unitsOf "1--,2-,2" := by decide +kernel
  rw [range, first, again, third, fourth, joined]

end EcmaCore
