/-
This file proves that every text that conversion to JSON writes is canonical: it is a text
of the grammar, no object in it has a name twice, it nests no deeper than parsing allows,
and parsing it and writing the result again yields the same text.

Nothing is asked of the value that was converted, nor of the functions that were called on
the way. What is written is always the text of a tidy tree, and a tidy tree that is planted
tells itself: arrays show their elements, objects list their members in the same order, and
with no method `toJSON` on the prototypes nothing is called.
-/

import EcmaCore.Engine.Call
import EcmaCore.Proofs.Json.Acceptance
import EcmaCore.Proofs.Json.Representation
import EcmaCore.Proofs.Json.Serializing
import EcmaCore.Proofs.Json.Standing
import EcmaCore.Proofs.Json.Tidying
import EcmaCore.Proofs.World.Chains
import EcmaCore.Proofs.World.Fresh

namespace EcmaCore

/-- Neither the prototype of objects nor that of arrays has a property `toJSON`, own or
inherited. -/
structure World.WithoutToJson (world : World) (realm : RealmId) : Prop where
  object : world.search (Intrinsic.objectPrototype.id realm) (.text "toJSON") = .absent
  array : world.search (Intrinsic.arrayPrototype.id realm) (.text "toJSON") = .absent

/-- Where objects have only been added to new realms, the prototypes are as they were made. -/
theorem World.Extends.withoutToJson {world : World} {count : Nat} {realm : RealmId}
    (extended : world.Extends (World.fresh count)) (inside : realm < count) :
    world.WithoutToJson realm := by
  have same (which : Intrinsic) : world.object (which.id realm) = which.object realm := by
    rw [extended.object _ (World.hasIntrinsics_fresh inside which which.mem_all),
      World.object_fresh_intrinsic inside]
  have base : world.search (Intrinsic.objectPrototype.id realm) (.text "toJSON") = .absent :=
    World.search_of_end (by rw [same]; rfl) (by rw [same]; rfl)
  refine ⟨base, ?_⟩
  rw [World.search_of_prototype (by rw [same]; rfl) (by rw [same]; rfl) (by rw [base]; nofun), base]

theorem assign_of_not_mem {α : Type} {key : Units} {value : α} {entries : List (Units × α)}
    (new : key ∉ entries.map Prod.fst) : assign key value entries = entries ++ [(key, value)] := by
  induction entries with
  | nil => rfl
  | cons entry rest inductionHypothesis =>
    rw [List.map_cons, List.mem_cons, not_or] at new
    rw [assign, if_neg (Ne.symm new.1), inductionHypothesis new.2, List.cons_append]

namespace Json

/-! ### Names -/

mutual

/-- No object of the tree has two members with the same name. -/
def Tree.Distinct : Tree → Prop
  | .array elements => ElementsDistinct elements
  | .object members => (members.map Prod.fst).Nodup ∧ MembersDistinct members
  | _ => True

/-- The same for all elements. -/
def ElementsDistinct : List Tree → Prop
  | [] => True
  | tree :: rest => tree.Distinct ∧ ElementsDistinct rest

/-- The same for all members. -/
def MembersDistinct : List (Units × Tree) → Prop
  | [] => True
  | (_, tree) :: rest => tree.Distinct ∧ MembersDistinct rest

end

/-- Names in the order of listing are not repeated. -/
theorem NamesInOrder.nodup {members : List (Units × Tree)} (ordered : NamesInOrder members) :
    (members.map Prod.fst).Nodup := by
  have keys : ((members.map Prod.fst).map Key.ofUnits).Nodup := by
    rw [List.map_map]
    exact Key.InOrder.nodup ordered
  exact keys.of_map

mutual

theorem Tree.Tidy.distinct {tree : Tree} (tidy : tree.Tidy) : tree.Distinct := by
  cases tree with
  | array elements =>
    rw [Tree.Tidy] at tidy
    rw [Tree.Distinct]
    exact tidy.elements_distinct
  | object members =>
    rw [Tree.Tidy] at tidy
    rw [Tree.Distinct]
    exact ⟨NamesInOrder.nodup tidy.1, tidy.2.members_distinct⟩
  | _ => simp only [Tree.Distinct]

theorem ElementsTidy.elements_distinct {elements : List Tree} (tidy : ElementsTidy elements) :
    ElementsDistinct elements := by
  cases elements with
  | nil => simp only [ElementsDistinct]
  | cons tree rest =>
    rw [ElementsTidy] at tidy
    rw [ElementsDistinct]
    exact ⟨tidy.1.distinct, tidy.2.elements_distinct⟩

theorem MembersTidy.members_distinct {members : List (Units × Tree)} (tidy : MembersTidy members) :
    MembersDistinct members := by
  cases members with
  | nil => simp only [MembersDistinct]
  | cons member rest =>
    rw [MembersTidy] at tidy
    rw [MembersDistinct]
    exact ⟨tidy.2.1.distinct, tidy.2.2.members_distinct⟩

end

/-- Members with distinct names are written as they are. -/
theorem mergedMembers_of_nodup {members : List (Units × Tree)}
    (distinct : (members.map Prod.fst).Nodup) : mergedMembers (members.map some) = members := by
  induction members using List.reverseRecOn with
  | nil => rfl
  | append_singleton members member inductionHypothesis =>
    obtain ⟨key, tree⟩ := member
    rw [List.map_append, List.nodup_append] at distinct
    have new : key ∉ members.map Prod.fst := fun present =>
      distinct.2.2 key present key List.mem_cons_self rfl
    have earlier := inductionHypothesis distinct.1
    unfold mergedMembers at earlier ⊢
    rw [List.map_append, List.foldl_append, earlier]
    exact assign_of_not_mem new

/-! ### What planted trees tell -/

section Containers

variable {world : World} {realm : RealmId} {id : ObjectId} {rank : Nat}

/-- An array tells its elements, if they all tell. -/
theorem tells_array (unhooked : world.WithoutToJson realm) {values : List Value}
    (shape : (world.object id).IsArrayOf realm values)
    (plain : world.isCallable (.object id) = false) (bound : values.length ≤ maxLength)
    {elements : List Tree}
    (below : List.Forall₂ (fun value tree => Tells world rank value (some tree)) values elements) :
    Tells world (rank + 1) (.object id) (some (.array elements)) := by
  have missing : (world.object id).own? (.text "toJSON") = none := by
    refine Option.not_isSome_iff_eq_none.mp fun owned => ?_
    rcases shape.key_of_own owned with same | ⟨index, inside, same⟩
    · exact absurd same (by decide)
    · have noIndex : (Key.text "toJSON").arrayIndex? = none := by decide
      rw [same, Key.arrayIndex?_ofIndex
        (Nat.le_of_lt_succ (Nat.lt_of_lt_of_le inside bound))] at noIndex
      cases noIndex
  have inert : world.Inert id :=
    ⟨_, shown?_of_prototype missing shape.prototype unhooked.array, rfl⟩
  have kind : world.isArray (.object id) = true := by
    rw [World.isArray, Object.isArray, shape.kind]
    rfl
  have same : values.length = elements.length := below.length_eq
  have shown : ∀ index < (Number.ofNat values.length).toLength,
      world.shown? id (.ofIndex index) = some (values[index]?.getD .undefined) := by
    intro index inside
    rw [Number.toLength_ofNat bound] at inside
    rw [List.getElem?_eq_getElem inside]
    exact shown?_of_own? (shape.element index inside)
  have told : ∀ index < (Number.ofNat values.length).toLength,
      Tells world rank (values[index]?.getD .undefined) elements[index]? := by
    intro index inside
    rw [Number.toLength_ofNat bound] at inside
    rw [List.getElem?_eq_getElem inside, List.getElem?_eq_getElem (same ▸ inside)]
    exact below.get inside (same ▸ inside)
  have tells := Tells.array inert plain kind (shown?_of_own? shape.length) shown told
  have all : ((List.range (Number.ofNat values.length).toLength).map fun index =>
      (elements[index]?).getD .null) = elements := by
    rw [Number.toLength_ofNat bound, same]
    refine List.ext_getElem (by rw [List.length_map, List.length_range]) fun index _ inside => ?_
    rw [List.getElem_map, List.getElem_range, List.getElem?_eq_getElem inside, Option.getD_some]
  rw [all] at tells
  exact tells

/-- The tree of the member under a key. -/
def treeUnder (members : List (Units × Tree)) (key : Key) : Option Tree :=
  valueAt key (members.map fun member => (Key.ofUnits member.1, member.2))

theorem treeUnder_of_mem {members : List (Units × Tree)} (ordered : NamesInOrder members)
    {member : Units × Tree} (present : member ∈ members) :
    treeUnder members (.ofUnits member.1) = some member.2 := by
  have distinct : ((members.map fun other => (Key.ofUnits other.1, other.2)).map
      Prod.fst).Nodup := by
    rw [List.map_map]
    exact Key.InOrder.nodup ordered
  exact Table.valueAt_of_mem distinct (List.mem_map_of_mem present)

/-- An entry stands for the member at the same place. -/
theorem exists_member_of_entry {entries : List (Key × Value)} {members : List (Units × Tree)}
    (names : entries.map Prod.fst = members.map fun member => .ofUnits member.1)
    {Related : Value → Tree → Prop}
    (below : List.Forall₂ Related (entries.map Prod.snd) (members.map Prod.snd))
    {entry : Key × Value} (present : entry ∈ entries) :
    ∃ member ∈ members, entry.1 = .ofUnits member.1 ∧ Related entry.2 member.2 := by
  rw [← List.forall₂_eq_eq_eq, List.forall₂_map_left_iff, List.forall₂_map_right_iff] at names
  rw [List.forall₂_map_left_iff, List.forall₂_map_right_iff] at below
  obtain ⟨index, inside, rfl⟩ := List.getElem_of_mem present
  have insideToo : index < members.length := names.length_eq ▸ inside
  exact ⟨members[index], List.getElem_mem insideToo, names.get inside insideToo,
    below.get inside insideToo⟩

/-- A record tells a member for each entry whose value tells a tree, in the order of the
entries. -/
theorem tells_record (inert : world.Inert id) (plain : world.isCallable (.object id) = false)
    {entries : List (Key × Value)} (shape : (world.object id).IsRecordOf realm entries)
    (ordered : Key.InOrder (entries.map Prod.fst)) (trees : Key → Option Tree)
    (below : ∀ entry ∈ entries, Tells world rank entry.2 (trees entry.1)) :
    Tells world (rank + 1) (.object id) (some (.object (mergedMembers
      ((entries.map Prod.fst).map fun key =>
        (trees key).map fun tree => (repaired key.units, tree))))) := by
  have listed : (world.object id).enumerableKeys = entries.map Prod.fst :=
    shape.enumerableKeys_eq.trans (shape.ownKeys_eq ordered)
  have kind : world.isArray (.object id) = false := by
    rw [World.isArray, Object.isArray, shape.kind]
    rfl
  have shown : ∀ key ∈ (world.object id).enumerableKeys,
      world.shown? id key = some ((lastValue? key entries).getD .undefined) := by
    rw [listed, List.forall_mem_map]
    intro entry present
    rw [Object.lastValue?_of_mem ordered.nodup present]
    exact shown?_of_own? (shape.own_of_mem ordered.nodup present)
  have told : ∀ key ∈ (world.object id).enumerableKeys,
      Tells world rank ((lastValue? key entries).getD .undefined) (trees key) := by
    rw [listed, List.forall_mem_map]
    intro entry present
    rw [Object.lastValue?_of_mem ordered.nodup present]
    exact below entry present
  rw [← listed]
  exact Tells.object inert plain kind shown told

/-- An object tells its members, if their names are in the order of listing and their values
tell. -/
theorem tells_object (unhooked : world.WithoutToJson realm) {entries : List (Key × Value)}
    (shape : (world.object id).IsRecordOf realm entries)
    (plain : world.isCallable (.object id) = false) {members : List (Units × Tree)}
    (ordered : NamesInOrder members) (wellFormed : ∀ member ∈ members, WellFormed member.1)
    (names : entries.map Prod.fst = members.map fun member => .ofUnits member.1)
    (below : List.Forall₂ (fun value tree => Tells world rank value (some tree))
      (entries.map Prod.snd) (members.map Prod.snd)) :
    Tells world (rank + 1) (.object id) (some (.object members)) := by
  have inOrder : Key.InOrder (entries.map Prod.fst) := names ▸ ordered
  have told : ∀ entry ∈ entries, Tells world rank entry.2 (treeUnder members entry.1) := by
    intro entry present
    obtain ⟨member, memberPresent, same, tells⟩ := exists_member_of_entry names below present
    rw [same, treeUnder_of_mem ordered memberPresent]
    exact tells
  have inert : world.Inert id := by
    cases slot : (world.object id).own? (.text "toJSON") with
    | none => exact ⟨_, shown?_of_prototype slot shape.prototype unhooked.object, rfl⟩
    | some property =>
      -- A member under this name has a value that tells a tree, so the value is no function.
      have owned : Key.text "toJSON" ∈ entries.map Prod.fst :=
        shape.ownKeys_eq inOrder ▸ Object.mem_ownKeys.mpr (by rw [slot]; rfl)
      obtain ⟨entry, present, same⟩ := List.mem_map.mp owned
      obtain ⟨member, _, _, tells⟩ := exists_member_of_entry names below present
      refine ⟨entry.2, ?_, tells.isCallable_eq_false⟩
      rw [← same]
      exact shown?_of_own? (shape.own_of_mem inOrder.nodup present)
  have all : mergedMembers ((entries.map Prod.fst).map fun key =>
      (treeUnder members key).map fun tree => (repaired key.units, tree)) = members := by
    rw [names, List.map_map]
    refine Eq.trans (congrArg mergedMembers (List.map_congr_left fun member present => ?_))
      (mergedMembers_of_nodup ordered.nodup)
    rw [Function.comp_apply, treeUnder_of_mem ordered present, Key.units_ofUnits,
      repaired_of_wellFormed (wellFormed member present)]
    rfl
  have tells := tells_record inert plain shape inOrder (treeUnder members) told
  rw [all] at tells
  exact tells

end Containers

/-- A tidy tree that was planted tells itself. -/
theorem Stands.tells {world : World} {realm : RealmId} (unhooked : world.WithoutToJson realm)
    {first last : Nat} {tree : Tree} {value : Value}
    (stands : Stands world realm first last tree value) (tidy : tree.Tidy) (fits : tree.Fits)
    {rank : Nat} (shallow : tree.depth ≤ rank) : Tells world rank value (some tree) := by
  induction rank using Nat.strongRecOn generalizing first last tree value with
  | ind rank inductionHypothesis =>
    have plain := stands.isCallable_eq_false
    cases stands with
    | null => exact .null rank
    | boolean _ flag => exact .boolean rank flag
    | number _ number =>
      rw [Tree.Tidy] at tidy
      have tells : Tells world rank (.number number) (some (.ofNumber number)) :=
        .number rank number
      rwa [Tree.ofNumber, if_pos tidy] at tells
    | string _ units =>
      rw [Tree.Tidy] at tidy
      have tells : Tells world rank (.string units) (some (.string (repaired units))) :=
        .string rank units
      rwa [repaired_of_wellFormed tidy] at tells
    | @array first last elements values below made object =>
      rw [Tree.Tidy] at tidy
      rw [Tree.Fits] at fits
      rw [Tree.depth] at shallow
      obtain ⟨inside, rfl⟩ : ∃ inside, rank = inside + 1 := ⟨rank - 1, by omega⟩
      have bound : values.length ≤ maxLength := below.length_eq ▸ fits.1
      have shape : (world.object ⟨realm, last⟩).IsArrayOf realm values :=
        object ▸ Object.isArrayOf_createdAll realm values bound
      refine tells_array unhooked shape plain bound (below.related ?_)
      intro start stop tree value _ member stands
      exact inductionHypothesis inside (Nat.lt_succ_self inside) stands
        (elementsTidy_iff.mp tidy tree member) (elementsFit_iff.mp fits.2 tree member)
        (elementsDepth_le.mp (Nat.le_of_succ_le_succ shallow) tree member)
    | @object first last members entries names below made object =>
      rw [Tree.Tidy] at tidy
      rw [Tree.Fits] at fits
      rw [Tree.depth] at shallow
      obtain ⟨inside, rfl⟩ : ∃ inside, rank = inside + 1 := ⟨rank - 1, by omega⟩
      have wellFormed := membersTidy_iff.mp tidy.2
      have shape : (world.object ⟨realm, last⟩).IsRecordOf realm entries :=
        object ▸ Object.isRecordOf_createdAll realm entries
      refine tells_object unhooked shape plain tidy.1 (fun member present =>
        (wellFormed member present).1) names (below.related ?_)
      intro start stop tree value _ present stands
      obtain ⟨member, memberPresent, rfl⟩ := List.mem_map.mp present
      exact inductionHypothesis inside (Nat.lt_succ_self inside) stands
        (wellFormed member memberPresent).2 (membersFit_iff.mp fits member memberPresent)
        (membersDepth_le.mp (Nat.le_of_succ_le_succ shallow) member memberPresent)

/-- A text that conversion writes is a text of the grammar, no object in it has two members with
the same name, and it nests at most 512 deep. It can be parsed in every realm, and if every array
in it has a length that an array can have, and nothing leads from the prototypes of the realm to
`toJSON`, the result is written as the identical text. -/
theorem stringify_canonical (call : Caller) {realm : RealmId} {value : Value} {world after : World}
    {text : Units}
    (written : (stringify call realm value).outcome world = .done (some text) after) :
    ∃ tree, Grammar.Document tree text ∧ tree.depth ≤ 512 ∧ tree.Distinct ∧
      ∀ (reader : Caller) (home : RealmId) (start : World), start.HasRealm home →
        ∃ copy read, (readValue reader home text).outcome start = .done copy read ∧
          (tree.Fits → read.WithoutToJson home → ∀ (writer : Caller) (other : RealmId),
            (stringify writer other copy).outcome read = .done (some text) read) := by
  obtain ⟨tree, sound, rfl⟩ := sound_of_stringify written
  have spelled := sound.tidy.document_compact
  have shallow : tree.settled.depth ≤ 512 := tree.depth_settled ▸ sound.shallow
  refine ⟨tree.settled, spelled, shallow, sound.tidy.settled.distinct, ?_⟩
  intro reader home start made
  obtain ⟨copy, read, last, done, _, stands⟩ :=
    stands_readValue reader made (parse_ok_iff.mpr ⟨spelled, shallow⟩)
  refine ⟨copy, read, done, fun fits unhooked writer other => ?_⟩
  have tells := stands.tells unhooked sound.tidy.settled fits shallow
  rw [tells.outcome_stringify writer other (Nat.le_refl 512), Option.map_some,
    Tree.compact_settled]

/-- A realm with an object that has two keys, each of them a lone surrogate. -/
def surrogateWorld : World :=
  (World.fresh 1).add 0 ((Object.plain 0).createdAll
    [(.ofUnits [0xD800], .string [0xDFFF]), (.ofUnits [0xD801], .null)])

/-- Both keys are repaired to the replacement character, so the text has one member. What a new realm
reads from it is written as the same text. -/
theorem stringify_canonical_of_surrogate_keys :
    (∃ tree, Grammar.Document tree (unitsOf "\x7b\"\uFFFD\":null\x7d") ∧ tree.depth ≤ 512 ∧
      tree.Distinct) ∧
    ∃ copy read, (readValue (callWithin 0) 0 (unitsOf "\x7b\"\uFFFD\":null\x7d")).outcome
        (World.fresh 1) = .done copy read ∧
      (stringify (callWithin 0) 0 copy).outcome read =
        .done (some (unitsOf "\x7b\"\uFFFD\":null\x7d")) read := by
  have ended : ((stringify (callWithin 1) 0
      (.object ((World.fresh 1).nextId 0))).outcome surrogateWorld).value? =
        some (some (unitsOf "\x7b\"\uFFFD\":null\x7d")) := by decide +kernel
  obtain ⟨after, written⟩ := Outcome.exists_of_value? ended
  have made : (World.fresh 1).HasRealm 0 := World.hasRealm_fresh Nat.zero_lt_one
  obtain ⟨tree, spelled, shallow, distinct, again⟩ := stringify_canonical (callWithin 1) written
  obtain ⟨copy, read, done, rewritten⟩ := again (callWithin 0) 0 (World.fresh 1) made
  refine ⟨⟨tree, spelled, shallow, distinct⟩, copy, read, done, ?_⟩
  -- The text has one member, and reading it leaves the prototypes as they were made.
  have parsed : parse (unitsOf "\x7b\"\uFFFD\":null\x7d") = .ok (.object [([0xFFFD], .null)]) := by
    cbv
  obtain rfl : tree = .object [([0xFFFD], .null)] :=
    Except.ok.inj ((parse_ok_iff.mpr ⟨spelled, shallow⟩).symm.trans parsed)
  obtain ⟨_, _, _, reads, extended, _⟩ := stands_readValue (callWithin 0) made parsed
  cases reads.symm.trans done
  exact rewritten (by simp [Tree.Fits, MembersFit]) (extended.withoutToJson Nat.zero_lt_one) _ _

end Json

end EcmaCore
