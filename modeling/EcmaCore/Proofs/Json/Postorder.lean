/-
This file is about the order in which the nodes of a parsed value come when children come
before their parents: the elements of an array by their indices, the members of an object as
the object lists its keys. What is walked over is the heap as parsing left it. There no
object is met twice, since the parts of a container stand in intervals of places that are
apart from one another and before the container; so no key of an object is visited twice
either.
-/

import EcmaCore.Proofs.Json.Acceptance
import EcmaCore.Proofs.Json.Standing
import EcmaCore.Proofs.Json.Tidying
import EcmaCore.Proofs.Object.Settling

namespace EcmaCore.Json

/-! ### The order -/

/-- A node in its place: a container, a key of it and the value under the key. -/
structure Visit where
  holder : ObjectId
  key : Key
  value : Value

/-- Where the node is, whatever it is. -/
def Visit.place (visit : Visit) : ObjectId × Key := (visit.holder, visit.key)

/-- The visits go over what stands under some keys of an object, key by key, and each node comes
after all that it holds. -/
inductive PostOrder (world : World) : ObjectId → List Key → List Visit → Prop
  | nil (holder : ObjectId) : PostOrder world holder [] []
  | leaf {holder : ObjectId} {key : Key} {keys : List Key} {value : Value} {others : List Visit}
      (held : (world.object holder).own? key = some (.plain value)) (leaf : value.object? = none)
      (rest : PostOrder world holder keys others) :
      PostOrder world holder (key :: keys) (⟨holder, key, value⟩ :: others)
  | node {holder id : ObjectId} {key : Key} {keys : List Key} {below others : List Visit}
      (held : (world.object holder).own? key = some (.plain (.object id)))
      (children : PostOrder world id (world.object id).childKeys below)
      (rest : PostOrder world holder keys others) :
      PostOrder world holder (key :: keys) (below ++ ⟨holder, key, .object id⟩ :: others)

/-- The object and all containers in it were made and are orderly, and they nest at most so deep. -/
inductive Regular (world : World) : Nat → ObjectId → Prop
  | node {depth : Nat} {id : ObjectId} (made : world.Has id) (orderly : (world.object id).Orderly)
      (below : ∀ key ∈ (world.object id).childKeys, ∀ child,
        (world.object id).own? key = some (.plain (.object child)) → Regular world depth child) :
      Regular world (depth + 1) id

variable {world : World} {realm : RealmId} {first last depth : Nat} {tree : Tree} {value : Value}
  {id : ObjectId} {keys : List Key} {visits : List Visit}

theorem Regular.orderly (regular : Regular world depth id) : (world.object id).Orderly := by
  cases regular with
  | node _ orderly _ => exact orderly

/-- There is one order only. -/
theorem PostOrder.unique {other : List Visit} (order : PostOrder world id keys visits)
    (orderOther : PostOrder world id keys other) : visits = other := by
  induction order generalizing other with
  | nil =>
    cases orderOther
    rfl
  | leaf held leaf _ inductionHypothesis =>
    cases orderOther with
    | leaf heldOther _ restOther =>
      rw [held] at heldOther
      rw [(Property.data.inj (Option.some.inj heldOther)).1, inductionHypothesis restOther]
    | node heldOther =>
      rw [held] at heldOther
      rw [(Property.data.inj (Option.some.inj heldOther)).1] at leaf
      cases leaf
  | node held _ _ belowHypothesis restHypothesis =>
    cases orderOther with
    | leaf heldOther leafOther =>
      rw [held] at heldOther
      rw [← (Property.data.inj (Option.some.inj heldOther)).1] at leafOther
      cases leafOther
    | node heldOther childrenOther restOther =>
      rw [held] at heldOther
      cases Value.object.inj (Property.data.inj (Option.some.inj heldOther)).1
      rw [belowHypothesis childrenOther, restHypothesis restOther]

/-- What is regular can be walked over. -/
theorem Regular.exists_postOrder (regular : Regular world depth id) :
    ∃ visits, PostOrder world id (world.object id).childKeys visits := by
  induction regular with
  | @node depth id _ orderly _ inductionHypothesis =>
    suffices walk : ∀ keys ⊆ (world.object id).childKeys, ∃ visits, PostOrder world id keys visits
      from walk _ (List.Subset.refl _)
    intro keys subset
    induction keys with
    | nil => exact ⟨[], .nil id⟩
    | cons key keys walk =>
      obtain ⟨child, subset⟩ := List.cons_subset.mp subset
      obtain ⟨others, rest⟩ := walk subset
      obtain ⟨value, _, held⟩ := orderly.held key child
      cases value with
      | object inner =>
        obtain ⟨below, children⟩ := inductionHypothesis key child inner held
        exact ⟨_, .node held children rest⟩
      | _ => exact ⟨_, .leaf held rfl rest⟩

/-! ### Parsed values -/

theorem Stands.defined (stands : Stands world realm first last tree value) :
    value ≠ .undefined := by
  cases stands <;> exact nofun

/-- The children of a container stand in parts before it, each key in a part of its own. -/
structure Family (world : World) (realm : RealmId) (first place : Nat) (tree : Tree)
    (names : List Key) (trees : List Tree) (values : List Value) : Prop where
  made : world.Has ⟨realm, place⟩
  orderly : (world.object ⟨realm, place⟩).Orderly
  stand : Consecutive (Stands world realm) first place trees values
  shallow : ∀ part ∈ trees, part.depth < tree.depth
  held : ∀ key ∈ (world.object ⟨realm, place⟩).childKeys, ∀ value,
    (world.object ⟨realm, place⟩).own? key = some (.plain value) →
      ∃ index : Nat, names[index]? = some key ∧ values[index]? = some value

theorem Consecutive.defined {trees : List Tree} {values : List Value}
    (below : Consecutive (Stands world realm) first last trees values) :
    ∀ value ∈ values, value ≠ .undefined := by
  intro value member
  obtain ⟨index, inside, rfl⟩ := List.getElem_of_mem member
  obtain ⟨_, _, _, _, stands, _⟩ := below.part (List.getElem?_eq_getElem inside)
  exact stands.defined

theorem Stands.family (stands : Stands world realm first last tree (.object id)) :
    ∃ place, id = ⟨realm, place⟩ ∧ last = place + 1 ∧
      ∃ names trees values, Family world realm first place tree names trees values := by
  cases stands with
  | @array first place elements values below made object =>
    refine ⟨place, rfl, rfl, (List.range values.length).map .ofIndex, elements, values, made,
      object ▸ Object.orderly_array realm below.defined, below, ?_, ?_⟩
    · intro part member
      rw [Tree.depth]
      exact Nat.lt_succ_of_le (elementsDepth_le.mp (Nat.le_refl _) part member)
    · intro key child value slot
      rw [object] at child slot
      rw [Object.childKeys_createdAll_indexed] at child
      obtain ⟨index, member, rfl⟩ := List.mem_map.mp child
      have inside : index < values.length :=
        Nat.lt_of_lt_of_le (List.mem_range.mp member) (Nat.min_le_left _ _)
      rw [Object.own?_createdAll_indexed _ values index inside] at slot
      refine ⟨index, ?_, ?_⟩
      · rw [List.getElem?_map, List.getElem?_range inside]
        rfl
      · rw [List.getElem?_eq_getElem inside, (Property.data.inj (Option.some.inj slot)).1]
  | @object first place members entries names below made object =>
    have defined : ∀ entry ∈ entries, entry.2 ≠ .undefined := fun entry member =>
      below.defined entry.2 (List.mem_map_of_mem member)
    refine ⟨place, rfl, rfl, entries.map Prod.fst, members.map Prod.snd, entries.map Prod.snd,
      made, object ▸ Object.orderly_record realm defined, below, ?_, ?_⟩
    · intro part member
      obtain ⟨entry, present, rfl⟩ := List.mem_map.mp member
      rw [Tree.depth]
      exact Nat.lt_succ_of_le (membersDepth_le.mp (Nat.le_refl _) entry present)
    · intro key _ value slot
      rw [object, Object.own?_createdAll_plain] at slot
      obtain ⟨last, found, same⟩ := Option.map_eq_some_iff.mp slot
      rw [(Property.data.inj same).1] at found
      have present := List.mem_reverse.mp (Table.mem_of_valueAt found)
      obtain ⟨index, inside, entry⟩ := List.getElem_of_mem present
      refine ⟨index, ?_, ?_⟩ <;>
      · rw [List.getElem?_map, List.getElem?_eq_getElem inside, entry]
        rfl

theorem Stands.regular (stands : Stands world realm first last tree (.object id))
    (shallow : tree.depth ≤ depth) : Regular world depth id := by
  induction depth generalizing first last tree id with
  | zero =>
    cases stands <;> rw [Tree.depth] at shallow <;> exact absurd shallow (Nat.not_succ_le_zero _)
  | succ depth inductionHypothesis =>
    obtain ⟨place, rfl, _, names, trees, values, family⟩ := stands.family
    refine .node family.made family.orderly fun key child inner held => ?_
    obtain ⟨index, _, here⟩ := family.held key child _ held
    obtain ⟨part, same, start, stop, below, _⟩ := family.stand.part here
    have less := family.shallow part (List.mem_of_getElem? same)
    exact inductionHypothesis below (Nat.le_of_lt_succ (Nat.lt_of_lt_of_le less shallow))

/-! ### No place is visited twice -/

/-- The visits to what some keys of a container hold are to places of the container, and to places
before it. -/
theorem PostOrder.within (order : PostOrder world id keys visits)
    (stands : Stands world realm first last tree (.object id))
    (children : keys ⊆ (world.object id).childKeys) :
    ∀ visit ∈ visits, world.Has visit.holder ∧ visit.holder.realm = realm ∧
      first ≤ visit.holder.slot ∧ visit.holder.slot ≤ id.slot := by
  induction order generalizing first last tree with
  | nil => exact List.forall_mem_nil _
  | leaf _ _ _ inductionHypothesis =>
    have others := inductionHypothesis stands (List.cons_subset.mp children).2
    obtain ⟨place, rfl, _, _, _, _, family⟩ := stands.family
    exact List.forall_mem_cons.mpr
      ⟨⟨family.made, rfl, family.stand.forward, Nat.le_refl _⟩, others⟩
  | node held _ _ belowHypothesis restHypothesis =>
    have others := restHypothesis stands (List.cons_subset.mp children).2
    obtain ⟨place, rfl, _, names, trees, values, family⟩ := stands.family
    obtain ⟨index, _, here⟩ := family.held _ (List.cons_subset.mp children).1 _ held
    obtain ⟨part, _, start, stop, below, after, before⟩ := family.stand.part here
    refine List.forall_mem_append.mpr ⟨fun visit member => ?_, List.forall_mem_cons.mpr
      ⟨⟨family.made, rfl, family.stand.forward, Nat.le_refl _⟩, others⟩⟩
    obtain ⟨made, inRealm, low, high⟩ :=
      belowHypothesis below (List.Subset.refl _) visit member
    obtain ⟨_, rfl, rfl, _⟩ := below.family
    exact ⟨made, inRealm, Nat.le_trans after low, Nat.le_trans high (Nat.le_of_lt before)⟩

/-- A visit is to a key of the object itself, or it is to what one of the keys holds. -/
theorem PostOrder.cases_of_mem (order : PostOrder world id keys visits) {visit : Visit}
    (member : visit ∈ visits) :
    (visit.holder = id ∧ visit.key ∈ keys) ∨ ∃ key ∈ keys, ∃ child below,
      (world.object id).own? key = some (.plain (.object child)) ∧
        PostOrder world child (world.object child).childKeys below ∧ visit ∈ below := by
  induction order with
  | nil => cases member
  | leaf _ _ _ inductionHypothesis =>
    rcases List.mem_cons.mp member with rfl | member
    · exact Or.inl ⟨rfl, List.mem_cons_self⟩
    · refine (inductionHypothesis member).imp ?_ ?_
      · exact fun ⟨same, further⟩ => ⟨same, List.mem_cons_of_mem _ further⟩
      · exact fun ⟨key, further, inside⟩ => ⟨key, List.mem_cons_of_mem _ further, inside⟩
  | node held children _ _ inductionHypothesis =>
    rcases List.mem_append.mp member with inner | member
    · exact Or.inr ⟨_, List.mem_cons_self, _, _, held, children, inner⟩
    · rcases List.mem_cons.mp member with rfl | member
      · exact Or.inl ⟨rfl, List.mem_cons_self⟩
      · refine (inductionHypothesis member).imp ?_ ?_
        · exact fun ⟨same, further⟩ => ⟨same, List.mem_cons_of_mem _ further⟩
        · exact fun ⟨key, further, inside⟩ => ⟨key, List.mem_cons_of_mem _ further, inside⟩

section

variable {names : List Key} {trees : List Tree} {values : List Value} {place : Nat}

/-- What one key of a container holds stands before the container. -/
theorem Family.before (family : Family world realm first place tree names trees values) {key : Key}
    (child : key ∈ (world.object ⟨realm, place⟩).childKeys) {inner : ObjectId}
    (held : (world.object ⟨realm, place⟩).own? key = some (.plain (.object inner)))
    {below : List Visit} (order : PostOrder world inner (world.object inner).childKeys below) :
    ∀ visit ∈ below, visit.holder.slot < place := by
  intro visit member
  obtain ⟨index, _, here⟩ := family.held key child _ held
  obtain ⟨part, _, start, stop, stands, _, before⟩ := family.stand.part here
  obtain ⟨_, _, _, high⟩ := order.within stands (List.Subset.refl _) visit member
  obtain ⟨_, rfl, rfl, _⟩ := stands.family
  exact Nat.lt_of_le_of_lt high before

/-- What two keys of a container hold stands apart. -/
theorem Family.apart (family : Family world realm first place tree names trees values)
    {key other : Key} (different : key ≠ other)
    (child : key ∈ (world.object ⟨realm, place⟩).childKeys)
    (otherChild : other ∈ (world.object ⟨realm, place⟩).childKeys) {inner otherInner : ObjectId}
    (held : (world.object ⟨realm, place⟩).own? key = some (.plain (.object inner)))
    (otherHeld : (world.object ⟨realm, place⟩).own? other = some (.plain (.object otherInner)))
    {below otherBelow : List Visit}
    (order : PostOrder world inner (world.object inner).childKeys below)
    (otherOrder : PostOrder world otherInner (world.object otherInner).childKeys otherBelow) :
    ∀ visit ∈ below, ∀ otherVisit ∈ otherBelow, visit.holder ≠ otherVisit.holder := by
  intro visit member otherVisit otherMember same
  obtain ⟨index, name, here⟩ := family.held key child _ held
  obtain ⟨position, otherName, there⟩ := family.held other otherChild _ otherHeld
  rcases Nat.lt_trichotomy index position with less | rfl | greater
  · obtain ⟨_, _, _, _, _, _, _, _, stands, otherStands, between⟩ :=
      family.stand.apart less here there
    obtain ⟨_, _, _, high⟩ := order.within stands (List.Subset.refl _) visit member
    obtain ⟨_, _, low, _⟩ := otherOrder.within otherStands (List.Subset.refl _) _ otherMember
    obtain ⟨_, rfl, rfl, _⟩ := stands.family
    rw [same] at high
    exact absurd (Nat.le_trans between low) (Nat.not_le_of_lt (Nat.lt_succ_of_le high))
  · exact different (Option.some.inj (name.symm.trans otherName))
  · obtain ⟨_, _, _, _, _, _, _, _, otherStands, stands, between⟩ :=
      family.stand.apart greater there here
    obtain ⟨_, _, low, _⟩ := order.within stands (List.Subset.refl _) visit member
    obtain ⟨_, _, _, high⟩ := otherOrder.within otherStands (List.Subset.refl _) _ otherMember
    obtain ⟨_, rfl, rfl, _⟩ := otherStands.family
    rw [← same] at high
    exact absurd (Nat.le_trans between low) (Nat.not_le_of_lt (Nat.lt_succ_of_le high))

end

/-- A key of a container is visited only when its turn comes. -/
theorem PostOrder.not_mem_places (order : PostOrder world id keys visits)
    (stands : Stands world realm first last tree (.object id))
    (children : keys ⊆ (world.object id).childKeys) {key : Key} (new : key ∉ keys) :
    (id, key) ∉ visits.map Visit.place := by
  intro again
  obtain ⟨visit, member, same⟩ := List.mem_map.mp again
  obtain ⟨rfl, rfl⟩ := Prod.mk.inj same
  obtain ⟨place, equal, _, _, _, _, family⟩ := stands.family
  rcases order.cases_of_mem member with ⟨_, further⟩ | ⟨other, further, inner, below, slot, inside,
    visited⟩
  · exact new further
  · rw [equal] at slot children
    have before := family.before (children further) slot inside visit visited
    rw [equal] at before
    exact Nat.lt_irrefl _ before

/-- No place is visited twice. -/
theorem PostOrder.nodup (order : PostOrder world id keys visits)
    (stands : Stands world realm first last tree (.object id))
    (children : keys ⊆ (world.object id).childKeys) (distinct : keys.Nodup) :
    (visits.map Visit.place).Nodup := by
  induction order generalizing first last tree with
  | nil => exact List.nodup_nil
  | leaf _ _ rest inductionHypothesis =>
    obtain ⟨_, children⟩ := List.cons_subset.mp children
    obtain ⟨new, distinct⟩ := List.nodup_cons.mp distinct
    exact List.nodup_cons.mpr
      ⟨rest.not_mem_places stands children new, inductionHypothesis stands children distinct⟩
  | @node holder inner key keys below others held order rest belowHypothesis restHypothesis =>
    obtain ⟨child, children⟩ := List.cons_subset.mp children
    obtain ⟨new, distinct⟩ := List.nodup_cons.mp distinct
    have others := restHypothesis stands children distinct
    have newPlace := rest.not_mem_places stands children new
    obtain ⟨place, rfl, _, names, trees, values, family⟩ := stands.family
    have before := family.before child held order
    obtain ⟨index, _, here⟩ := family.held key child _ held
    obtain ⟨_, _, _, _, standsInner, _⟩ := family.stand.part here
    rw [List.map_append, List.map_cons]
    refine List.nodup_append.mpr ⟨belowHypothesis standsInner (List.Subset.refl _)
      (Object.nodup_childKeys _), List.nodup_cons.mpr ⟨newPlace, others⟩, ?_⟩
    -- What the key holds stands before the container and apart from what other keys hold.
    intro inside member outside otherMember same
    obtain ⟨visit, visited, rfl⟩ := List.mem_map.mp member
    have less := before visit visited
    rcases List.mem_cons.mp otherMember with rfl | otherMember
    · rw [(Prod.mk.inj same).1] at less
      exact Nat.lt_irrefl _ less
    · obtain ⟨other, visitedOther, rfl⟩ := List.mem_map.mp otherMember
      have sameHolder : visit.holder = other.holder := (Prod.mk.inj same).1
      rcases rest.cases_of_mem visitedOther with ⟨atHolder, _⟩ | ⟨otherKey, further, otherInner,
        otherBelow, slot, otherOrder, within⟩
      · rw [sameHolder, atHolder] at less
        exact Nat.lt_irrefl _ less
      · have different : key ≠ otherKey := fun equal => new (equal ▸ further)
        exact family.apart different child (children further) held slot order otherOrder visit
          visited other within sameHolder

/-- Each visit is to a child of an orderly container, and finds what stands under the key. -/
theorem PostOrder.held (order : PostOrder world id keys visits)
    (regular : Regular world depth id) (children : keys ⊆ (world.object id).childKeys) :
    ∀ visit ∈ visits, (world.object visit.holder).Orderly ∧
      visit.key ∈ (world.object visit.holder).childKeys ∧
      (world.object visit.holder).own? visit.key = some (.plain visit.value) := by
  induction order generalizing depth with
  | nil => exact List.forall_mem_nil _
  | leaf held _ _ inductionHypothesis =>
    obtain ⟨child, children⟩ := List.cons_subset.mp children
    exact List.forall_mem_cons.mpr
      ⟨⟨regular.orderly, child, held⟩, inductionHypothesis regular children⟩
  | node held _ _ belowHypothesis restHypothesis =>
    obtain ⟨child, children⟩ := List.cons_subset.mp children
    have others := restHypothesis regular children
    have here := regular.orderly
    cases regular with
    | node _ _ below =>
      exact List.forall_mem_append.mpr ⟨belowHypothesis (below _ child _ held) (List.Subset.refl _),
        List.forall_mem_cons.mpr ⟨⟨here, child, held⟩, others⟩⟩

/-- Every key has its visit. -/
theorem PostOrder.mem_places (order : PostOrder world id keys visits) {key : Key}
    (member : key ∈ keys) : (id, key) ∈ visits.map Visit.place := by
  induction order with
  | nil => cases member
  | leaf _ _ _ inductionHypothesis =>
    rcases List.mem_cons.mp member with rfl | member
    · exact List.mem_cons_self
    · exact List.mem_cons_of_mem _ (inductionHypothesis member)
  | node _ _ _ _ inductionHypothesis =>
    rw [List.map_append, List.map_cons]
    rcases List.mem_cons.mp member with rfl | member
    · exact List.mem_append_right _ List.mem_cons_self
    · exact List.mem_append_right _ (List.mem_cons_of_mem _ (inductionHypothesis member))

/-! ### Children before their parent -/

theorem filter_holder_cons (visit : Visit) (others : List Visit) :
    (visit :: others).filter (·.holder = visit.holder) =
      visit :: others.filter (·.holder = visit.holder) :=
  List.filter_cons_of_pos (decide_eq_true rfl)

/-- Of the visits to what a container holds, those to its own places are to its keys in order. -/
theorem PostOrder.filter_holder (order : PostOrder world id keys visits)
    (stands : Stands world realm first last tree (.object id))
    (children : keys ⊆ (world.object id).childKeys) :
    (visits.filter (·.holder = id)).map Visit.key = keys := by
  induction order generalizing first last tree with
  | nil => rfl
  | @leaf holder key keys value others _ _ _ inductionHypothesis =>
    rw [filter_holder_cons ⟨holder, key, value⟩, List.map_cons,
      inductionHypothesis stands (List.cons_subset.mp children).2]
  | @node holder inner key keys below others held order _ _ restHypothesis =>
    obtain ⟨child, children⟩ := List.cons_subset.mp children
    have rest := restHypothesis stands children
    obtain ⟨place, rfl, _, names, trees, values, family⟩ := stands.family
    have inside : below.filter (·.holder = ⟨realm, place⟩) = [] := by
      refine List.filter_eq_nil_iff.mpr fun visit visited same => ?_
      have before := family.before child held order visit visited
      rw [of_decide_eq_true same] at before
      exact Nat.lt_irrefl _ before
    rw [List.filter_append, inside, List.nil_append,
      filter_holder_cons ⟨⟨realm, place⟩, key, .object inner⟩, List.map_cons, rest]

/-- The visits to what a node holds come directly before the visit to the node. -/
theorem PostOrder.of_node (order : PostOrder world id keys visits)
    (stands : Stands world realm first last tree (.object id))
    (children : keys ⊆ (world.object id).childKeys) {before after : List Visit} {visit : Visit}
    (split : visits = before ++ visit :: after) {inner : ObjectId}
    (node : visit.value = .object inner) :
    ∃ earlier below, before = earlier ++ below ∧
      PostOrder world inner (world.object inner).childKeys below ∧
      (below.filter (·.holder = inner)).map Visit.key = (world.object inner).childKeys := by
  induction order generalizing first last tree before after with
  | nil => cases before <;> cases split
  | @leaf holder key keys value others held leaf rest inductionHypothesis =>
    cases before with
    | nil =>
      cases split
      rw [show value = .object inner from node] at leaf
      cases leaf
    | cons first before =>
      cases split
      obtain ⟨earlier, below, rfl, facts⟩ :=
        inductionHypothesis stands (List.cons_subset.mp children).2 rfl
      exact ⟨_ :: earlier, below, rfl, facts⟩
  | @node holder child key keys below others held order rest belowHypothesis restHypothesis =>
    obtain ⟨isChild, children⟩ := List.cons_subset.mp children
    obtain ⟨place, rfl, _, _, _, _, family⟩ := stands.family
    obtain ⟨_, _, here⟩ := family.held key isChild _ held
    obtain ⟨_, _, _, _, standsChild, _⟩ := family.stand.part here
    have own := order.filter_holder standsChild (List.Subset.refl _)
    rcases List.append_eq_append_iff.mp split with ⟨more, rfl, tail⟩ | ⟨more, rfl, tail⟩
    · -- The visit is to the child itself or comes after it.
      cases more with
      | nil =>
        cases tail
        cases node
        exact ⟨[], below, List.append_nil _, order, own⟩
      | cons first more =>
        cases tail
        obtain ⟨earlier, deeper, rfl, facts⟩ := restHypothesis stands children rfl
        exact ⟨below ++ _ :: earlier, deeper, by rw [List.append_assoc]; rfl, facts⟩
    · cases more with
      | nil =>
        cases tail
        cases node
        rw [List.append_nil] at order own
        exact ⟨[], before, rfl, order, own⟩
      | cons first more =>
        cases tail
        exact belowHypothesis standsChild (List.Subset.refl _) rfl

end EcmaCore.Json
