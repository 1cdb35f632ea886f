/-
This file says exactly what is left of an array when its length is moved down. Elements
are deleted from the top, and the deletion comes to rest at the new length or just above
the topmost element that may not be deleted. Every element at or above that point is gone,
everything else has the slot that it had, and what is left is listed in the order in which
it was listed before.

What is deleted is a front part of the indices in descending order. So an object after
several deletions is described as the object without the slots of some keys, which says
at once what it owns and in which order, and the rest is to know which keys these are.
-/

import EcmaCore.Proofs.Object.Arrays

namespace EcmaCore

/-- The descriptor asks of a length what every writable length admits: a value, and whether it stays
writable. -/
structure Descriptor.AsksLength (descriptor : Descriptor) : Prop where
  noAccessor : descriptor.isAccessor = false
  notEnumerable : descriptor.enumerable.getD false = false
  notConfigurable : descriptor.configurable.getD false = false

/-- The key is no element at a position or above it. -/
def Key.isBelow (position : Nat) (key : Key) : Bool :=
  key.arrayIndex?.all fun index => decide (index < position)

namespace Object

variable {object changed last : Object} {key : Key} {low high length position : Nat}
  {descriptor : Descriptor}

/-! ### Erasing several slots -/

/-- The object without the slots of some keys. -/
def erasedAll (object : Object) (keys : List Key) : Object := keys.foldl erased object

theorem own?_erasedAll (object : Object) (keys : List Key) (key : Key) :
    (object.erasedAll keys).own? key = if key ∈ keys then none else object.own? key := by
  induction keys generalizing object with
  | nil => exact (if_neg List.not_mem_nil).symm
  | cons first rest inductionHypothesis =>
    rw [erasedAll, List.foldl_cons, ← erasedAll, inductionHypothesis]
    by_cases later : key ∈ rest
    · rw [if_pos later, if_pos (List.mem_cons_of_mem first later)]
    · by_cases same : key = first
      · rw [if_neg later, same, own?_erased_self, if_pos List.mem_cons_self]
      · rw [if_neg later, own?_erased_of_ne object same, if_neg fun member =>
          (List.mem_cons.mp member).elim same later]

theorem keys_erasedAll (object : Object) (keys : List Key) :
    (object.erasedAll keys).table.keys = object.table.keys.filter (· ∉ keys) := by
  induction keys generalizing object with
  | nil => exact (List.filter_eq_self.mpr fun _ _ => decide_eq_true List.not_mem_nil).symm
  | cons first rest inductionHypothesis =>
    rw [erasedAll, List.foldl_cons, ← erasedAll, inductionHypothesis, erased, Table.keys_erase,
      List.filter_filter]
    refine List.filter_congr fun key _ => ?_
    rw [← Bool.decide_and, decide_eq_decide, List.mem_cons, not_or, and_comm]

theorem erasedAll_frame (object : Object) (keys : List Key) :
    object.erasedAll keys = { object with table := (object.erasedAll keys).table } := by
  induction keys generalizing object with
  | nil => rfl
  | cons first rest inductionHypothesis => exact inductionHypothesis (object.erased first)

/-- The keys that are no index are listed in the order of the table. -/
theorem filter_isNone_ownKeys (object : Object) :
    (object.ownKeys.filter fun key => key.arrayIndex?.isNone) =
      object.table.keys.filter fun key => key.arrayIndex?.isNone := by
  obtain ⟨indices, _, members, listed⟩ := object.ownKeys_parts
  have none : (indices.map Key.ofIndex).filter (fun key => key.arrayIndex?.isNone) = [] := by
    refine List.filter_eq_nil_iff.mpr fun key member => ?_
    obtain ⟨index, inside, rfl⟩ := List.mem_map.mp member
    rw [Key.arrayIndex?_ofIndex ((members index).mp inside).1]
    exact Bool.false_ne_true
  rw [listed, List.filter_append, none, List.nil_append, List.filter_filter]
  simp only [Bool.and_self]

/-- An object of which some keys are left in the table lists these in the order of before. -/
theorem ownKeys_of_keys_filter {keep : Key → Bool}
    (keys : changed.table.keys = object.table.keys.filter keep) :
    changed.ownKeys = object.ownKeys.filter keep := by
  have owned (key : Key) : (changed.own? key).isSome ↔ key ∈ object.ownKeys.filter keep := by
    rw [← mem_table_keys, keys, List.mem_filter, List.mem_filter, mem_table_keys, mem_ownKeys]
  have others : (object.ownKeys.filter keep).filter (fun key => key.arrayIndex?.isNone) =
      changed.table.keys.filter fun key => key.arrayIndex?.isNone := by
    rw [List.filter_comm, object.filter_isNone_ownKeys, keys, List.filter_comm]
  obtain ⟨indices, ascending, members, listed⟩ := changed.ownKeys_parts
  have ordered : Key.InOrder (object.ownKeys.filter keep) := object.inOrder_ownKeys.filter keep
  rw [listed, ← others]
  refine ordered.parts ascending fun index => ?_
  rw [members, owned]

/-! ### Deleting from the top -/

/-- The element is there and may not be deleted. -/
def Pinned (object : Object) (index : Nat) : Prop :=
  ∃ property, object.own? (.ofIndex index) = some property ∧ property.configurable = false

theorem Pinned.isSome {index : Nat} (pinned : object.Pinned index) :
    (object.own? (.ofIndex index)).isSome = true := by
  obtain ⟨property, slot, _⟩ := pinned
  rw [slot]
  rfl

/-- Whether an element is pinned is a matter of its slot. -/
theorem pinned_congr {index : Nat}
    (same : changed.own? (.ofIndex index) = object.own? (.ofIndex index)) :
    changed.Pinned index ↔ object.Pinned index := by
  rw [Pinned, Pinned, same]

/-- A deletion is refused for what is pinned and nothing else. -/
theorem pinned_of_refused {index : Nat} (refused : object.deleted? (.ofIndex index) = none) :
    object.Pinned index := by
  rw [deleted?] at refused
  split at refused
  · cases refused
  · rename_i property slot
    split at refused
    · cases refused
    · rename_i fixed
      exact ⟨property, slot, Bool.not_eq_true _ ▸ fixed⟩

/-- Elements that are there are deleted one after another up to the first that is pinned. -/
theorem Deletions.exists_front {indices : List Nat} {stop : Option Nat}
    (deleted : Deletions object indices last stop) (distinct : indices.Nodup)
    (owned : ∀ index ∈ indices, (object.own? (.ofIndex index)).isSome = true) :
    ∃ front rest, indices = front ++ rest ∧ last = object.erasedAll (front.map .ofIndex) ∧
      stop = rest.head? ∧ (∀ index ∈ front, ¬ object.Pinned index) ∧
      ∀ stuck, stop = some stuck → object.Pinned stuck := by
  induction deleted with
  | all object => exact ⟨[], [], rfl, rfl, rfl, nofun, nofun⟩
  | stuck rest refused =>
    refine ⟨[], _ :: rest, rfl, rfl, rfl, nofun, fun stuck same => ?_⟩
    cases same
    exact pinned_of_refused refused
  | more allowed others inductionHypothesis =>
    rename_i object smaller last index rest stop
    obtain ⟨new, distinctRest⟩ := List.nodup_cons.mp distinct
    obtain ⟨there, ownedRest⟩ := List.forall_mem_cons.mp owned
    rcases deleted?_eq_some allowed with ⟨absent, _⟩ | ⟨property, slot, configurable, rfl⟩
    · rw [absent] at there
      cases there
    · have kept {other : Nat} (different : other ≠ index) :
          (object.erased (.ofIndex index)).own? (.ofIndex other) = object.own? (.ofIndex other) :=
        own?_erased_of_ne object fun same => different (Key.ofIndex_injective same)
      have apart {other : Nat} (member : other ∈ rest) : other ≠ index :=
        fun same => new (same ▸ member)
      obtain ⟨front, left, split, erased, stops, free, pinned⟩ := inductionHypothesis distinctRest
        fun other member => (kept (apart member)).symm ▸ ownedRest other member
      refine ⟨index :: front, left, congrArg (index :: ·) split, erased, stops, ?_, ?_⟩
      · refine List.forall_mem_cons.mpr ⟨?_, fun other member => ?_⟩
        · rintro ⟨current, currentSlot, fixed⟩
          rw [slot] at currentSlot
          cases currentSlot
          rw [configurable] at fixed
          cases fixed
        · have inside : other ∈ rest := split ▸ List.mem_append_left left member
          exact (pinned_congr (kept (apart inside))).not.mp (free other member)
      · intro stuck stopped
        have inside : stuck ∈ rest := by
          rw [split]
          exact List.mem_append_right front (List.mem_of_head? (stops.symm.trans stopped))
        exact (pinned_congr (kept (apart inside))).mp (pinned stuck stopped)

/-- Where the deletion of the elements from a low position to a high one comes to rest: at the low
position if no element between is pinned, and else just above the topmost that is. -/
inductive Rests (object : Object) (low high : Nat) : Nat → Prop
  | bottom (free : ∀ index, low ≤ index → index < high → ¬ object.Pinned index) :
      Rests object low high low
  | above {index : Nat} (atLeast : low ≤ index) (inside : index < high)
      (pinned : object.Pinned index)
      (topmost : ∀ other, other < high → object.Pinned other → other ≤ index) :
      Rests object low high (index + 1)

/-- What is left of an object when every element from a position on is gone and its length is
written: the other slots are as they were and are listed in the same order. -/
structure Truncated (object : Object) (position : Nat) (length : Property) (changed : Object) :
    Prop where
  length : changed.own? .length = some length
  own : ∀ key, key ≠ .length →
    changed.own? key = if key.isBelow position then object.own? key else none
  keys : changed.table.keys = object.table.keys.filter (Key.isBelow position)
  prototype : changed.prototype = object.prototype
  extensible : changed.extensible = object.extensible
  nature : object.SameNature changed

theorem Truncated.ownKeys {slot : Property} (truncated : object.Truncated position slot changed) :
    changed.ownKeys = object.ownKeys.filter (Key.isBelow position) :=
  ownKeys_of_keys_filter truncated.keys

/-- The length may be written again. -/
theorem Truncated.put {slot : Property} (truncated : object.Truncated position slot changed)
    (other : Property) : object.Truncated position other (changed.put .length other) where
  length := own?_put_self _ _ _
  own key different := by rw [own?_put_of_ne _ different, truncated.own key different]
  keys := by rw [keys_put, truncated.length, if_pos Option.isSome_some, truncated.keys]
  prototype := truncated.prototype
  extensible := truncated.extensible
  nature := truncated.nature.trans ⟨rfl, rfl⟩

/-! ### Moving the length down -/

/-- What is asked of a writable length is done. -/
theorem redefined?_of_asksLength {value : Value}
    (slot : object.own? .length = some (.data value true false false))
    (asks : descriptor.AsksLength) :
    object.redefined? .length descriptor = some (object.put .length
      (.data (descriptor.value.getD value) (descriptor.writable.getD true) false false)) := by
  obtain ⟨noAccessor, notEnumerable, notConfigurable⟩ := asks
  have admitted : (Property.data value true false false).admits descriptor = true := by
    have sameKind : (descriptor.isGeneric || descriptor.isAccessor == false) = true := by
      rw [noAccessor]
      exact Bool.or_true _
    have stays : (descriptor.configurable != some true) = true := by
      rw [bne_iff_ne]
      intro asked
      rw [asked] at notConfigurable
      cases notConfigurable
    have hidden : (descriptor.enumerable.all (· == false)) = true := by
      cases asked : descriptor.enumerable with
      | none => rfl
      | some flag =>
        rw [asked] at notEnumerable
        exact beq_iff_eq.mpr notEnumerable
    simp only [Property.admits, Property.configurable, Property.enumerable, Property.isAccessor,
      Property.keepsContent, sameKind, stays, hidden, Bool.and_true, Bool.or_true]
  rw [redefined?, slot]
  simp only [admitted, if_true, Property.revised, noAccessor, Property.enumerable,
    Property.configurable, notEnumerable, notConfigurable, Bool.false_eq_true, if_false]

/-- A writable length is made read-only. -/
theorem lengthLocked_of_own? {value : Value}
    (slot : object.own? .length = some (.data value true false false)) :
    object.lengthLocked = object.put .length (.data value false false false) := by
  rw [lengthLocked, redefined?_of_asksLength slot ⟨rfl, rfl, rfl⟩]
  rfl

/-- Of the descending indices from a low position on, those that were deleted are the ones above the
position at which the deletion stopped. -/
theorem truncated_erasedAll {slot : Property} {front : List Nat}
    (length : object.own? .length = some slot)
    (members : ∀ index, index ≤ maxArrayIndex → (object.own? (.ofIndex index)).isSome = true →
      (index ∈ front ↔ position ≤ index))
    (small : ∀ index ∈ front, position ≤ index ∧ index ≤ maxArrayIndex) :
    object.Truncated position slot (object.erasedAll (front.map .ofIndex)) := by
  have erased {key : Key} (owned : (object.own? key).isSome = true) :
      key ∈ front.map Key.ofIndex ↔ key.isBelow position = false := by
    rw [Key.isBelow]
    constructor
    · intro member
      obtain ⟨index, inside, rfl⟩ := List.mem_map.mp member
      rw [Key.arrayIndex?_ofIndex (small index inside).2, Option.all_some,
        decide_eq_false_iff_not, Nat.not_lt]
      exact (small index inside).1
    · cases spelled : key.arrayIndex? with
      | none => exact nofun
      | some index =>
        obtain ⟨rfl, bound⟩ := Key.arrayIndex?_eq_some.mp spelled
        intro above
        rw [Option.all_some, decide_eq_false_iff_not, Nat.not_lt] at above
        exact List.mem_map_of_mem ((members index bound owned).mpr above)
  have own (key : Key) : (object.erasedAll (front.map .ofIndex)).own? key =
      if key.isBelow position then object.own? key else none := by
    rw [own?_erasedAll]
    cases slot : object.own? key with
    | none => rw [ite_self, ite_self]
    | some property =>
      have owned : key ∈ front.map Key.ofIndex ↔ key.isBelow position = false :=
        erased (slot ▸ rfl)
      by_cases below : key.isBelow position = true
      · rw [if_pos below, if_neg fun member => by rw [owned.mp member] at below; cases below]
      · rw [if_neg below, if_pos (owned.mpr (Bool.eq_false_iff.mpr below))]
  refine ⟨?_, fun key _ => own key, ?_, ?_, ?_, ?_⟩
  · rw [own, Key.isBelow, Key.arrayIndex?_length]
    exact length
  · rw [keys_erasedAll]
    refine List.filter_congr fun key member => ?_
    have owned := erased (mem_table_keys.mp member)
    cases below : key.isBelow position with
    | true => exact decide_eq_true fun member => by rw [owned.mp member] at below; cases below
    | false => exact decide_eq_false (Decidable.not_not.mpr (owned.mpr below))
  · rw [erasedAll_frame]
  · rw [erasedAll_frame]
  · rw [erasedAll_frame]
    exact ⟨rfl, rfl⟩

/-- What the deletion of the elements from a low position on leaves behind, and where it stops. -/
theorem Deletions.truncated {slot : Property} {stop : Option Nat}
    (deleted : Deletions object (object.indicesFrom low) last stop)
    (length : object.own? .length = some slot) (below : object.IndicesBelow high)
    (bound : high ≤ maxLength) :
    (stop = none ∧ object.Rests low high low ∧ object.Truncated low slot last) ∨
      ∃ index, stop = some index ∧ low ≤ index ∧ object.Rests low high (index + 1) ∧
        object.Truncated (index + 1) slot last := by
  have descending := object.indicesFrom_descending low
  have owned (index : Nat) : index ∈ object.indicesFrom low ↔
      low ≤ index ∧ index ≤ maxArrayIndex ∧ (object.own? (.ofIndex index)).isSome = true := by
    rw [mem_indicesFrom, mem_indices]
  have listed {index : Nat} (above : low ≤ index) (inside : index < high)
      (pinned : object.Pinned index) : index ∈ object.indicesFrom low :=
    (owned index).mpr ⟨above, Nat.le_of_lt_succ (Nat.lt_of_lt_of_le inside bound), pinned.isSome⟩
  obtain ⟨front, rest, split, rfl, stops, free, stuck⟩ :=
    deleted.exists_front (descending.imp Nat.ne_of_gt) fun index member => ((owned index).mp member).2.2
  rw [split] at descending owned listed
  cases rest with
  | nil =>
    rw [List.append_nil] at owned listed
    refine Or.inl ⟨stops, .bottom fun index above inside pinned => ?_,
      truncated_erasedAll length ?_ ?_⟩
    · exact free index (listed above inside pinned) pinned
    · exact fun index small present => (owned index).trans (and_iff_left ⟨small, present⟩)
    · exact fun index member => ⟨((owned index).mp member).1, ((owned index).mp member).2.1⟩
  | cons index rest =>
    obtain ⟨atLeast, small, present⟩ :=
      (owned index).mp (List.mem_append_right front List.mem_cons_self)
    obtain ⟨_, fewer, higher⟩ := List.pairwise_append.mp descending
    -- What is listed above the index at which the deletion stopped was listed before it.
    have deletedAbove {other : Nat} (member : other ∈ front ++ index :: rest)
        (above : index < other) : other ∈ front := by
      rcases List.mem_append.mp member with inFront | later
      · exact inFront
      · rcases List.mem_cons.mp later with same | later
        · exact absurd same (Nat.ne_of_gt above)
        · exact absurd ((List.pairwise_cons.mp fewer).1 other later) (Nat.lt_asymm above)
    have inside : index < high := below _ _ present (Key.arrayIndex?_ofIndex small)
    refine Or.inr ⟨index, stops, atLeast,
      .above atLeast inside (stuck index stops) fun other less pinned => ?_,
      truncated_erasedAll length (fun other small present => ⟨fun member => ?_, fun above => ?_⟩)
        fun other member => ⟨?_, ?_⟩⟩
    · refine Nat.le_of_not_lt fun above => ?_
      have member := listed (Nat.le_trans atLeast (Nat.le_of_lt above)) less pinned
      exact free other (deletedAbove member above) pinned
    · exact higher other member index List.mem_cons_self
    · have reaches := Nat.le_trans atLeast (Nat.le_of_succ_le above)
      exact deletedAbove ((owned other).mpr ⟨reaches, small, present⟩) above
    · exact higher other member index List.mem_cons_self
    · exact ((owned other).mp (List.mem_append_left _ member)).2.1

/-- What is left of an array with another length is left of the array. -/
theorem Truncated.of_put_length {slot old new : Property}
    (truncated : (object.put .length new).Truncated position slot last)
    (length : object.own? .length = some old) : object.Truncated position slot last where
  length := truncated.length
  own key different := by rw [truncated.own key different, own?_put_of_ne _ different]
  keys := by rw [truncated.keys, keys_put, length, if_pos Option.isSome_some]
  prototype := truncated.prototype
  extensible := truncated.extensible
  nature := ⟨truncated.nature.kind, truncated.nature.callable⟩

/-- Whether elements are pinned is not a matter of the length. -/
theorem Rests.of_put_length {new : Property}
    (rests : (object.put .length new).Rests low high position) : object.Rests low high position := by
  have same (index : Nat) : (object.put .length new).Pinned index ↔ object.Pinned index :=
    pinned_congr (own?_put_of_ne object (Key.ofIndex_ne_length index) new)
  cases rests with
  | bottom free =>
    exact .bottom fun index above inside => (same index).not.mp (free index above inside)
  | above atLeast inside pinned topmost =>
    exact .above atLeast inside ((same _).mp pinned) fun other less otherPinned =>
      topmost other less ((same other).mpr otherPinned)

/-- There is one position at which the deletion comes to rest. -/
theorem Rests.unique {another : Nat} (first : object.Rests low high position)
    (second : object.Rests low high another) : position = another := by
  cases first with
  | bottom free =>
    cases second with
    | bottom _ => rfl
    | above atLeast inside pinned _ => exact absurd pinned (free _ atLeast inside)
  | above atLeast inside pinned topmost =>
    cases second with
    | bottom free => exact absurd pinned (free _ atLeast inside)
    | above atLeastToo insideToo pinnedToo topmostToo =>
      exact congrArg (· + 1) (Nat.le_antisymm (topmostToo _ inside pinned)
        (topmost _ insideToo pinnedToo))

/-- Moving a writable length down. All that is asked is done exactly if nothing was pinned; and a
length is made read-only when that is asked, even if it did not get as low as was asked. -/
theorem lengthDefined_of_lt (hasLength : object.HasLength high) (bound : high ≤ maxLength)
    (below : object.IndicesBelow high) (writable : object.lengthWritable = true)
    (less : low < high) (asks : descriptor.AsksLength) :
    ∃ position changed, object.Rests low high position ∧
      object.Truncated position (.data (.number (.ofNat position))
        (descriptor.writable != some false) false false) changed ∧
      object.lengthDefined low descriptor = (changed, decide (position = low)) := by
  obtain ⟨number, _, slot, _⟩ := id hasLength
  obtain ⟨_, _, _, writableSlot⟩ := lengthWritable_iff.mp writable
  rw [slot] at writableSlot
  cases writableSlot
  obtain ⟨shorter, written⟩ :
      ∃ shorter, shorter = object.put .length (.data (.number (.ofNat low)) true false false) :=
    ⟨_, rfl⟩
  have shortened : object.redefined? .length { descriptor with
      value := some (.number (.ofNat low)), writable := some true } = some shorter := by
    rw [written]
    exact redefined?_of_asksLength slot
      ⟨asks.noAccessor, asks.notEnumerable, asks.notConfigurable⟩
  have opened : ¬ object.arrayLength ≤ low := by
    rw [hasLength.arrayLength bound]
    exact Nat.not_le_of_lt less
  -- A request to make the length read-only is met last, on both ways out.
  have finish {position : Nat} {result : Object} (left : object.Truncated position
        (.data (.number (.ofNat position)) true false false) result) :
      object.Truncated position (.data (.number (.ofNat position))
        (descriptor.writable != some false) false false)
        (if descriptor.writable == some false then result.lengthLocked else result) := by
    by_cases locks : descriptor.writable = some false
    · rw [locks, beq_self_eq_true, if_pos rfl, lengthLocked_of_own? left.length]
      exact left.put _
    · rw [beq_eq_false_iff_ne.mpr locks, if_neg Bool.false_ne_true, bne_iff_ne.mpr locks]
      exact left
  have deleted := deletions shorter (shorter.indicesFrom low)
  rw [lengthDefined, if_neg opened, writable]
  simp only [Bool.not_true, Bool.false_eq_true, if_false, shortened]
  generalize shorter.deleteIndices (shorter.indicesFrom low) = result at deleted
  obtain ⟨last, stop⟩ := result
  subst written
  rcases deleted.truncated (own?_put_self _ _ _) (below.put_length _) bound with
    ⟨rfl, rests, left⟩ | ⟨index, rfl, atLeast, rests, left⟩
  · exact ⟨low, _, rests.of_put_length, finish (left.of_put_length slot),
      congrArg (Prod.mk _) (decide_eq_true rfl).symm⟩
  · have notMet : decide (index + 1 = low) = false :=
      decide_eq_false (Nat.ne_of_gt (Nat.lt_succ_of_le atLeast))
    refine ⟨index + 1, _, rests.of_put_length, finish ?_, congrArg (Prod.mk _) notMet.symm⟩
    rw [withLength_of_own? left.length]
    exact (left.of_put_length slot).put _

end Object

end EcmaCore
