/-
This file is about the order in which an object lists its keys, over all that happens to it.
One change either takes keys out and leaves the others where they are, or puts one new key
last; only an object that is new comes with several. So of the keys that are there now the
ones that stand further back have been there for fewer states in a row: a key that is
written again keeps its place, and one that was deleted and came back starts anew.

Array indices do not follow this order. They are listed first and in ascending order,
whenever they came.
-/

import EcmaCore.Proofs.Object.Requests

namespace EcmaCore.Object

/-! ### Single changes -/

/-- The second object comes from the first by one change, as far as the keys show it. -/
inductive Turns (before after : Object) : Prop
  | kept (keep : Key → Bool) (keys : after.table.keys = before.table.keys.filter keep)
  | grown {key : Key} (new : key ∉ before.table.keys)
      (keys : after.table.keys = before.table.keys ++ [key])
  | made (empty : before.table.keys = [])

variable {object before after changed : Object} {key : Key} {descriptor : Descriptor}

theorem Turns.of_same (keys : after.table.keys = before.table.keys) : before.Turns after :=
  .kept (fun _ => true) (keys.trans (List.filter_true _).symm)

/-- What only shows in the values of slots may come on top. -/
theorem Turns.congr (turns : before.Turns after) (keys : changed.table.keys = after.table.keys) :
    before.Turns changed := by
  cases turns with
  | kept keep same => exact .kept keep (keys.trans same)
  | grown new same => exact .grown new (keys.trans same)
  | made empty => exact .made empty

theorem turns_put (object : Object) (key : Key) (property : Property) :
    object.Turns (object.put key property) := by
  have keys := object.keys_put key property
  split at keys
  · exact .of_same keys
  · rename_i absent
    exact .grown (fun member => absent (mem_table_keys.mp member)) keys

theorem turns_redefined? (allowed : object.redefined? key descriptor = some changed) :
    object.Turns changed := by
  obtain ⟨property, rfl⟩ := redefined?_eq_put allowed
  exact object.turns_put key property

theorem keys_deleted? (allowed : object.deleted? key = some changed) :
    changed.table.keys = object.table.keys.filter (· ≠ key) := by
  rcases deleted?_eq_some allowed with ⟨absent, rfl⟩ | ⟨_, _, _, rfl⟩
  · refine (List.filter_eq_self.mpr fun other member => ?_).symm
    have owned := mem_table_keys.mp member
    refine decide_eq_true ?_
    rintro rfl
    rw [absent] at owned
    cases owned
  · exact Table.keys_erase object.table key

/-- Deletions one after another leave some of the keys, in their order. -/
theorem Deletions.exists_keep {indices : List Nat} {last : Object} {stop : Option Nat}
    (deleted : Deletions object indices last stop) :
    ∃ keep, last.table.keys = object.table.keys.filter keep := by
  induction deleted with
  | all object => exact ⟨fun _ => true, (List.filter_true _).symm⟩
  | stuck rest refused => exact ⟨fun _ => true, (List.filter_true _).symm⟩
  | more allowed others inductionHypothesis =>
    obtain ⟨keep, keys⟩ := inductionHypothesis
    rw [keys_deleted? allowed, List.filter_filter] at keys
    exact ⟨_, keys⟩

theorem turns_elementDefined? {index : Nat}
    (allowed : object.elementDefined? index descriptor = some changed) : object.Turns changed := by
  rw [elementDefined?] at allowed
  split at allowed
  · cases allowed
  · obtain ⟨filled, defined, rfl⟩ := Option.map_eq_some_iff.mp allowed
    have turns := turns_redefined? defined
    split
    · exact turns.congr (keys_withLength filled _)
    · exact turns

/-- The slot of a length is written first, if at all. From then on it is there, and what follows
adds nothing. -/
theorem LengthSteps.turns {length : Nat} (steps : LengthSteps object length descriptor changed) :
    changed = object ∨ object.Turns changed ∧ (changed.own? .length).isSome = true := by
  have written {request : Descriptor} {written : Object}
      (allowed : object.redefined? .length request = some written) :
      object.Turns written ∧ (written.own? .length).isSome = true := by
    obtain ⟨property, rfl⟩ := redefined?_eq_put allowed
    exact ⟨object.turns_put .length property, by rw [own?_put_self]; rfl⟩
  have shortened {shorter emptied : Object} {stop : Option Nat} {request : Descriptor}
      (writable : object.lengthWritable = true)
      (allowed : object.redefined? .length request = some shorter)
      (deleted : Deletions shorter (shorter.indicesFrom length) emptied stop) :
      object.Turns emptied ∧ (emptied.own? .length).isSome = true := by
    obtain ⟨_, _, _, slot⟩ := lengthWritable_iff.mp writable
    obtain ⟨property, rfl⟩ := redefined?_eq_put allowed
    obtain ⟨keep, keys⟩ := deleted.exists_keep
    rw [keys_put, slot, if_pos Option.isSome_some] at keys
    exact ⟨.kept keep keys, by rw [deleted.own?_length, own?_put_self]; rfl⟩
  induction steps with
  | refused => exact Or.inl rfl
  | written above allowed => exact Or.inr (written allowed)
  | emptied writable below allowed deleted => exact Or.inr (shortened writable allowed deleted)
  | stuck writable below allowed deleted =>
    obtain ⟨turns, present⟩ := shortened writable allowed deleted
    refine Or.inr ⟨turns.congr (keys_withLength _ _), ?_⟩
    rw [← mem_table_keys, keys_withLength, mem_table_keys]
    exact present
  | locked before inductionHypothesis =>
    rename_i settled
    cases defined : settled.redefined? .length { writable := some false } with
    | none =>
      rw [lengthLocked, defined]
      exact inductionHypothesis
    | some changed =>
      rw [lengthLocked, defined, Option.getD_some]
      rcases inductionHypothesis with rfl | ⟨turns, present⟩
      · exact Or.inr (written defined)
      · obtain ⟨property, rfl⟩ := redefined?_eq_put defined
        refine Or.inr ⟨turns.congr ?_, by rw [own?_put_self]; rfl⟩
        rw [keys_put, if_pos present]

theorem turns_lengthDefined (object : Object) (length : Nat) (descriptor : Descriptor) :
    object.Turns (object.lengthDefined length descriptor).1 := by
  rcases (object.lengthSteps length descriptor).turns with same | ⟨turns, _⟩
  · exact .of_same (by rw [same])
  · exact turns

/-- Whatever is done to an object by a definition or a deletion is one change of its keys. -/
theorem Step.turns {asked : Descriptor → Prop} (step : object.Step asked changed) :
    object.Turns changed := by
  cases step with
  | defined _ _ _ allowed => exact turns_redefined? allowed
  | element _ _ allowed => exact turns_elementDefined? allowed
  | length => exact object.turns_lengthDefined _ _
  | deleted allowed => exact .kept _ (keys_deleted? allowed)

/-! ### Ages -/

/-- For how many states in a row, up to the latest, the object has had the key. The latest state
comes first. -/
def age (history : List Object) (key : Key) : Nat :=
  (history.takeWhile fun object => (object.own? key).isSome).length

/-- The first key was last created before the second: it has been there for longer, or both came
with the same state, in which the first is listed before the second. -/
def CreatedBefore (history : List Object) (first second : Key) : Prop :=
  age history second < age history first ∨
    age history second = age history first ∧
      ∃ object, history[age history first - 1]? = some object ∧
        List.Sublist [first, second] object.ownKeys

/-- The own keys of the latest state: each of them once, the array indices first, in ascending
order, and then the others in the order in which they were last created. -/
structure ListsByAge (object : Object) (history : List Object) : Prop where
  nodup : object.ownKeys.Nodup
  mem_iff : ∀ key, key ∈ object.ownKeys ↔ (object.own? key).isSome = true
  parts : ∃ (indices : List Nat) (others : List Key),
    object.ownKeys = indices.map .ofIndex ++ others ∧
    indices.Pairwise (· < ·) ∧ (∀ index ∈ indices, index ≤ maxArrayIndex) ∧
    (∀ key ∈ others, key.arrayIndex? = none) ∧ others.Pairwise (CreatedBefore history)

variable {history : List Object} {first second : Key}

theorem age_cons_of_mem (member : key ∈ object.table.keys) :
    age (object :: history) key = age history key + 1 := by
  rw [age, List.takeWhile_cons, if_pos (mem_table_keys.mp member), List.length_cons, age]

theorem age_cons_of_not_mem (absent : key ∉ object.table.keys) :
    age (object :: history) key = 0 := by
  rw [age, List.takeWhile_cons, if_neg (fun owned => absent (mem_table_keys.mpr owned)),
    List.length_nil]

/-- The order of creation, with the table to tell which of two keys that came together is first. -/
def EnteredBefore (history : List Object) (first second : Key) : Prop :=
  age history second < age history first ∨
    age history second = age history first ∧
      ∃ object, history[age history first - 1]? = some object ∧
        List.Sublist [first, second] object.table.keys

/-- Of the keys that are no indices the table and the listing have the same order. -/
theorem EnteredBefore.created (entered : EnteredBefore history first second)
    (noIndex : first.arrayIndex? = none) (noIndexToo : second.arrayIndex? = none) :
    CreatedBefore history first second := by
  rcases entered with older | ⟨same, object, present, listed⟩
  · exact Or.inl older
  · refine Or.inr ⟨same, object, present, ?_⟩
    have others := listed.filter fun key => key.arrayIndex?.isNone
    rw [List.filter_cons_of_pos (by rw [noIndex]; rfl),
      List.filter_cons_of_pos (by rw [noIndexToo]; rfl), List.filter_nil] at others
    exact others.trans (List.sublist_append_right _ _)

/-- Keys that stay, stay in order. -/
theorem EnteredBefore.cons (entered : EnteredBefore (before :: history) first second)
    (owned : first ∈ before.table.keys) (stays : first ∈ object.table.keys)
    (staysToo : second ∈ object.table.keys) :
    EnteredBefore (object :: before :: history) first second := by
  rw [EnteredBefore, age_cons_of_mem stays, age_cons_of_mem staysToo]
  rcases entered with older | ⟨same, state, present, listed⟩
  · exact Or.inl (Nat.succ_lt_succ older)
  · refine Or.inr ⟨congrArg (· + 1) same, state, ?_, listed⟩
    rw [age_cons_of_mem owned] at present ⊢
    exact present

/-- Keys that came together with the latest state are in the order of its table. -/
theorem enteredBefore_of_new (listed : List.Sublist [first, second] object.table.keys)
    (new : age history first = 0) (newToo : age history second = 0) :
    EnteredBefore (object :: history) first second := by
  have both := listed.subset
  have firstAge : age (object :: history) first = age history first + 1 :=
    age_cons_of_mem (both List.mem_cons_self)
  have secondAge : age (object :: history) second = age history second + 1 :=
    age_cons_of_mem (both (List.mem_cons_of_mem _ List.mem_cons_self))
  refine Or.inr ⟨by rw [firstAge, secondAge, new, newToo], object, ?_, listed⟩
  rw [firstAge, new]
  rfl

/-- The table of the latest state has its keys in the order in which they were last created. The
induction is on the history: a change keeps the order of what stays, and what is new comes last. -/
theorem pairwise_enteredBefore (turns : (object :: history).IsChain fun later earlier =>
    earlier.Turns later) : object.table.keys.Pairwise (EnteredBefore (object :: history)) := by
  induction history generalizing object with
  | nil =>
    exact List.pairwise_iff_forall_sublist.mpr fun listed => enteredBefore_of_new listed rfl rfl
  | cons before history inductionHypothesis =>
    obtain ⟨turn, earlier⟩ := List.isChain_cons_cons.mp turns
    have ordered := inductionHypothesis earlier
    cases turn with
    | kept keep keys =>
      have stays : ∀ {key}, key ∈ before.table.keys.filter keep → key ∈ object.table.keys :=
        fun member => keys ▸ member
      rw [keys]
      refine (ordered.sublist List.filter_sublist).imp_of_mem fun first second entered => ?_
      exact entered.cons (List.mem_filter.mp first).1 (stays first) (stays second)
    | grown new keys =>
      rename_i key
      have stays : ∀ {other}, other ∈ before.table.keys → other ∈ object.table.keys :=
        fun member => keys ▸ List.mem_append_left _ member
      rw [keys]
      refine List.pairwise_append.mpr ⟨ordered.imp_of_mem fun first second entered =>
        entered.cons first (stays first) (stays second), List.pairwise_singleton _ _, ?_⟩
      intro other member last isLast
      obtain rfl := List.mem_singleton.mp isLast
      refine Or.inl ?_
      rw [age_cons_of_mem (stays member), age_cons_of_mem member,
        age_cons_of_mem (keys ▸ List.mem_append_right _ isLast), age_cons_of_not_mem new]
      exact Nat.succ_lt_succ (Nat.succ_pos _)
    | made empty =>
      have new : ∀ key, age (before :: history) key = 0 :=
        fun key => age_cons_of_not_mem (by rw [empty]; exact List.not_mem_nil)
      exact List.pairwise_iff_forall_sublist.mpr fun listed =>
        enteredBefore_of_new listed (new _) (new _)

/-- After any changes, one after another, an object lists its keys by age. -/
theorem listsByAge (turns : (object :: history).IsChain fun later earlier =>
    earlier.Turns later) : object.ListsByAge (object :: history) := by
  obtain ⟨indices, ascending, members, listed⟩ := object.ownKeys_parts
  have noIndex : ∀ key ∈ object.table.keys.filter fun key => key.arrayIndex?.isNone,
      key.arrayIndex? = none :=
    fun key member => Option.isNone_iff_eq_none.mp (List.mem_filter.mp member).2
  refine ⟨object.inOrder_ownKeys.nodup, fun key => mem_ownKeys, indices, _, listed, ascending,
    fun index member => ((members index).mp member).1, noIndex, ?_⟩
  refine ((pairwise_enteredBefore turns).sublist List.filter_sublist).imp_of_mem ?_
  exact fun first second entered => entered.created (noIndex _ first) (noIndex _ second)

end EcmaCore.Object
