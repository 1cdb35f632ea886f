/-
This file proves that conversion to JSON makes tidy trees, whatever the value is and
whatever the functions do that are called on the way. Numbers without a text became null,
strings were repaired, and the keys of a member list are those that the object listed
first, in that order. Keys that became equal when they were repaired share one place, the
first, so the order stays one in which an object lists its keys: only keys with a lone
surrogate change, and neither they nor what they become is an index.

A tree is also no deeper than the room that there was for containers.
-/

import EcmaCore.Json.Value
import EcmaCore.Proofs.Json.Writing
import EcmaCore.Proofs.Run.Course
import EcmaCore.Proofs.Text.Pieces

namespace EcmaCore.Json

/-! ### Repaired keys -/

theorem repaired_of_wellFormed {units : Units} (wellFormed : WellFormed units) :
    repaired units = units := unitsOf_lossy wellFormed

theorem wellFormed_repaired (units : Units) : WellFormed (repaired units) := wellFormed_unitsOf _

/-- A digit is written only where a digit was read. -/
theorem wellFormed_of_digits {units : Units} (digits : ∀ char ∈ lossyChars units, char.isDigit) :
    WellFormed units := by
  intro piece member
  cases piece with
  | scalar char => exact trivial
  | lone unit =>
    have replaced : '\uFFFD' ∈ lossyChars units := List.mem_map.mpr ⟨.lone unit, member, rfl⟩
    exact absurd (digits _ replaced) (by decide)

/-- A key that is no index is none after it was repaired. -/
theorem arrayIndex?_repaired {key : Key} (noIndex : key.arrayIndex? = none) :
    (Key.ofUnits (repaired key.units)).arrayIndex? = none := by
  cases key with
  | text name =>
    have same : repaired (Key.text name).units = (Key.text name).units :=
      repaired_of_wellFormed (wellFormed_unitsOf name)
    rw [same, Key.ofUnits_units]
    exact noIndex
  | raw units illFormed =>
    have text : Key.ofUnits (repaired units) = .text (lossy units) :=
      Key.ofUnits_units (.text (lossy units))
    rw [Key.units, text, Key.arrayIndex?, lossy, String.toList_ofList]
    by_contra index
    obtain ⟨index, spelled⟩ := Option.ne_none_iff_exists'.mp index
    have digits := (indexOfText?_eq_some.mp spelled).1
    refine illFormed (wellFormed_of_digits fun char member => ?_)
    rw [digits] at member
    exact Nat.isDigit_of_mem_toDigits (by decide) (by decide) member

theorem repaired_of_index {key : Key} {index : Nat} (spelled : key.arrayIndex? = some index) :
    repaired key.units = key.units := by
  obtain ⟨rfl, _⟩ := Key.arrayIndex?_eq_some.mp spelled
  exact repaired_of_wellFormed (wellFormed_unitsOf _)

/-- Keys in order become equal or stay in order when they are repaired. -/
theorem before_repaired {first second : Key} (before : first.Before second) :
    repaired first.units = repaired second.units ∨
      (Key.ofUnits (repaired first.units)).Before (Key.ofUnits (repaired second.units)) := by
  cases spelled : second.arrayIndex? with
  | some index =>
    obtain ⟨smaller, spelledFirst, _⟩ := before.2 index spelled
    rw [repaired_of_index spelled, repaired_of_index spelledFirst, Key.ofUnits_units,
      Key.ofUnits_units]
    exact Or.inr before
  | none =>
    refine or_iff_not_imp_left.mpr fun different => ?_
    refine Key.before_of_noIndex (fun equal => different ?_) (arrayIndex?_repaired spelled)
    rw [← Key.units_ofUnits (repaired first.units), equal, Key.units_ofUnits]

/-! ### Merged members -/

theorem mem_assign {key : Units} {tree : Tree} {written : List (Units × Tree)}
    {member : Units × Tree} (present : member ∈ assign key tree written) :
    member = (key, tree) ∨ member ∈ written := by
  induction written with
  | nil => exact Or.inl (List.mem_singleton.mp present)
  | cons entry rest inductionHypothesis =>
    rw [assign] at present
    split at present
    · rename_i same
      rcases List.mem_cons.mp present with first | later
      · exact Or.inl (by rw [first, same])
      · exact Or.inr (List.mem_cons_of_mem _ later)
    · rcases List.mem_cons.mp present with first | later
      · exact Or.inr (by rw [first]; exact List.mem_cons_self)
      · exact (inductionHypothesis later).imp_right (List.mem_cons_of_mem _)

/-- The units of member names are in the order in which an object lists its keys. -/
def NamesInOrder (members : List (Units × Tree)) : Prop :=
  Key.InOrder (members.map fun member => .ofUnits member.1)

/-- A member under a name that is there or comes after all names keeps the order. -/
theorem NamesInOrder.assign {written : List (Units × Tree)} (ordered : NamesInOrder written)
    {key : Units}
    (last : ∀ member ∈ written, member.1 = key ∨ (Key.ofUnits member.1).Before (.ofUnits key))
    (tree : Tree) : NamesInOrder (assign key tree written) := by
  have names (members : List (Units × Tree)) :
      members.map (fun member => Key.ofUnits member.1) =
        (members.map Prod.fst).map Key.ofUnits := by
    rw [List.map_map]
    rfl
  rw [NamesInOrder, names] at ordered ⊢
  rw [map_fst_assign]
  split
  · exact ordered
  · rename_i new
    rw [List.map_append]
    refine List.pairwise_append.mpr ⟨ordered, List.pairwise_singleton _ _, ?_⟩
    intro first member second single
    rw [← names] at member
    obtain ⟨entry, entryMember, rfl⟩ := List.mem_map.mp member
    rw [List.mem_singleton.mp single]
    refine (last entry entryMember).resolve_left fun same => new ?_
    exact List.mem_map.mpr ⟨entry, entryMember, same⟩

/-- A member that conversion may yield for a key: none, or one under the repaired key with a tree of
the given kind. -/
def MemberFor (good : Tree → Prop) (key : Key) (member : Option (Units × Tree)) : Prop :=
  ∀ entry ∈ member, entry.1 = repaired key.units ∧ good entry.2

/-- Members of keys in order are merged to members with names in order. -/
theorem namesInOrder_merged {good : Tree → Prop} {keys : List Key}
    {members : List (Option (Units × Tree))} (ordered : Key.InOrder keys)
    (yielded : List.Forall₂ (MemberFor good) keys members) :
    NamesInOrder (mergedMembers members) ∧
      ∀ entry ∈ mergedMembers members, WellFormed entry.1 ∧ good entry.2 := by
  -- What was written so far comes before the keys that are left.
  have general : ∀ written : List (Units × Tree), NamesInOrder written →
      (∀ entry ∈ written, WellFormed entry.1 ∧ good entry.2) →
      (∀ entry ∈ written, ∀ key ∈ keys, entry.1 = repaired key.units ∨
        (Key.ofUnits entry.1).Before (.ofUnits (repaired key.units))) →
      NamesInOrder (members.foldl (fun written member =>
          member.elim written fun entry => EcmaCore.assign entry.1 entry.2 written) written) ∧
        ∀ entry ∈ members.foldl (fun written member =>
          member.elim written fun entry => EcmaCore.assign entry.1 entry.2 written) written,
          WellFormed entry.1 ∧ good entry.2 := by
    induction yielded with
    | nil => exact fun written names sound _ => ⟨names, sound⟩
    | @cons key member keys members first others inductionHypothesis =>
      obtain ⟨before, ordered⟩ := List.pairwise_cons.mp ordered
      intro written names sound earlier
      rw [List.foldl_cons]
      cases member with
      | none =>
        exact inductionHypothesis ordered written names sound fun entry present other later =>
          earlier entry present other (List.mem_cons_of_mem key later)
      | some entry =>
        obtain ⟨units, tree⟩ := entry
        obtain ⟨rfl, treeGood⟩ := first _ rfl
        refine inductionHypothesis ordered _
          (names.assign (fun entry present => earlier entry present key List.mem_cons_self) tree)
          ?_ ?_
        · intro entry present
          rcases mem_assign present with rfl | present
          · exact ⟨wellFormed_repaired key.units, treeGood⟩
          · exact sound entry present
        · intro entry present other later
          rcases mem_assign present with rfl | present
          · exact before_repaired (before other later)
          · exact earlier entry present other (List.mem_cons_of_mem key later)
  exact general [] .nil (List.forall_mem_nil _) (List.forall_mem_nil _)

/-! ### Trees of a conversion -/

theorem elementsTidy_iff {elements : List Tree} :
    ElementsTidy elements ↔ ∀ tree ∈ elements, tree.Tidy := by
  induction elements with
  | nil => simp [ElementsTidy]
  | cons tree rest inductionHypothesis =>
    rw [ElementsTidy, inductionHypothesis, List.forall_mem_cons]

theorem membersTidy_iff {members : List (Units × Tree)} :
    MembersTidy members ↔ ∀ member ∈ members, WellFormed member.1 ∧ member.2.Tidy := by
  induction members with
  | nil => simp [MembersTidy]
  | cons member rest inductionHypothesis =>
    rw [MembersTidy, inductionHypothesis, List.forall_mem_cons, and_assoc]

theorem elementsDepth_le {elements : List Tree} {room : Nat} :
    elementsDepth elements ≤ room ↔ ∀ tree ∈ elements, tree.depth ≤ room := by
  induction elements with
  | nil => simp [elementsDepth]
  | cons tree rest inductionHypothesis =>
    rw [elementsDepth, Nat.max_le, inductionHypothesis, List.forall_mem_cons]

theorem membersDepth_le {members : List (Units × Tree)} {room : Nat} :
    membersDepth members ≤ room ↔ ∀ member ∈ members, member.2.depth ≤ room := by
  induction members with
  | nil => simp [membersDepth]
  | cons member rest inductionHypothesis =>
    rw [membersDepth, Nat.max_le, inductionHypothesis, List.forall_mem_cons]

/-- A tree that conversion may make where there is room for so many containers. -/
structure Sound (room : Nat) (tree : Tree) : Prop where
  tidy : tree.Tidy
  shallow : tree.depth ≤ room

/-- The result of a conversion is a sound tree or none. -/
def Converts (room : Nat) (run : Run (Option Tree)) : Prop :=
  run.Keeps .free fun result => ∀ tree ∈ result, Sound room tree

theorem sound_leaf {room : Nat} {tree : Tree} (tidy : tree.Tidy) (leaf : tree.depth = 0) :
    ∀ other ∈ some tree, Sound room other := by
  rintro other ⟨⟩
  exact ⟨tidy, leaf ▸ Nat.zero_le room⟩

theorem sound_ofNumber (room : Nat) (number : EcmaCore.Number) :
    ∀ tree ∈ some (Tree.ofNumber number), Sound room tree := by
  unfold Tree.ofNumber
  split
  · rename_i finite
    exact sound_leaf (by rwa [Tree.Tidy]) rfl
  · exact sound_leaf (by simp only [Tree.Tidy]) rfl

section Containers

variable (call : Caller) (realm : RealmId) {room : Nat} {inner : Value → Run (Option Tree)}
  (below : ∀ value, Converts room (inner value)) (id : ObjectId)

include below

theorem keeps_memberTree (key : Key) :
    (memberTree call realm inner id key).Keeps .free (MemberFor (Sound room) key) := by
  refine (Run.steady_free _).bind fun object => ?_
  split
  · refine (Run.steady_free _).bind fun value => (below value).bind fun tree sound => ?_
    refine Run.keeps_pure fun entry present => ?_
    obtain ⟨tree, told, rfl⟩ := Option.map_eq_some_iff.mp present
    exact ⟨rfl, sound tree told⟩
  · exact Run.keeps_pure nofun

theorem keeps_arrayTree :
    (arrayTree call realm inner id).Keeps .free fun tree => Sound (room + 1) tree := by
  refine (Run.steady_free _).bind fun length => ?_
  have element (index : Nat) : (do
      return (← inner (← get call realm id (.ofIndex index))).getD .null : Run Tree).Keeps .free
        fun tree => Sound room tree := by
    refine (Run.steady_free _).bind fun value => (below value).bind fun tree sound => ?_
    refine Run.keeps_pure ?_
    cases tree with
    | none =>
      have nullTidy : Tree.null.Tidy := by simp only [Tree.Tidy]
      exact sound_leaf nullTidy rfl _ rfl
    | some tree => exact sound tree rfl
  refine (Run.keeps_collect element length).bind fun elements sound => Run.keeps_pure ⟨?_, ?_⟩
  · rw [Tree.Tidy]
    exact elementsTidy_iff.mpr fun tree member => (sound tree member).tidy
  · rw [Tree.depth]
    exact Nat.succ_le_succ (elementsDepth_le.mpr fun tree member => (sound tree member).shallow)

theorem keeps_objectTree :
    (objectTree call realm inner id).Keeps .free fun tree => Sound (room + 1) tree := by
  refine (Run.steady_free _).bind fun object => ?_
  refine (Run.keeps_traverse (keeps_memberTree call realm below id) object.ownKeys).bind
    fun members yielded => Run.keeps_pure ?_
  obtain ⟨names, sound⟩ := namesInOrder_merged object.inOrder_ownKeys yielded
  refine ⟨?_, ?_⟩
  · rw [Tree.Tidy]
    exact ⟨names, membersTidy_iff.mpr fun member present =>
      ⟨(sound member present).1, (sound member present).2.tidy⟩⟩
  · rw [Tree.depth]
    exact Nat.succ_le_succ
      (membersDepth_le.mpr fun member present => (sound member present).2.shallow)

end Containers

/-- Conversion makes sound trees, whatever is called on the way. -/
theorem converts_treeWithin (call : Caller) (realm : RealmId) (room : Nat)
    (enclosing : List ObjectId) (value : Value) :
    Converts room (treeWithin call realm room enclosing value) := by
  induction room using Nat.strongRecOn generalizing enclosing value with
  | ind room inductionHypothesis =>
    unfold treeWithin
    refine (Run.steady_free _).bind fun result => ?_
    cases result with
    | undefined => exact Run.keeps_pure nofun
    | null => exact Run.keeps_pure (sound_leaf (by simp only [Tree.Tidy]) rfl)
    | boolean flag => exact Run.keeps_pure (sound_leaf (by simp only [Tree.Tidy]) rfl)
    | number number => exact Run.keeps_pure (sound_ofNumber room number)
    | string units =>
      exact Run.keeps_pure (sound_leaf (by rw [Tree.Tidy]; exact wellFormed_repaired units) rfl)
    | object id =>
      refine (Run.steady_free _).bind fun callable => ?_
      split
      · exact Run.keeps_pure nofun
      · split
        · exact Run.keeps_throw _
        · cases room with
          | zero => exact Run.keeps_throw _
          | succ inside =>
            have below := inductionHypothesis inside (Nat.lt_succ_self inside) (id :: enclosing)
            have found {tree : Tree} (sound : Sound (inside + 1) tree) :
                ∀ other ∈ some tree, Sound (inside + 1) other := by
              rintro other ⟨⟩
              exact sound
            refine (Run.steady_free _).bind fun array => ?_
            split
            · exact (keeps_arrayTree call realm below id).bind fun tree sound =>
                Run.keeps_pure (found sound)
            · exact (keeps_objectTree call realm below id).bind fun tree sound =>
                Run.keeps_pure (found sound)

/-- A text that was written is the compact text of a sound tree. -/
theorem sound_of_stringify {call : Caller} {realm : RealmId} {value : Value} {world after : World}
    {text : Units}
    (written : (stringify call realm value).outcome world = .done (some text) after) :
    ∃ tree, Sound maxDepth tree ∧ text = tree.compact := by
  have keeps : (stringify call realm value).Keeps .free
      fun result => ∀ text ∈ result, ∃ tree, Sound maxDepth tree ∧ text = tree.compact := by
    refine (converts_treeWithin call realm maxDepth [] value).bind fun tree sound =>
      Run.keeps_pure fun text present => ?_
    obtain ⟨tree, told, rfl⟩ := Option.map_eq_some_iff.mp present
    exact ⟨tree, sound tree told, rfl⟩
  exact (keeps.follows world trivial).goal_of_done written text rfl

end EcmaCore.Json
