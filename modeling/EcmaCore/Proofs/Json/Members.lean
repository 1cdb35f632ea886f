/-
This file says which members conversion to JSON writes for an object of data. Each key
whose value JSON can say is repaired to a name, and there is one member for each name: it
stands where the first key with this name is listed, and it has the value of the last.

So no member is lost exactly if no two of the keys are repaired alike, which is the case
for keys without lone surrogates. Keys with lone surrogates may collapse, although the
object keeps them apart, lists them apart and is parsed with both of them.
-/

import EcmaCore.Proofs.Json.RoundTrip

namespace EcmaCore.Json

/-! ### One member for each name -/

section Names

variable (entries : List (Units × Tree))

theorem mergedMembers_concat (entry : Units × Tree) :
    mergedMembers ((entries ++ [entry]).map some) =
      assign entry.1 entry.2 (mergedMembers (entries.map some)) := by
  rw [mergedMembers, List.map_append, List.foldl_append]
  rfl

/-- A name keeps the first of its places. -/
theorem map_fst_mergedMembers :
    (mergedMembers (entries.map some)).map Prod.fst = (entries.map Prod.fst).eraseDups := by
  induction entries using List.reverseRecOn with
  | nil => rfl
  | append_singleton entries entry inductionHypothesis =>
    rw [mergedMembers_concat, map_fst_assign, inductionHypothesis, List.map_append,
      List.map_singleton, Object.eraseDups_concat]
    simp only [List.mem_eraseDups]

/-- A name takes the last of its trees. -/
theorem valueAt_mergedMembers {before after : List (Units × Tree)} {name : Units}
    (last : name ∉ after.map Prod.fst) (tree : Tree) :
    valueAt name (mergedMembers ((before ++ (name, tree) :: after).map some)) = some tree := by
  induction after using List.reverseRecOn with
  | nil => rw [mergedMembers_concat, valueAt_assign_self]
  | append_singleton after entry inductionHypothesis =>
    rw [List.map_append, List.mem_append, not_or, List.map_singleton, List.mem_singleton] at last
    rw [← List.cons_append, ← List.append_assoc, mergedMembers_concat,
      valueAt_assign_of_ne last.2, inductionHypothesis last.1]

end Names

/-- Nothing is dropped as a repetition exactly if nothing is repeated. -/
theorem length_eraseDups_eq_iff {α : Type} [BEq α] [LawfulBEq α] {values : List α} :
    values.eraseDups.length = values.length ↔ values.Nodup := by
  have atMost (values : List α) : values.eraseDups.length ≤ values.length := by
    induction values using List.reverseRecOn with
    | nil => exact Nat.le_refl 0
    | append_singleton values value inductionHypothesis =>
      rw [Object.eraseDups_concat]
      split <;> simp only [List.length_append, List.length_singleton] <;> omega
  refine ⟨fun same => ?_, fun distinct => by rw [Object.eraseDups_of_nodup distinct]⟩
  induction values using List.reverseRecOn with
  | nil => exact List.nodup_nil
  | append_singleton values value inductionHypothesis =>
    have bound := atMost values
    rw [Object.eraseDups_concat] at same
    split at same
    · rw [List.length_append, List.length_singleton] at same
      omega
    · rename_i new
      rw [List.length_append, List.length_append] at same
      refine List.nodup_append.mpr ⟨inductionHypothesis (Nat.add_right_cancel same),
        List.nodup_singleton value, fun other member single last equal => ?_⟩
      rw [List.mem_singleton.mp last] at equal
      exact new (equal ▸ member)

/-! ### Objects of data -/

variable {world : World} {id : ObjectId} {rank : Nat} {value : Value} {tree : Option Tree}

/-- A value tells a tree exactly if JSON can say it. -/
theorem Tells.isSome_eq (tells : Tells world rank value tree) :
    tree.isSome = world.writes value := by
  cases tells with
  | function rank inert callable => rw [World.writes, callable]; rfl
  | array inert plain => rw [writes_object plain]; rfl
  | object inert plain => rw [writes_object plain]; rfl
  | _ => rfl

theorem shown?_of_data {key : Key} (member : key ∈ (world.object id).enumerableKeys)
    (data : ∀ property, (world.object id).own? key = some property →
      property.isAccessor = false) :
    world.shown? id key = some ((world.object id).content key) := by
  obtain ⟨property, slot⟩ :=
    Option.isSome_iff_exists.mp (Object.mem_ownKeys.mp (List.mem_of_mem_filter member))
  cases property with
  | data value writable enumerable configurable =>
    rw [Object.content, slot]
    exact shown?_of_own? slot
  | accessor getter setter enumerable configurable => cases data _ slot

/-- The tree that a value tells is a sound one. -/
theorem sound_of_tells (call : Caller) (realm : RealmId) {tree : Tree}
    (tells : Tells world rank value (some tree)) (shallow : rank ≤ maxDepth) :
    Sound maxDepth tree :=
  ((converts_treeWithin call realm maxDepth [] value).follows world trivial).goal_of_done
    (tells.outcome_treeWithin call realm shallow
      fun _ member => absurd member List.not_mem_nil) tree rfl

/-- The names under which conversion writes the members of an object. -/
def writtenNames (world : World) (id : ObjectId) : List Units :=
  (world.writtenKeys id).map fun key => repaired key.units

/-- The text of an object of data, from which nothing is called, has one member for each name, in
the order in which the names are first listed. A member has the value of the last key with its name.
So there are as many members as keys whose values JSON can say exactly if no two of these keys have
the same name, and if the keys have no lone surrogates, they are the names. -/
theorem stringify_members (call : Caller) (realm : RealmId) (inert : world.Inert id)
    (plain : world.isCallable (.object id) = false)
    (noArray : world.isArray (.object id) = false)
    (data : ∀ key ∈ (world.object id).enumerableKeys, ∀ property,
      (world.object id).own? key = some property → property.isAccessor = false)
    (below : ∀ key ∈ (world.object id).enumerableKeys,
      ∃ told, Tells world rank ((world.object id).content key) told)
    (shallow : rank < maxDepth) :
    ∃ members text, (stringify call realm (.object id)).outcome world = .done (some text) world ∧
      Grammar.Document (.object members) text ∧
      members.map Prod.fst = (writtenNames world id).eraseDups ∧
      (∀ before key after told, world.writtenKeys id = before ++ key :: after →
        (∀ other ∈ after, repaired other.units ≠ repaired key.units) →
        Tells world rank ((world.object id).content key) (some told) →
        (repaired key.units, told.settled) ∈ members) ∧
      (members.length = (world.writtenKeys id).length ↔ (writtenNames world id).Nodup) ∧
      ((∀ key ∈ world.writtenKeys id, WellFormed key.units) →
        members.map Prod.fst = (world.writtenKeys id).map Key.units) := by
  choose! trees tell using below
  have tells := Tells.object inert plain noArray
    (fun key member => shown?_of_data member (data key member)) tell
  rw [mergedMembers_writtenKeys fun key member => (tell key member).isSome_eq] at tells
  -- Numbers are read from the text as they settle, under the same names.
  have document := (sound_of_tells call realm tells shallow).tidy.document_compact
  rw [Tree.settled, membersSettled_eq_map] at document
  have names : ((mergedMembers (((world.writtenKeys id).map fun key =>
      (repaired key.units, (trees key).getD .null)).map some)).map
        fun member => (member.1, member.2.settled)).map Prod.fst =
      (writtenNames world id).eraseDups := by
    rw [List.map_map]
    exact (map_fst_mergedMembers _).trans (by rw [List.map_map]; rfl)
  refine ⟨_, _, tells.outcome_stringify call realm shallow, document, names, ?_, ?_, ?_⟩
  case refine_1 =>
    intro before key after told listed last tellsLast
    have member : key ∈ (world.object id).enumerableKeys :=
      mem_enumerableKeys_of_written (listed ▸ List.mem_append_right _ List.mem_cons_self)
    have same : (trees key).getD .null = told := by
      rw [(tell key member).unique tellsLast, Option.getD_some]
    refine List.mem_map.mpr ⟨(repaired key.units, told), Table.mem_of_valueAt ?_, rfl⟩
    rw [listed, List.map_append, List.map_cons, same]
    refine valueAt_mergedMembers (fun repeated => ?_) told
    rw [List.map_map] at repeated
    obtain ⟨other, later, equal⟩ := List.mem_map.mp repeated
    exact last other later equal
  case refine_2 =>
    rw [← List.length_map (f := Prod.fst), names, ← length_eraseDups_eq_iff, writtenNames,
      List.length_map]
  case refine_3 =>
    intro wellFormed
    have units : writtenNames world id = (world.writtenKeys id).map Key.units :=
      List.map_congr_left fun key member => repaired_of_wellFormed (wellFormed key member)
    rw [names, units, Object.eraseDups_of_nodup (nodup_units_writtenKeys world id)]

/-- The object of the two surrogate keys. -/
abbrev surrogateObject : ObjectId := (World.fresh 1).nextId 0

/-- The object keeps its keys apart, and JSON can say the values of both, but their names are
equal. -/
theorem stringify_members_of_surrogate_keys :
    (surrogateWorld.writtenKeys surrogateObject).length = 2 ∧
      ∃ members text, (stringify (callWithin 1) 0 (.object surrogateObject)).outcome
          surrogateWorld = .done (some text) surrogateWorld ∧
        Grammar.Document (.object members) text ∧
        members.map Prod.fst = [unitsOf "\uFFFD"] := by
  have inert : surrogateWorld.Inert surrogateObject :=
    ⟨.undefined, by decide +kernel, by decide +kernel⟩
  have data : (surrogateWorld.object surrogateObject).DataOnly := by decide +kernel
  have listed : (surrogateWorld.object surrogateObject).enumerableKeys =
      [.ofUnits [0xD800], .ofUnits [0xD801]] := by decide +kernel
  have below : ∀ key ∈ (surrogateWorld.object surrogateObject).enumerableKeys, ∃ told,
      Tells surrogateWorld 0 ((surrogateWorld.object surrogateObject).content key) told := by
    have first : (surrogateWorld.object surrogateObject).content (.ofUnits [0xD800]) =
        .string [0xDFFF] := by decide +kernel
    have second : (surrogateWorld.object surrogateObject).content (.ofUnits [0xD801]) = .null := by
      decide +kernel
    rw [listed, List.forall_mem_cons, List.forall_mem_singleton, first, second]
    exact ⟨⟨_, .string 0 _⟩, ⟨_, .null 0⟩⟩
  obtain ⟨members, text, written, spelled, names, _⟩ := stringify_members (callWithin 1) 0 inert
    (by decide +kernel) (by decide +kernel) (fun key _ => data key) below (by decide)
  have once : (writtenNames surrogateWorld surrogateObject).eraseDups = [unitsOf "\uFFFD"] := by
    decide +kernel
  exact ⟨by decide +kernel, members, text, written, spelled, names.trans once⟩

/-- Of two keys with different units one is lost: the object lists both, and its text has one
member. -/
theorem stringify_loses_surrogate_key :
    surrogateWorld.writtenKeys surrogateObject = [.ofUnits [0xD800], .ofUnits [0xD801]] ∧
      Key.ofUnits [0xD800] ≠ .ofUnits [0xD801] ∧
      ((stringify (callWithin 1) 0 (.object surrogateObject)).outcome surrogateWorld).value? =
        some (some (unitsOf "\x7b\"\uFFFD\":null\x7d")) ∧
      Grammar.Document (.object [(unitsOf "\uFFFD", .null)])
        (unitsOf "\x7b\"\uFFFD\":null\x7d") := by
  have tidy : (Tree.object [(unitsOf "\uFFFD", .null)]).Tidy := by
    simp only [Tree.Tidy, MembersTidy, and_true]
    exact ⟨List.pairwise_singleton _ _, wellFormed_unitsOf _⟩
  have written : (Tree.object [(unitsOf "\uFFFD", .null)]).compact =
      unitsOf "\x7b\"\uFFFD\":null\x7d" := by decide +kernel
  exact ⟨by decide +kernel, by decide +kernel, by decide +kernel, written ▸ tidy.document_compact⟩

end EcmaCore.Json
