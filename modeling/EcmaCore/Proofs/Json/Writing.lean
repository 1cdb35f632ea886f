/-
This file proves that the compact text of a tree spells the tree, once each negative zero
in it is made positive. The text is put together from tokens without any blank: words,
numerals and strings, in which a unit stands for itself or is escaped. Nothing is asked
of the strings; only a number that is not finite has no text of its own.

A tree that comes from a value has more to it: its strings are well formed, and the keys
of its objects are those of an object in the order of listing.
-/

import EcmaCore.Proofs.Json.Tokens
import EcmaCore.Proofs.Number.Spelling
import EcmaCore.Proofs.Object.Listing

namespace EcmaCore.Json

open Grammar

/-! ### Trees -/

mutual

/-- The numbers of the tree are finite, its strings are well formed, and the keys of each object
are in the order of listing, so no two of them are the same. -/
def Tree.Tidy : Tree → Prop
  | .number value => value.isFinite = true
  | .string units => WellFormed units
  | .array elements => ElementsTidy elements
  | .object members => Key.InOrder (members.map fun member => .ofUnits member.1) ∧ MembersTidy members
  | _ => True

/-- The same for all elements. -/
def ElementsTidy : List Tree → Prop
  | [] => True
  | tree :: rest => tree.Tidy ∧ ElementsTidy rest

/-- The same for all members. -/
def MembersTidy : List (Units × Tree) → Prop
  | [] => True
  | (key, tree) :: rest => WellFormed key ∧ tree.Tidy ∧ MembersTidy rest

end

mutual

/-- The tree with each negative zero made positive. -/
def Tree.settled : Tree → Tree
  | .number value => .number value.settled
  | .array elements => .array (elementsSettled elements)
  | .object members => .object (membersSettled members)
  | leaf => leaf

/-- The same for all elements. -/
def elementsSettled : List Tree → List Tree
  | [] => []
  | tree :: rest => tree.settled :: elementsSettled rest

/-- The same for all members. -/
def membersSettled : List (Units × Tree) → List (Units × Tree)
  | [] => []
  | (key, tree) :: rest => (key, tree.settled) :: membersSettled rest

end

theorem elementsSettled_eq_map (elements : List Tree) :
    elementsSettled elements = elements.map Tree.settled := by
  induction elements with
  | nil => rfl
  | cons tree rest inductionHypothesis => rw [elementsSettled, inductionHypothesis, List.map_cons]

theorem membersSettled_eq_map (members : List (Units × Tree)) :
    membersSettled members = members.map fun member => (member.1, member.2.settled) := by
  induction members with
  | nil => rfl
  | cons member rest inductionHypothesis =>
    rw [membersSettled, inductionHypothesis, List.map_cons]

mutual

theorem Tree.depth_settled (tree : Tree) : tree.settled.depth = tree.depth := by
  cases tree with
  | array elements => rw [Tree.settled, Tree.depth, Tree.depth, elementsDepth_settled elements]
  | object members => rw [Tree.settled, Tree.depth, Tree.depth, membersDepth_settled members]
  | _ => rfl

theorem elementsDepth_settled (elements : List Tree) :
    elementsDepth (elementsSettled elements) = elementsDepth elements := by
  cases elements with
  | nil => rfl
  | cons tree rest =>
    rw [elementsSettled, elementsDepth, elementsDepth, tree.depth_settled,
      elementsDepth_settled rest]

theorem membersDepth_settled (members : List (Units × Tree)) :
    membersDepth (membersSettled members) = membersDepth members := by
  cases members with
  | nil => rfl
  | cons member rest =>
    rw [membersSettled, membersDepth, membersDepth, member.2.depth_settled,
      membersDepth_settled rest]

end

mutual

/-- A negative zero is written like the positive one. -/
theorem Tree.compact_settled (tree : Tree) : tree.settled.compact = tree.compact := by
  cases tree with
  | number value => rw [Tree.settled, Tree.compact, Tree.compact, Number.jsonText_settled]
  | array elements =>
    cases elements with
    | nil => rfl
    | cons first rest =>
      rw [Tree.settled, elementsSettled, Tree.compact, Tree.compact, first.compact_settled,
        compactElements_settled rest]
  | object members =>
    cases members with
    | nil => rfl
    | cons member rest =>
      rw [Tree.settled, membersSettled, Tree.compact, Tree.compact, member.2.compact_settled,
        compactMembers_settled rest]
  | _ => rfl

theorem compactElements_settled (elements : List Tree) :
    compactElements (elementsSettled elements) = compactElements elements := by
  cases elements with
  | nil => rfl
  | cons tree rest =>
    rw [elementsSettled, compactElements, compactElements, tree.compact_settled,
      compactElements_settled rest]

theorem compactMembers_settled (members : List (Units × Tree)) :
    compactMembers (membersSettled members) = compactMembers members := by
  cases members with
  | nil => rfl
  | cons member rest =>
    rw [membersSettled, compactMembers, compactMembers, member.2.compact_settled,
      compactMembers_settled rest]

end

/-! ### Strings -/

/-- A place of four hexadecimal digits is written as a digit with that value. -/
theorem hexDigit_spelled (value : Nat) :
    ∃ unit, unitsOfChar (hexDigit value) = [unit] ∧ HexDigit (value % 16) unit := by
  have digits : ∀ place < 16, unitsOfChar (Nat.digitChar place) =
        [UInt16.ofNat (Nat.digitChar place).toNat] ∧
      digitOfCode? 16 (UInt16.ofNat (Nat.digitChar place).toNat).toNat = some place := by decide
  obtain ⟨spelled, read⟩ := digits (value % 16) (Nat.mod_lt value (by decide))
  exact ⟨_, spelled, digitOfCode?_sixteen.mp read⟩

/-- An escape of four hexadecimal digits spells the unit. -/
theorem stringBody_fourHex (unit : CodeUnit) {units text rest : Units}
    (others : StringBody units text rest) :
    StringBody (unit :: units)
      (unitsOf (String.ofList ('\\' :: 'u' :: fourHex unit.toNat)) ++ text) rest := by
  obtain ⟨first, firstSpelled, high⟩ := hexDigit_spelled (unit.toNat / 0x1000)
  obtain ⟨second, secondSpelled, upper⟩ := hexDigit_spelled (unit.toNat / 0x100)
  obtain ⟨third, thirdSpelled, lower⟩ := hexDigit_spelled (unit.toNat / 0x10)
  obtain ⟨fourth, fourthSpelled, low⟩ := hexDigit_spelled unit.toNat
  have spelled : unitsOf (String.ofList ('\\' :: 'u' :: fourHex unit.toNat)) =
      [0x5C, 0x75, first, second, third, fourth] := by
    rw [unitsOf, String.toList_ofList, fourHex]
    simp only [List.flatMap_cons, List.flatMap_nil, firstSpelled, secondSpelled, thirdSpelled,
      fourthSpelled]
    rfl
  have code : unit.toNat / 0x1000 % 16 * 0x1000 + unit.toNat / 0x100 % 16 * 0x100 +
      unit.toNat / 0x10 % 16 * 0x10 + unit.toNat % 16 = unit.toNat := by
    have bound : unit.toNat < 0x10000 := unit.toNat_lt
    omega
  have body := StringBody.unicode high upper lower low others
  rw [code, UInt16.ofNat_toNat] at body
  rw [spelled]
  exact body

/-- Whatever stands for a unit between quotes spells the unit. -/
theorem stringBody_escapedUnit (unit : CodeUnit) {units text rest : Units}
    (others : StringBody units text rest) :
    StringBody (unit :: units) (escapedUnit unit ++ text) rest := by
  unfold escapedUnit
  split_ifs with quote backslash backspace tab lineFeed formFeed carriageReturn control
  · rw [quote]
    exact .escape .quote others
  · rw [backslash]
    exact .escape .backslash others
  · rw [backspace]
    exact .escape .backspace others
  · rw [tab]
    exact .escape .tab others
  · rw [lineFeed]
    exact .escape .lineFeed others
  · rw [formFeed]
    exact .escape .formFeed others
  · rw [carriageReturn]
    exact .escape .carriageReturn others
  · exact stringBody_fourHex unit others
  · exact .raw (Nat.le_of_not_lt control) quote backslash others

theorem stringBody_quotedUnits (units rest : Units) :
    StringBody units (units.flatMap escapedUnit ++ 0x22 :: rest) rest := by
  induction units with
  | nil => exact .close rest
  | cons unit units inductionHypothesis =>
    rw [List.flatMap_cons, List.append_assoc]
    exact stringBody_escapedUnit unit inductionHypothesis

theorem quotedUnits_append (units rest : Units) :
    quotedUnits units ++ rest = 0x22 :: (units.flatMap escapedUnit ++ 0x22 :: rest) := by
  rw [quotedUnits, List.cons_append, List.cons_append, List.append_assoc]
  rfl

/-! ### Numbers -/

theorem digits_digitChars {digits : List Nat} (small : ∀ digit ∈ digits, digit < 10)
    (rest : Units) : Digits digits ((digitChars digits).flatMap unitsOfChar ++ rest) rest := by
  induction digits with
  | nil => exact .none rest
  | cons digit digits inductionHypothesis =>
    have spelled : ∀ place < 10, unitsOfChar (Nat.digitChar place) =
        [UInt16.ofNat (0x30 + place)] := by decide
    have first := small digit List.mem_cons_self
    rw [digitChars, List.map_cons, List.flatMap_cons, spelled digit first]
    exact .more first
      (inductionHypothesis fun other member => small other (List.mem_cons_of_mem digit member))

theorem whole_digitChars {digits : List Nat} (small : ∀ digit ∈ digits, digit < 10)
    (shortest : ∃ first others, digits = first :: others ∧ (first = 0 → others = []))
    (rest : Units) : Whole digits ((digitChars digits).flatMap unitsOfChar ++ rest) rest := by
  obtain ⟨first, others, rfl, shortest⟩ := shortest
  by_cases zero : first = 0
  · rw [zero, shortest zero]
    exact .zero rest
  · exact .digits zero (digits_digitChars small rest)

theorem fraction_fractionChars {digits : List Nat} (small : ∀ digit ∈ digits, digit < 10)
    (rest : Units) :
    Fraction digits ((Numeral.fractionChars digits).flatMap unitsOfChar ++ rest) rest := by
  cases digits with
  | nil => exact .absent rest
  | cons digit others => exact .present (digits_digitChars small rest)

theorem exponent_exponentChars {digits : List Nat} (small : ∀ digit ∈ digits, digit < 10)
    {negative : Bool} (signed : digits = [] → negative = false) (rest : Units) :
    Exponent negative digits
      ((Numeral.exponentChars negative digits).flatMap unitsOfChar ++ rest) rest := by
  cases digits with
  | nil =>
    rw [signed rfl]
    exact .absent rest
  | cons digit others =>
    have spelled := digits_digitChars small rest
    cases negative with
    | false => exact .present (Or.inr rfl) (.plus _) spelled
    | true => exact .present (Or.inr rfl) (.minus _) spelled

theorem unsigned_unsignedChars {numeral : Numeral} (regular : numeral.Regular) (rest : Units) :
    Unsigned numeral.negative numeral (numeral.unsignedChars.flatMap unitsOfChar ++ rest) rest := by
  rw [Numeral.unsignedChars, List.flatMap_append, List.flatMap_append, List.append_assoc,
    List.append_assoc]
  exact .parts (whole_digitChars regular.whole regular.shortest _)
    (fraction_fractionChars regular.fraction _)
    (exponent_exponentChars regular.exponent regular.signed rest)

theorem number_written {numeral : Numeral} (regular : numeral.Regular) (rest : Units) :
    Grammar.Number numeral (numeral.written.flatMap unitsOfChar ++ rest) rest := by
  have unsigned := unsigned_unsignedChars regular rest
  unfold Numeral.written
  cases sign : numeral.negative with
  | false =>
    rw [sign] at unsigned
    exact .positive unsigned
  | true =>
    rw [sign] at unsigned
    exact .negative unsigned

/-- The text of a finite number spells the number, a negative zero excepted. -/
theorem value_jsonText {number : EcmaCore.Number} (finite : number.isFinite = true)
    (rest : Units) :
    Grammar.Value (.number number.settled) (unitsOf number.jsonText ++ rest) rest := by
  obtain ⟨numeral, regular, spelled, denotes⟩ := Number.exists_numeral_jsonText finite
  rw [spelled, unitsOf, String.toList_ofList]
  exact .number (number_written regular rest) denotes

/-! ### Values -/

/-- A key, a colon and what starts the value, with no blank before any of them. -/
theorem memberKey_quotedUnits (key start : Units) :
    MemberKey key (quotedUnits key ++ 0x3A :: start) start := by
  rw [quotedUnits_append]
  exact .parts (.none _) (stringBody_quotedUnits key _) (.none _) (.none start)

mutual

/-- The compact text of a tree spells the tree, once each negative zero is made positive. -/
theorem Tree.Tidy.value_compact {tree : Tree} (tidy : tree.Tidy) (rest : Units) :
    Grammar.Value tree.settled (tree.compact ++ rest) rest := by
  cases tree with
  | null => exact .null rest
  | boolean flag =>
    cases flag with
    | false => exact .falseWord rest
    | true => exact .trueWord rest
  | number value =>
    rw [Tree.Tidy] at tidy
    exact value_jsonText tidy rest
  | string units =>
    rw [Tree.compact, quotedUnits_append]
    exact .string (stringBody_quotedUnits units rest)
  | array elements =>
    cases elements with
    | nil => exact .emptyArray (.none _)
    | cons first others =>
      rw [Tree.Tidy, ElementsTidy] at tidy
      rw [Tree.compact, List.cons_append, List.cons_append, List.append_assoc]
      exact .array (elements_compact (fun after => tidy.1.value_compact after) tidy.2 rest)
  | object members =>
    cases members with
    | nil => exact .emptyObject (.none _)
    | cons member others =>
      rw [Tree.Tidy, MembersTidy] at tidy
      rw [Tree.compact, List.cons_append, List.cons_append, List.cons_append, List.append_assoc,
        List.append_assoc]
      exact .object (members_compact member.1 (fun after => tidy.2.2.1.value_compact after)
        tidy.2.2.2 rest)

/-- An element and the text of those after it. -/
theorem elements_compact {first : Tree} {text : Units}
    (spelled : ∀ after, Grammar.Value first (text ++ after) after) {others : List Tree}
    (tidy : ElementsTidy others) (rest : Units) :
    Elements Grammar.Value (first :: elementsSettled others)
      (text ++ (compactElements others ++ rest)) rest := by
  cases others with
  | nil => exact .last (.none _) (spelled _) (.none _)
  | cons next others =>
    rw [ElementsTidy] at tidy
    rw [compactElements, List.cons_append, List.cons_append, List.append_assoc]
    exact .more (.none _) (spelled _) (.none _)
      (elements_compact (fun after => tidy.1.value_compact after) tidy.2 rest)

/-- A member and the text of those after it. -/
theorem members_compact (key : Units) {first : Tree} {text : Units}
    (spelled : ∀ after, Grammar.Value first (text ++ after) after)
    {others : List (Units × Tree)} (tidy : MembersTidy others) (rest : Units) :
    Members Grammar.Value ((key, first) :: membersSettled others)
      (quotedUnits key ++ 0x3A :: (text ++ (compactMembers others ++ rest))) rest := by
  cases others with
  | nil => exact .last (memberKey_quotedUnits key _) (spelled _) (.none _)
  | cons next others =>
    rw [MembersTidy] at tidy
    rw [compactMembers, List.cons_append, List.cons_append, List.cons_append, List.append_assoc,
      List.append_assoc]
    exact .more (memberKey_quotedUnits key _) (spelled _) (.none _)
      (members_compact next.1 (fun after => tidy.2.1.value_compact after) tidy.2.2 rest)

end

/-- The compact text of a tree is a whole text. -/
theorem Tree.Tidy.document_compact {tree : Tree} (tidy : tree.Tidy) :
    Document tree.settled tree.compact := by
  have spelled := tidy.value_compact []
  rw [List.append_nil] at spelled
  exact .parts (.none _) spelled (.none _)

mutual

theorem Tree.Tidy.settled {tree : Tree} (tidy : tree.Tidy) : tree.settled.Tidy := by
  cases tree with
  | number value =>
    rw [Tree.Tidy] at tidy
    rw [Tree.settled, Tree.Tidy, Number.settled]
    split
    · rfl
    · exact tidy
  | array elements =>
    rw [Tree.Tidy] at tidy
    rw [Tree.settled, Tree.Tidy]
    exact tidy.elements_settled
  | object members =>
    rw [Tree.Tidy] at tidy
    rw [Tree.settled, Tree.Tidy]
    refine ⟨?_, tidy.2.members_settled⟩
    rw [membersSettled_eq_map, List.map_map]
    exact tidy.1
  | _ => exact tidy

theorem ElementsTidy.elements_settled {elements : List Tree} (tidy : ElementsTidy elements) :
    ElementsTidy (elementsSettled elements) := by
  cases elements with
  | nil => exact tidy
  | cons tree rest =>
    rw [ElementsTidy] at tidy
    rw [elementsSettled, ElementsTidy]
    exact ⟨tidy.1.settled, tidy.2.elements_settled⟩

theorem MembersTidy.members_settled {members : List (Units × Tree)}
    (tidy : MembersTidy members) : MembersTidy (membersSettled members) := by
  cases members with
  | nil => exact tidy
  | cons member rest =>
    rw [MembersTidy] at tidy
    rw [membersSettled, MembersTidy]
    exact ⟨tidy.1, tidy.2.1.settled, tidy.2.2.members_settled⟩

end

end EcmaCore.Json
