/-
This file proves that a spelling does not depend on what stands after it. Every relation
of the grammar is between a text and the rest of it. What lies between the two is a piece
of text, and before any other rest the same piece spells the same.

So pieces can be put together in a new text: what was spelled in the text that a reader
has refused can be followed by something better.
-/

import EcmaCore.Proofs.Json.Reading

namespace EcmaCore.Json

open Grammar

/-- The text up to the rest is a piece that spells the same before any rest. -/
def Spelled (Spells : Units → Units → Prop) (text rest : Units) : Prop :=
  ∃ piece, text = piece ++ rest ∧ ∀ other, Spells (piece ++ other) other

namespace Spelled

variable {First Second Both : Units → Units → Prop} {text middle rest : Units}

theorem of_unit (unit : CodeUnit) (rest : Units) :
    Spelled (fun text rest => text = unit :: rest) (unit :: rest) rest :=
  ⟨[unit], rfl, fun _ => rfl⟩

theorem nothing (always : ∀ rest, Both rest rest) (rest : Units) : Spelled Both rest rest :=
  ⟨[], rfl, always⟩

/-- Of two pieces one after the other. -/
theorem seq (first : Spelled First text middle) (second : Spelled Second middle rest)
    (join : ∀ {text middle rest}, First text middle → Second middle rest → Both text rest) :
    Spelled Both text rest := by
  obtain ⟨front, rfl, first⟩ := first
  obtain ⟨back, rfl, second⟩ := second
  refine ⟨front ++ back, (List.append_assoc _ _ _).symm, fun other => ?_⟩
  rw [List.append_assoc]
  exact join (first _) (second other)

/-- Of one unit and a piece after it. -/
theorem cons {unit : CodeUnit} (second : Spelled Second middle rest)
    (join : ∀ {middle rest}, Second middle rest → Both (unit :: middle) rest) :
    Spelled Both (unit :: middle) rest :=
  (of_unit unit middle).seq second fun first second => first ▸ join second

/-- Of a piece and one unit after it. -/
theorem close {unit : CodeUnit} (first : Spelled First text (unit :: rest))
    (join : ∀ {text rest}, First text (unit :: rest) → Both text rest) :
    Spelled Both text rest :=
  first.seq (of_unit unit rest) fun first second => join (second ▸ first)

theorem imp (first : Spelled First text rest)
    (weaker : ∀ {text rest}, First text rest → Both text rest) : Spelled Both text rest := by
  obtain ⟨piece, split, first⟩ := first
  exact ⟨piece, split, fun other => weaker (first other)⟩

theorem length_le (spelled : Spelled Both text rest) : rest.length ≤ text.length := by
  obtain ⟨piece, rfl, _⟩ := spelled
  rw [List.length_append]
  exact Nat.le_add_left _ _

end Spelled

namespace Grammar

variable {text rest : Units}

/-! ### Tokens -/

theorem Blanks.spelled (blanks : Blanks text rest) : Spelled Blanks text rest := by
  induction blanks with
  | none text => exact .nothing .none text
  | more blank _ inductionHypothesis => exact inductionHypothesis.cons (Blanks.more blank)

theorem Digits.spelled {digits : List Nat} (digitsSpelled : Digits digits text rest) :
    Spelled (Digits digits) text rest := by
  induction digitsSpelled with
  | none text => exact .nothing .none text
  | more small _ inductionHypothesis => exact inductionHypothesis.cons (Digits.more small)

theorem Whole.spelled {whole : List Nat} (wholeSpelled : Whole whole text rest) :
    Spelled (Whole whole) text rest := by
  cases wholeSpelled with
  | zero rest => exact ⟨[0x30], rfl, .zero⟩
  | digits nonzero spelled => exact spelled.spelled.imp (Whole.digits nonzero)

theorem Fraction.spelled {fraction : List Nat} (fractionSpelled : Fraction fraction text rest) :
    Spelled (Fraction fraction) text rest := by
  cases fractionSpelled with
  | absent text => exact .nothing .absent text
  | present spelled => exact spelled.spelled.cons Fraction.present

theorem ExponentSign.spelled {negative : Bool} (signed : ExponentSign negative text rest) :
    Spelled (ExponentSign negative) text rest := by
  cases signed with
  | absent text => exact .nothing .absent text
  | plus text => exact ⟨[0x2B], rfl, .plus⟩
  | minus text => exact ⟨[0x2D], rfl, .minus⟩

theorem Exponent.spelled {negative : Bool} {exponent : List Nat}
    (exponentSpelled : Exponent negative exponent text rest) :
    Spelled (Exponent negative exponent) text rest := by
  cases exponentSpelled with
  | absent text => exact .nothing .absent text
  | @present letter _ digit others signedText unsigned _ named signed spelled =>
    have both : Spelled (fun text rest =>
        ∃ unsigned, ExponentSign negative text unsigned ∧ Digits (digit :: others) unsigned rest)
        signedText rest :=
      signed.spelled.seq spelled.spelled fun first second => ⟨_, first, second⟩
    exact both.cons fun ⟨_, signed, spelled⟩ => Exponent.present named signed spelled

theorem Unsigned.spelled {negative : Bool} {numeral : Numeral}
    (numberSpelled : Unsigned negative numeral text rest) :
    Spelled (Unsigned negative numeral) text rest := by
  obtain @⟨whole, fraction, exponent, exponentNegative, _, afterWhole, _, _, first, second,
    third⟩ := numberSpelled
  have later : Spelled (fun text rest => ∃ afterFraction, Fraction fraction text afterFraction ∧
      Exponent exponentNegative exponent afterFraction rest) afterWhole rest :=
    second.spelled.seq third.spelled fun second third => ⟨_, second, third⟩
  exact first.spelled.seq later fun first ⟨_, second, third⟩ => Unsigned.parts first second third

theorem Number.spelled {numeral : Numeral} (numberSpelled : Number numeral text rest) :
    Spelled (Number numeral) text rest := by
  cases numberSpelled with
  | positive spelled => exact spelled.spelled.imp Number.positive
  | negative spelled => exact spelled.spelled.cons Number.negative

theorem StringBody.spelled {units : Units} (body : StringBody units text rest) :
    Spelled (StringBody units) text rest := by
  induction body with
  | close rest => exact ⟨[0x22], rfl, .close⟩
  | raw printable noQuote noBackslash _ inductionHypothesis =>
    exact inductionHypothesis.cons (StringBody.raw printable noQuote noBackslash)
  | escape known _ inductionHypothesis =>
    obtain ⟨piece, rfl, others⟩ := inductionHypothesis
    exact ⟨0x5C :: _ :: piece, rfl, fun other => StringBody.escape known (others other)⟩
  | unicode high upper lower low _ inductionHypothesis =>
    obtain ⟨piece, rfl, others⟩ := inductionHypothesis
    exact ⟨0x5C :: 0x75 :: _ :: _ :: _ :: _ :: piece, rfl,
      fun other => StringBody.unicode high upper lower low (others other)⟩

theorem MemberKey.spelled {key : Units} (name : MemberKey key text rest) :
    Spelled (MemberKey key) text rest := by
  obtain ⟨before, spelled, between, last⟩ := name
  obtain ⟨blanks, rfl, movedBefore⟩ := before.spelled
  obtain ⟨body, rfl, movedSpelled⟩ := spelled.spelled
  obtain ⟨space, rfl, movedBetween⟩ := between.spelled
  obtain ⟨tail, rfl, movedLast⟩ := last.spelled
  refine ⟨blanks ++ 0x22 :: (body ++ (space ++ 0x3A :: tail)),
    by simp only [List.append_assoc, List.cons_append], fun other => ?_⟩
  simpa only [List.append_assoc, List.cons_append] using
    MemberKey.parts (movedBefore _) (movedSpelled _) (movedBetween _) (movedLast other)

/-! ### Values -/

section Lists

variable {Item : Tree → Units → Units → Prop} {room : Nat}
  (items : ∀ {tree text rest}, Item tree text rest → tree.depth < room →
    Spelled (Item tree) text rest)

include items

theorem Elements.spelled {trees : List Tree} (elements : Elements Item trees text rest)
    (shallow : elementsDepth trees < room) : Spelled (Elements Item trees) text rest := by
  induction elements with
  | last before item closed =>
    obtain ⟨blanks, rfl, movedBefore⟩ := before.spelled
    obtain ⟨piece, rfl, movedItem⟩ := items item (lt_of_le_of_lt (le_max_left _ _) shallow)
    obtain ⟨space, rfl, movedClosed⟩ := closed.spelled
    refine ⟨blanks ++ (piece ++ (space ++ [0x5D])),
      by simp only [List.append_assoc, List.singleton_append], fun other => ?_⟩
    simpa only [List.append_assoc, List.singleton_append] using
      Elements.last (movedBefore _) (movedItem _) (movedClosed (0x5D :: other))
  | more before item comma _ inductionHypothesis =>
    obtain ⟨blanks, rfl, movedBefore⟩ := before.spelled
    obtain ⟨piece, rfl, movedItem⟩ := items item (lt_of_le_of_lt (le_max_left _ _) shallow)
    obtain ⟨space, rfl, movedComma⟩ := comma.spelled
    obtain ⟨tail, rfl, movedOthers⟩ :=
      inductionHypothesis (lt_of_le_of_lt (le_max_right _ _) shallow)
    refine ⟨blanks ++ (piece ++ (space ++ 0x2C :: tail)),
      by simp only [List.append_assoc, List.cons_append], fun other => ?_⟩
    simpa only [List.append_assoc, List.cons_append] using
      Elements.more (movedBefore _) (movedItem _) (movedComma _) (movedOthers other)

theorem Members.spelled {entries : List (Units × Tree)} (members : Members Item entries text rest)
    (shallow : membersDepth entries < room) : Spelled (Members Item entries) text rest := by
  induction members with
  | last name item closed =>
    obtain ⟨front, rfl, movedName⟩ := name.spelled
    obtain ⟨piece, rfl, movedItem⟩ := items item (lt_of_le_of_lt (le_max_left _ _) shallow)
    obtain ⟨space, rfl, movedClosed⟩ := closed.spelled
    refine ⟨front ++ (piece ++ (space ++ [0x7D])),
      by simp only [List.append_assoc, List.singleton_append], fun other => ?_⟩
    simpa only [List.append_assoc, List.singleton_append] using
      Members.last (movedName _) (movedItem _) (movedClosed (0x7D :: other))
  | more name item comma _ inductionHypothesis =>
    obtain ⟨front, rfl, movedName⟩ := name.spelled
    obtain ⟨piece, rfl, movedItem⟩ := items item (lt_of_le_of_lt (le_max_left _ _) shallow)
    obtain ⟨space, rfl, movedComma⟩ := comma.spelled
    obtain ⟨tail, rfl, movedOthers⟩ :=
      inductionHypothesis (lt_of_le_of_lt (le_max_right _ _) shallow)
    refine ⟨front ++ (piece ++ (space ++ 0x2C :: tail)),
      by simp only [List.append_assoc, List.cons_append], fun other => ?_⟩
    simpa only [List.append_assoc, List.cons_append] using
      Members.more (movedName _) (movedItem _) (movedComma _) (movedOthers other)

end Lists

/-- A value stands before any rest, too. The induction is over the depth, since the lists inside a
value know nothing of it. -/
theorem Value.spelled {tree : Tree} (value : Value tree text rest) :
    Spelled (Value tree) text rest := by
  have bounded : ∀ (room : Nat) {tree : Tree} {text rest : Units}, Value tree text rest →
      tree.depth < room → Spelled (Value tree) text rest := by
    intro room
    induction room with
    | zero => exact fun _ shallow => absurd shallow (Nat.not_lt_zero _)
    | succ room inductionHypothesis =>
      intro tree text rest value shallow
      cases value with
      | null rest => exact ⟨_, rfl, .null⟩
      | trueWord rest => exact ⟨_, rfl, .trueWord⟩
      | falseWord rest => exact ⟨_, rfl, .falseWord⟩
      | number spelled denotes => exact spelled.spelled.imp fun spelled => .number spelled denotes
      | string spelled => exact spelled.spelled.cons Value.string
      | emptyArray closed => exact (closed.spelled.close id).cons Value.emptyArray
      | array spelled =>
        exact (spelled.spelled inductionHypothesis (Nat.lt_of_succ_lt_succ shallow)).cons
          Value.array
      | emptyObject closed => exact (closed.spelled.close id).cons Value.emptyObject
      | object spelled =>
        exact (spelled.spelled inductionHypothesis (Nat.lt_of_succ_lt_succ shallow)).cons
          Value.object
  exact bounded (tree.depth + 1) value (Nat.lt_succ_self _)

end Grammar

end EcmaCore.Json
