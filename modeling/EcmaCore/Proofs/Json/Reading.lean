/-
This file proves that the reader of values accepts exactly the grammar up to the depth
it is given, and that it complains about depth exactly where a text goes too deep
before it breaks any other rule.

Values and the lists inside them are read by mutual recursion, but the readers of
lists take the reader of one item as an argument. So what has to be known of a reader
is a structure of its own, `Reads`, and the main result is an induction over the depth
that is left: a reader of lists keeps the promises of `Reads` if the reader of items
does.
-/

import EcmaCore.Proofs.Json.Tokens
import Mathlib.Tactic.IntervalCases

namespace EcmaCore.Json

open Grammar

/-! ### Where spellings start and how they shrink the text -/

theorem isJsonBlank_of_digit {unit : CodeUnit}
    (digit : (digitOfCode? 10 unit.toNat).isSome = true) :
    isJsonBlank unit = false ∧ unit ≠ 0x5D := by
  obtain ⟨value, read⟩ := Option.isSome_iff_exists.mp digit
  obtain ⟨small, rfl⟩ := digitOfCode?_ten.mp read
  interval_cases value <;> decide

theorem unitsOf_null : unitsOf "null" = [0x6E, 0x75, 0x6C, 0x6C] := by decide

theorem unitsOf_true : unitsOf "true" = [0x74, 0x72, 0x75, 0x65] := by decide

theorem unitsOf_false : unitsOf "false" = [0x66, 0x61, 0x6C, 0x73, 0x65] := by decide

/-- A value starts with a unit that neither is blank nor closes an array. -/
theorem Grammar.Value.starts {tree : Tree} {text rest : Units}
    (spelled : Grammar.Value tree text rest) :
    ∃ unit others, text = unit :: others ∧ isJsonBlank unit = false ∧ unit ≠ 0x5D := by
  cases spelled with
  | null rest => exact ⟨0x6E, _, by rw [unitsOf_null]; rfl, by decide, by decide⟩
  | trueWord rest => exact ⟨0x74, _, by rw [unitsOf_true]; rfl, by decide, by decide⟩
  | falseWord rest => exact ⟨0x66, _, by rw [unitsOf_false]; rfl, by decide, by decide⟩
  | number spelled _ =>
    obtain ⟨unit, others, rfl, rfl | digit⟩ := spelled.starts
    · exact ⟨_, _, rfl, by decide, by decide⟩
    · exact ⟨_, _, rfl, isJsonBlank_of_digit digit⟩
  | string spelled => exact ⟨_, _, rfl, by decide, by decide⟩
  | emptyArray closed => exact ⟨_, _, rfl, by decide, by decide⟩
  | array spelled => exact ⟨_, _, rfl, by decide, by decide⟩
  | emptyObject closed => exact ⟨_, _, rfl, by decide, by decide⟩
  | object spelled => exact ⟨_, _, rfl, by decide, by decide⟩

theorem Grammar.Overflows.starts {room : Nat} {text : Units} (deeper : Overflows room text) :
    ∃ unit others, text = unit :: others ∧ isJsonBlank unit = false ∧ unit ≠ 0x5D := by
  cases deeper with
  | bracket text => exact ⟨_, _, rfl, by decide, by decide⟩
  | brace text => exact ⟨_, _, rfl, by decide, by decide⟩
  | array opened deeper => exact ⟨_, _, rfl, by decide, by decide⟩
  | object opened deeper => exact ⟨_, _, rfl, by decide, by decide⟩

theorem Grammar.Blanks.length_le {text rest : Units} (blanks : Blanks text rest) :
    rest.length ≤ text.length := by
  induction blanks with
  | none _ => exact le_rfl
  | more _ _ inductionHypothesis => exact Nat.le_succ_of_le inductionHypothesis

theorem Grammar.Digits.length_le {digits : List Nat} {text rest : Units}
    (spelled : Digits digits text rest) : rest.length ≤ text.length := by
  induction spelled with
  | none _ => exact le_rfl
  | more _ _ inductionHypothesis => exact Nat.le_succ_of_le inductionHypothesis

theorem Grammar.Unsigned.length_lt {negative : Bool} {numeral : Numeral} {text rest : Units}
    (spelled : Unsigned negative numeral text rest) : rest.length < text.length := by
  obtain @⟨whole, fraction, exponent, exponentNegative, _, afterWhole, afterFraction, _,
    first, second, third⟩ := spelled
  have firstShrinks : afterWhole.length < text.length := by
    cases first with
    | zero _ => exact Nat.lt_succ_self _
    | digits _ spelled =>
      cases spelled with
      | more _ others => exact Nat.lt_succ_of_le others.length_le
  have secondShrinks : afterFraction.length ≤ afterWhole.length := by
    cases second with
    | absent _ => exact le_rfl
    | present spelled => exact Nat.le_succ_of_le spelled.length_le
  have thirdShrinks : rest.length ≤ afterFraction.length := by
    cases third with
    | absent _ => exact le_rfl
    | present _ signed spelled =>
      cases signed with
      | absent _ => exact Nat.le_succ_of_le spelled.length_le
      | plus _ => exact Nat.le_succ_of_le (Nat.le_succ_of_le spelled.length_le)
      | minus _ => exact Nat.le_succ_of_le (Nat.le_succ_of_le spelled.length_le)
  omega

theorem Grammar.StringBody.length_lt {units text rest : Units}
    (spelled : StringBody units text rest) : rest.length < text.length := by
  induction spelled with
  | close _ => exact Nat.lt_succ_self _
  | raw _ _ _ _ inductionHypothesis => exact Nat.lt_succ_of_lt inductionHypothesis
  | escape _ _ inductionHypothesis =>
    exact Nat.lt_succ_of_lt (Nat.lt_succ_of_lt inductionHypothesis)
  | unicode _ _ _ _ _ inductionHypothesis =>
    simp only [List.length_cons]
    omega

theorem Grammar.MemberKey.length_lt {key text start : Units} (name : MemberKey key text start) :
    start.length < text.length := by
  obtain ⟨before, spelled, between, last⟩ := name
  have first := before.length_le
  have second := spelled.length_lt
  have third := between.length_le
  have fourth := last.length_le
  simp only [List.length_cons] at first third
  omega

/-- Elements take something of the text if each of them does. -/
theorem Grammar.Elements.length_lt {Item : Tree → Units → Units → Prop} {room : Nat}
    (shrinks : ∀ tree text rest, Item tree text rest → tree.depth < room →
      rest.length < text.length)
    {trees : List Tree} {text rest : Units} (spelled : Elements Item trees text rest)
    (shallow : elementsDepth trees < room) : rest.length < text.length := by
  induction spelled with
  | last before item closed =>
    have first := before.length_le
    have second := shrinks _ _ _ item (lt_of_le_of_lt (le_max_left _ _) shallow)
    have third := closed.length_le
    simp only [List.length_cons] at third
    omega
  | more before item comma _ inductionHypothesis =>
    have first := before.length_le
    have second := shrinks _ _ _ item (lt_of_le_of_lt (le_max_left _ _) shallow)
    have third := comma.length_le
    have fourth := inductionHypothesis (lt_of_le_of_lt (le_max_right _ _) shallow)
    simp only [List.length_cons] at third
    omega

/-- Members take something of the text if the value of each of them does. -/
theorem Grammar.Members.length_lt {Item : Tree → Units → Units → Prop} {room : Nat}
    (shrinks : ∀ tree text rest, Item tree text rest → tree.depth < room →
      rest.length < text.length)
    {members : List (Units × Tree)} {text rest : Units}
    (spelled : Members Item members text rest) (shallow : membersDepth members < room) :
    rest.length < text.length := by
  induction spelled with
  | last name item closed =>
    have first := name.length_lt
    have second := shrinks _ _ _ item (lt_of_le_of_lt (le_max_left _ _) shallow)
    have third := closed.length_le
    simp only [List.length_cons] at third
    omega
  | more name item comma _ inductionHypothesis =>
    have first := name.length_lt
    have second := shrinks _ _ _ item (lt_of_le_of_lt (le_max_left _ _) shallow)
    have third := comma.length_le
    have fourth := inductionHypothesis (lt_of_le_of_lt (le_max_right _ _) shallow)
    simp only [List.length_cons] at third
    omega

/-- A value takes something of the text. The induction is over the depth, since the lists inside a
value know nothing of it. -/
theorem Grammar.Value.length_lt {tree : Tree} {text rest : Units}
    (spelled : Grammar.Value tree text rest) : rest.length < text.length := by
  have bounded : ∀ (room : Nat) (tree : Tree) (text rest : Units), Grammar.Value tree text rest →
      tree.depth < room → rest.length < text.length := by
    intro room
    induction room with
    | zero => exact fun _ _ _ _ shallow => absurd shallow (Nat.not_lt_zero _)
    | succ room inductionHypothesis =>
      intro tree text rest spelled shallow
      cases spelled with
      | null _ => rw [unitsOf_null, List.length_append]; exact Nat.lt_add_of_pos_left (by decide)
      | trueWord _ =>
        rw [unitsOf_true, List.length_append]
        exact Nat.lt_add_of_pos_left (by decide)
      | falseWord _ =>
        rw [unitsOf_false, List.length_append]
        exact Nat.lt_add_of_pos_left (by decide)
      | number spelled _ =>
        cases spelled with
        | positive spelled => exact spelled.length_lt
        | negative spelled => exact Nat.lt_succ_of_lt spelled.length_lt
      | string spelled => exact Nat.lt_succ_of_lt spelled.length_lt
      | emptyArray closed =>
        exact Nat.lt_succ_of_lt (lt_of_lt_of_le (Nat.lt_succ_self _) closed.length_le)
      | array spelled =>
        exact Nat.lt_succ_of_lt
          (spelled.length_lt inductionHypothesis (Nat.lt_of_succ_lt_succ shallow))
      | emptyObject closed =>
        exact Nat.lt_succ_of_lt (lt_of_lt_of_le (Nat.lt_succ_self _) closed.length_le)
      | object spelled =>
        exact Nat.lt_succ_of_lt
          (spelled.length_lt inductionHypothesis (Nat.lt_of_succ_lt_succ shallow))
  exact bounded (tree.depth + 1) tree text rest spelled (Nat.lt_succ_self _)

/-! ### What is asked of a reader of items -/

/-- The reader accepts exactly the values that nest at most `room` deep, as long as nothing
prolongs a number, and complains about depth exactly where a text goes deeper. -/
structure Reads (room : Nat) (reader : Reader Tree) : Prop where
  sound : ∀ {text : Units} {tree : Tree} {rest : Units}, reader text = .ok (tree, rest) →
    Grammar.Value tree text rest ∧ tree.depth ≤ room
  complete : ∀ {text : Units} {tree : Tree} {rest : Units}, Grammar.Value tree text rest →
    tree.depth ≤ room → EndsNumber rest → reader text = .ok (tree, rest)
  deep : ∀ {text : Units} {stop : Stop}, reader text = .error stop → ¬ stop.Shallow →
    Overflows room text
  overflow : ∀ {text : Units}, Overflows room text →
    ∃ stop, reader text = .error stop ∧ ¬ stop.Shallow

/-- Blanks, a comma or a closing bracket do not prolong a number. -/
theorem Grammar.Blanks.endsNumber {text rest : Units} {unit : CodeUnit}
    (blanks : Blanks text (unit :: rest)) (mark : unit = 0x2C ∨ unit = 0x5D ∨ unit = 0x7D) :
    EndsNumber text := by
  intro first member
  cases blanks with
  | none _ =>
    cases member
    rcases mark with rfl | rfl | rfl <;> decide
  | more blank _ =>
    cases member
    rcases blank with rfl | rfl | rfl | rfl <;> decide

theorem Grammar.Blanks.endsNumber_of_nil {text : Units} (blanks : Blanks text []) :
    EndsNumber text := by
  intro first member
  cases blanks with
  | none _ => cases member
  | more blank _ =>
    cases member
    rcases blank with rfl | rfl | rfl | rfl <;> decide

/-- The blanks before an item are skipped up to its start. -/
theorem Grammar.Blanks.skipBlanks_start {text start : Units} (blanks : Blanks text start)
    (starts : ∃ unit others, start = unit :: others ∧ isJsonBlank unit = false ∧ unit ≠ 0x5D) :
    skipBlanks text = start := by
  obtain ⟨unit, others, rfl, dark, _⟩ := starts
  exact blanks.skipBlanks_cons dark

/-! ### Elements -/

section Elements

variable {room : Nat} {reader : Reader Tree}

theorem elements_of_close {bound : Nat} {text after left : Units} {tree : Tree}
    (itemRead : reader (skipBlanks text) = .ok (tree, after))
    (closed : skipBlanks after = 0x5D :: left) :
    elements reader (bound + 1) text = .ok ([tree], left) := by
  simp only [elements, itemRead, bind, Except.bind, closed]

theorem elements_of_comma {bound : Nat} {text after next : Units} {tree : Tree}
    (itemRead : reader (skipBlanks text) = .ok (tree, after))
    (comma : skipBlanks after = 0x2C :: next) :
    elements reader (bound + 1) text =
      (elements reader bound next).map fun (trees, left) => (tree :: trees, left) := by
  simp only [elements, itemRead, bind, Except.bind, comma]
  rfl

/-- What happens in one round: the item is refused, a comma leads to the next round, a bracket
closes the array, or another unit stands where one of the two should. -/
theorem elements_cases {bound : Nat} {text : Units} {result : Except Stop (List Tree × Units)}
    (read : elements reader (bound + 1) text = result) :
    (∃ stop, reader (skipBlanks text) = .error stop ∧ result = .error stop) ∨
      ∃ tree after, reader (skipBlanks text) = .ok (tree, after) ∧
        ((∃ next, skipBlanks after = 0x2C :: next ∧
            result = (elements reader bound next).map fun (trees, left) => (tree :: trees, left)) ∨
          (∃ left, skipBlanks after = 0x5D :: left ∧ result = .ok ([tree], left)) ∨
          result = unexpected (skipBlanks after)) := by
  subst read
  cases itemRead : reader (skipBlanks text) with
  | error stop => exact Or.inl ⟨stop, rfl, by simp only [elements, itemRead, bind, Except.bind]⟩
  | ok item =>
    obtain ⟨tree, after⟩ := item
    refine Or.inr ⟨tree, after, rfl, ?_⟩
    simp only [elements, itemRead, bind, Except.bind]
    split
    · rename_i next comma
      exact Or.inl ⟨next, comma, rfl⟩
    · rename_i left closed
      exact Or.inr (Or.inl ⟨left, closed, rfl⟩)
    · exact Or.inr (Or.inr rfl)

/-- An item between its blanks and the mark after it is read as a whole. -/
theorem Reads.item_eq (reads : Reads room reader) {text start after rest : Units} {tree : Tree}
    {mark : CodeUnit} (before : Blanks text start) (item : Grammar.Value tree start after)
    (shallow : tree.depth ≤ room) (blanks : Blanks after (mark :: rest))
    (known : mark = 0x2C ∨ mark = 0x5D ∨ mark = 0x7D) :
    reader (skipBlanks text) = .ok (tree, after) := by
  rw [before.skipBlanks_start item.starts]
  exact reads.complete item shallow (blanks.endsNumber known)

theorem Reads.elements_ok (reads : Reads room reader) {bound : Nat} {text rest : Units}
    {trees : List Tree} (read : elements reader bound text = .ok (trees, rest)) :
    Elements Grammar.Value trees text rest ∧ elementsDepth trees ≤ room := by
  induction bound generalizing text trees with
  | zero => cases read
  | succ bound inductionHypothesis =>
    have before := blanks_skipBlanks text
    rcases elements_cases read with ⟨_, _, equal⟩ | ⟨tree, after, itemRead, ending⟩
    · cases equal
    obtain ⟨item, shallow⟩ := reads.sound itemRead
    have blanks := blanks_skipBlanks after
    rcases ending with ⟨next, comma, equal⟩ | ⟨left, closed, equal⟩ | equal
    · obtain ⟨⟨others, left⟩, othersRead, equal⟩ := map_eq_ok.mp equal.symm
      cases equal
      rw [comma] at blanks
      obtain ⟨spelled, othersShallow⟩ := inductionHypothesis othersRead
      exact ⟨Elements.more before item blanks spelled, max_le shallow othersShallow⟩
    · cases equal
      rw [closed] at blanks
      exact ⟨Elements.last before item blanks, max_le shallow (Nat.zero_le _)⟩
    · cases equal

theorem Reads.elements_eq (reads : Reads room reader) {trees : List Tree} {text rest : Units}
    (spelled : Elements Grammar.Value trees text rest) (shallow : elementsDepth trees ≤ room)
    {bound : Nat} (enough : text.length ≤ bound) :
    elements reader bound text = .ok (trees, rest) := by
  induction spelled generalizing bound with
  | last before item closed =>
    have first := before.length_le
    have second := item.length_lt
    obtain ⟨bound, rfl⟩ := Nat.exists_eq_succ_of_ne_zero (n := bound) (by omega)
    exact elements_of_close
      (reads.item_eq before item (le_trans (le_max_left _ _) shallow) closed (by decide))
      (closed.skipBlanks_cons (by decide))
  | more before item comma _ inductionHypothesis =>
    have first := before.length_le
    have second := item.length_lt
    have third := comma.length_le
    rw [List.length_cons] at third
    obtain ⟨bound, rfl⟩ := Nat.exists_eq_succ_of_ne_zero (n := bound) (by omega)
    have itemRead :=
      reads.item_eq before item (le_trans (le_max_left _ _) shallow) comma (by decide)
    rw [elements_of_comma itemRead (comma.skipBlanks_cons (by decide)),
      inductionHypothesis (le_trans (le_max_right _ _) shallow) (by omega)]
    rfl

theorem Reads.elements_deep (reads : Reads room reader) {bound : Nat} {text : Units} {stop : Stop}
    (read : elements reader bound text = .error stop) (deep : ¬ stop.Shallow) :
    ∃ start, ArrayStart room text start ∧ Overflows room start := by
  induction bound generalizing text with
  | zero => exact absurd (unexpected_shallow read) deep
  | succ bound inductionHypothesis =>
    have before := blanks_skipBlanks text
    rcases elements_cases read with ⟨_, itemRead, equal⟩ | ⟨tree, after, itemRead, ending⟩
    · cases equal
      exact ⟨_, ArrayStart.first before, reads.deep itemRead deep⟩
    obtain ⟨item, shallow⟩ := reads.sound itemRead
    have blanks := blanks_skipBlanks after
    rcases ending with ⟨next, comma, equal⟩ | ⟨left, closed, equal⟩ | equal
    · rw [comma] at blanks
      obtain ⟨start, opened, deeper⟩ := inductionHypothesis (map_eq_error.mp equal.symm)
      exact ⟨start, ArrayStart.next before item shallow blanks opened, deeper⟩
    · cases equal
    · exact absurd (unexpected_shallow equal.symm) deep

theorem Reads.elements_overflow (reads : Reads room reader) {text start : Units}
    (opened : ArrayStart room text start) (deeper : Overflows room start) {bound : Nat}
    (enough : text.length ≤ bound) :
    ∃ stop, elements reader bound text = .error stop ∧ ¬ stop.Shallow := by
  induction opened generalizing bound with
  | first before =>
    obtain ⟨unit, others, rfl, _⟩ := deeper.starts
    have first := before.length_le
    rw [List.length_cons] at first
    obtain ⟨bound, rfl⟩ := Nat.exists_eq_succ_of_ne_zero (n := bound) (by omega)
    obtain ⟨stop, read, deep⟩ := reads.overflow deeper
    refine ⟨stop, bind_eq_error.mpr (Or.inl ?_), deep⟩
    rw [before.skipBlanks_start deeper.starts]
    exact read
  | next before item shallow comma _ inductionHypothesis =>
    have first := before.length_le
    have second := item.length_lt
    have third := comma.length_le
    rw [List.length_cons] at third
    obtain ⟨bound, rfl⟩ := Nat.exists_eq_succ_of_ne_zero (n := bound) (by omega)
    obtain ⟨stop, read, deep⟩ := inductionHypothesis deeper
      (Nat.le_of_lt_succ (lt_of_lt_of_le (by omega) enough))
    have itemRead := reads.item_eq before item shallow comma (by decide)
    refine ⟨stop, ?_, deep⟩
    rw [elements_of_comma itemRead (comma.skipBlanks_cons (by decide)), read]
    rfl

end Elements

/-! ### Members -/

theorem memberKey_ok {text key start : Units} (read : memberKey text = .ok (key, start)) :
    MemberKey key text start := by
  have before := blanks_skipBlanks text
  rw [memberKey] at read
  split at read
  · rename_i body quote
    obtain ⟨⟨name, after⟩, keyRead, read⟩ := bind_eq_ok.mp read
    have between := blanks_skipBlanks after
    dsimp only at read
    split at read
    · rename_i left colon
      cases read
      rw [quote] at before
      rw [colon] at between
      exact MemberKey.parts before (stringBody_ok keyRead) between (blanks_skipBlanks left)
    · cases read
  · cases read

/-- The key of a member is read up to a value that starts with no blank. -/
theorem Grammar.MemberKey.memberKey_eq {key text start : Units} (name : MemberKey key text start)
    (starts : ∃ unit others, start = unit :: others ∧ isJsonBlank unit = false ∧ unit ≠ 0x5D) :
    memberKey text = .ok (key, start) := by
  obtain ⟨before, spelled, between, last⟩ := name
  rw [memberKey, before.skipBlanks_cons (by decide)]
  refine bind_eq_ok.mpr ⟨_, spelled.stringBody_eq, ?_⟩
  dsimp only
  rw [between.skipBlanks_cons (by decide)]
  exact congrArg (fun left => Except.ok (key, left)) (last.skipBlanks_start starts)

theorem memberKey_shallow {text : Units} {stop : Stop} (read : memberKey text = .error stop) :
    stop.Shallow := by
  rw [memberKey] at read
  split at read
  · rcases bind_eq_error.mp read with early | ⟨_, _, late⟩
    · exact stringBody_shallow early
    · dsimp only at late
      split at late
      · cases late
      · exact unexpected_shallow late
  · exact unexpected_shallow read

section Members

variable {room : Nat} {reader : Reader Tree}

theorem members_of_close {bound : Nat} {text key start after left : Units} {tree : Tree}
    (keyRead : memberKey text = .ok (key, start)) (itemRead : reader start = .ok (tree, after))
    (closed : skipBlanks after = 0x7D :: left) :
    members reader (bound + 1) text = .ok ([(key, tree)], left) := by
  simp only [members, keyRead, itemRead, bind, Except.bind, closed]

theorem members_of_comma {bound : Nat} {text key start after next : Units} {tree : Tree}
    (keyRead : memberKey text = .ok (key, start)) (itemRead : reader start = .ok (tree, after))
    (comma : skipBlanks after = 0x2C :: next) :
    members reader (bound + 1) text =
      (members reader bound next).map fun (others, left) => ((key, tree) :: others, left) := by
  simp only [members, keyRead, itemRead, bind, Except.bind, comma]
  rfl

/-- What happens in one round: the key or the value is refused, a comma leads to the next round, a
brace closes the object, or another unit stands where one of the two should. -/
theorem members_cases {bound : Nat} {text : Units}
    {result : Except Stop (List (Units × Tree) × Units)}
    (read : members reader (bound + 1) text = result) :
    (∃ stop, memberKey text = .error stop ∧ result = .error stop) ∨
      ∃ key start, memberKey text = .ok (key, start) ∧
        ((∃ stop, reader start = .error stop ∧ result = .error stop) ∨
          ∃ tree after, reader start = .ok (tree, after) ∧
            ((∃ next, skipBlanks after = 0x2C :: next ∧
                result = (members reader bound next).map
                  fun (others, left) => ((key, tree) :: others, left)) ∨
              (∃ left, skipBlanks after = 0x7D :: left ∧ result = .ok ([(key, tree)], left)) ∨
              result = unexpected (skipBlanks after))) := by
  subst read
  cases keyRead : memberKey text with
  | error stop => exact Or.inl ⟨stop, rfl, by simp only [members, keyRead, bind, Except.bind]⟩
  | ok pair =>
    obtain ⟨key, start⟩ := pair
    refine Or.inr ⟨key, start, rfl, ?_⟩
    cases itemRead : reader start with
    | error stop =>
      exact Or.inl ⟨stop, rfl, by simp only [members, keyRead, itemRead, bind, Except.bind]⟩
    | ok item =>
      obtain ⟨tree, after⟩ := item
      refine Or.inr ⟨tree, after, rfl, ?_⟩
      simp only [members, keyRead, itemRead, bind, Except.bind]
      split
      · rename_i next comma
        exact Or.inl ⟨next, comma, rfl⟩
      · rename_i left closed
        exact Or.inr (Or.inl ⟨left, closed, rfl⟩)
      · exact Or.inr (Or.inr rfl)

theorem Reads.members_ok (reads : Reads room reader) {bound : Nat} {text rest : Units}
    {entries : List (Units × Tree)} (read : members reader bound text = .ok (entries, rest)) :
    Members Grammar.Value entries text rest ∧ membersDepth entries ≤ room := by
  induction bound generalizing text entries with
  | zero => cases read
  | succ bound inductionHypothesis =>
    rcases members_cases read with ⟨_, _, equal⟩ | ⟨key, start, keyRead, ending⟩
    · cases equal
    have name := memberKey_ok keyRead
    rcases ending with ⟨_, _, equal⟩ | ⟨tree, after, itemRead, ending⟩
    · cases equal
    obtain ⟨item, shallow⟩ := reads.sound itemRead
    have blanks := blanks_skipBlanks after
    rcases ending with ⟨next, comma, equal⟩ | ⟨left, closed, equal⟩ | equal
    · obtain ⟨⟨others, left⟩, othersRead, equal⟩ := map_eq_ok.mp equal.symm
      cases equal
      rw [comma] at blanks
      obtain ⟨spelled, othersShallow⟩ := inductionHypothesis othersRead
      exact ⟨Members.more name item blanks spelled, max_le shallow othersShallow⟩
    · cases equal
      rw [closed] at blanks
      exact ⟨Members.last name item blanks, max_le shallow (Nat.zero_le _)⟩
    · cases equal

theorem Reads.members_eq (reads : Reads room reader) {entries : List (Units × Tree)}
    {text rest : Units} (spelled : Members Grammar.Value entries text rest)
    (shallow : membersDepth entries ≤ room) {bound : Nat} (enough : text.length ≤ bound) :
    members reader bound text = .ok (entries, rest) := by
  induction spelled generalizing bound with
  | last name item closed =>
    have first := name.length_lt
    obtain ⟨bound, rfl⟩ := Nat.exists_eq_succ_of_ne_zero (n := bound) (by omega)
    exact members_of_close (name.memberKey_eq item.starts)
      (reads.complete item (le_trans (le_max_left _ _) shallow) (closed.endsNumber (by decide)))
      (closed.skipBlanks_cons (by decide))
  | more name item comma _ inductionHypothesis =>
    have first := name.length_lt
    have second := item.length_lt
    have third := comma.length_le
    rw [List.length_cons] at third
    obtain ⟨bound, rfl⟩ := Nat.exists_eq_succ_of_ne_zero (n := bound) (by omega)
    have itemRead :=
      reads.complete item (le_trans (le_max_left _ _) shallow) (comma.endsNumber (by decide))
    rw [members_of_comma (name.memberKey_eq item.starts) itemRead
        (comma.skipBlanks_cons (by decide)),
      inductionHypothesis (le_trans (le_max_right _ _) shallow) (by omega)]
    rfl

theorem Reads.members_deep (reads : Reads room reader) {bound : Nat} {text : Units} {stop : Stop}
    (read : members reader bound text = .error stop) (deep : ¬ stop.Shallow) :
    ∃ start, ObjectStart room text start ∧ Overflows room start := by
  induction bound generalizing text with
  | zero => exact absurd (unexpected_shallow read) deep
  | succ bound inductionHypothesis =>
    rcases members_cases read with ⟨_, keyRead, equal⟩ | ⟨key, start, keyRead, ending⟩
    · cases equal
      exact absurd (memberKey_shallow keyRead) deep
    have name := memberKey_ok keyRead
    rcases ending with ⟨_, itemRead, equal⟩ | ⟨tree, after, itemRead, ending⟩
    · cases equal
      exact ⟨start, ObjectStart.first name, reads.deep itemRead deep⟩
    obtain ⟨item, shallow⟩ := reads.sound itemRead
    have blanks := blanks_skipBlanks after
    rcases ending with ⟨next, comma, equal⟩ | ⟨left, closed, equal⟩ | equal
    · rw [comma] at blanks
      obtain ⟨start, opened, deeper⟩ := inductionHypothesis (map_eq_error.mp equal.symm)
      exact ⟨start, ObjectStart.next name item shallow blanks opened, deeper⟩
    · cases equal
    · exact absurd (unexpected_shallow equal.symm) deep

theorem Reads.members_overflow (reads : Reads room reader) {text start : Units}
    (opened : ObjectStart room text start) (deeper : Overflows room start) {bound : Nat}
    (enough : text.length ≤ bound) :
    ∃ stop, members reader bound text = .error stop ∧ ¬ stop.Shallow := by
  induction opened generalizing bound with
  | first name =>
    have first := name.length_lt
    obtain ⟨bound, rfl⟩ := Nat.exists_eq_succ_of_ne_zero (n := bound) (by omega)
    obtain ⟨stop, read, deep⟩ := reads.overflow deeper
    exact ⟨stop, bind_eq_error.mpr (Or.inr
      ⟨_, name.memberKey_eq deeper.starts, bind_eq_error.mpr (Or.inl read)⟩), deep⟩
  | next name item shallow comma _ inductionHypothesis =>
    have first := name.length_lt
    have second := item.length_lt
    have third := comma.length_le
    rw [List.length_cons] at third
    obtain ⟨bound, rfl⟩ := Nat.exists_eq_succ_of_ne_zero (n := bound) (by omega)
    obtain ⟨stop, read, deep⟩ := inductionHypothesis deeper
      (Nat.le_of_lt_succ (lt_of_lt_of_le (by omega) enough))
    have itemRead := reads.complete item shallow (comma.endsNumber (by decide))
    refine ⟨stop, ?_, deep⟩
    rw [members_of_comma (name.memberKey_eq item.starts) itemRead
      (comma.skipBlanks_cons (by decide)), read]
    rfl

end Members

end EcmaCore.Json
