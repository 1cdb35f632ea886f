/-
This file proves that a reader that misses something could have got it. Where a reader
stops at a unit that it did not expect, or at the end of the text, what it took so far is
the start of a spelling, and the rest of that spelling is given: a digit where a digit is
missing, a quote for a string, a value and the closing bracket for an array.

The other objections are not of this kind. A control unit in a string, say, is refused
where it stands, but the string could go on after it in another way only without it.
-/

import EcmaCore.Proofs.Json.Acceptance
import EcmaCore.Proofs.Json.Spelled

namespace EcmaCore.Json

open Grammar

variable {α β : Type}

/-- The reader missed something: the unit that stands there is not the one, or there is none. -/
def Stop.Open (stop : Stop) : Prop :=
  stop.objection = .unexpected ∨ stop.objection = .unterminated

/-- No other objection is of this kind. -/
theorem Stop.not_open {objection : Objection} (rest : Units) (expected : objection ≠ .unexpected)
    (terminated : objection ≠ .unterminated) : ¬ Stop.Open ⟨objection, rest⟩ := fun isOpen =>
  isOpen.elim expected terminated

/-- The text up to the stop can be completed to a spelling, by at least one unit. A string that is
not terminated was read to the end of the text. -/
def Completable (Spells : α → Units → Units → Prop) (text : Units) (stop : Stop) : Prop :=
  ∃ read completion, text = read ++ stop.rest ∧ completion ≠ [] ∧
    (∃ value, ∀ other, Spells value (read ++ (completion ++ other)) other) ∧
    (stop.objection = .unterminated → stop.rest = [])

namespace Completable

variable {Spells : α → Units → Units → Prop} {Later : β → Units → Units → Prop}
  {First : Units → Units → Prop} {text left : Units} {stop : Stop}

/-- A stop at the very start, in place of which a whole spelling can stand. -/
theorem whole (text : Units) {completion : Units} (some : completion ≠ []) (value : α)
    (spells : ∀ other, Spells value (completion ++ other) other) :
    Completable Spells text ⟨.unexpected, text⟩ :=
  ⟨[], completion, rfl, some, ⟨value, spells⟩, nofun⟩

/-- A stop at the very start, where fixed units are missing. -/
theorem units (text : Units) {completion : Units} (some : completion ≠ []) :
    Completable (fun (_ : Unit) text rest => text = completion ++ rest) text
      ⟨.unexpected, text⟩ :=
  whole text some () fun _ => rfl

/-- A stop after a first piece, in a part that can be completed and then closed. -/
theorem after (first : Spelled First text left) (later : Completable Later left stop)
    (closing : Units) (result : β → α)
    (join : ∀ {value text left rest}, First text left → Later value left (closing ++ rest) →
      Spells (result value) text rest) : Completable Spells text stop := by
  obtain ⟨piece, rfl, first⟩ := first
  obtain ⟨read, completion, rfl, some, ⟨value, later⟩, ended⟩ := later
  refine ⟨piece ++ read, completion ++ closing, (List.append_assoc _ _ _).symm,
    List.append_ne_nil_of_left_ne_nil some _, ⟨result value, fun other => ?_⟩, ended⟩
  rw [List.append_assoc, List.append_assoc]
  exact join (first _) (later _)

/-- A stop in a part that starts with the text. -/
theorem close (later : Completable Later text stop) (closing : Units) (result : β → α)
    (join : ∀ {value text rest}, Later value text (closing ++ rest) →
      Spells (result value) text rest) : Completable Spells text stop := by
  have nothing : Spelled Eq text text := ⟨[], rfl, fun _ => rfl⟩
  exact after nothing later closing result fun first later => first ▸ join later

/-- A stop after a first piece, where one unit is missing. -/
theorem mark (first : Spelled First text left) (unit : CodeUnit) (value : α)
    (join : ∀ {text rest}, First text (unit :: rest) → Spells value text rest) :
    Completable Spells text ⟨.unexpected, left⟩ :=
  after first (units left (List.cons_ne_nil unit [])) [] (fun _ => value)
    fun first closed => join (by rwa [closed] at first)

theorem rest_length_le (completable : Completable Spells text stop) :
    stop.rest.length ≤ text.length := by
  obtain ⟨read, _, rfl, _⟩ := completable
  rw [List.length_append]
  exact Nat.le_add_left _ _

end Completable

/-! ### Literals and strings -/

theorem literal_completable {tree : Tree} {word text : Units} {stop : Stop}
    (spells : ∀ rest, Grammar.Value tree (word ++ rest) rest)
    (read : literal tree word text = .error stop) : Completable Grammar.Value text stop := by
  -- The units of the word that were found, and those that are missing.
  have parts : ∃ found missing, word = found ++ missing ∧ missing ≠ [] ∧
      text = found ++ stop.rest ∧ stop.objection = .unexpected := by
    clear spells
    induction word generalizing text with
    | nil => cases read
    | cons expected word inductionHypothesis =>
      cases text with
      | nil =>
        cases read
        exact ⟨[], _, rfl, List.cons_ne_nil _ _, rfl, rfl⟩
      | cons unit text =>
        rw [literal] at read
        split at read
        · rename_i same
          obtain ⟨found, missing, rfl, some, rfl, objection⟩ := inductionHypothesis read
          exact ⟨expected :: found, missing, rfl, some, by rw [same]; rfl, objection⟩
        · cases read
          exact ⟨[], _, rfl, List.cons_ne_nil _ _, rfl, rfl⟩
  obtain ⟨found, missing, rfl, some, rfl, objection⟩ := parts
  refine ⟨found, missing, rfl, some, ⟨tree, fun other => ?_⟩, fun unterminated => ?_⟩
  · rw [← List.append_assoc]
    exact spells other
  · rw [objection] at unterminated
    cases unterminated

theorem hexDigits_not_open {count before : Nat} {text : Units} {stop : Stop}
    (read : hexDigits count before text = .error stop) : ¬ stop.Open := by
  induction count generalizing before text with
  | zero => cases read
  | succ count inductionHypothesis =>
    cases text with
    | nil =>
      cases read
      exact Stop.not_open _ (by decide) (by decide)
    | cons unit text =>
      rw [hexDigits] at read
      split at read
      · exact inductionHypothesis read
      · cases read
        exact Stop.not_open _ (by decide) (by decide)

theorem stringBody_completable {text : Units} {stop : Stop}
    (read : stringBody text = .error stop) (isOpen : stop.Open) :
    Completable StringBody text stop := by
  fun_induction stringBody text with
  | case1 =>
    cases read
    exact ⟨[], [0x22], rfl, List.cons_ne_nil _ _, ⟨[], .close⟩, fun _ => rfl⟩
  | case2 => cases read
  | case3 =>
    cases read
    exact ⟨[0x5C], [0x22, 0x22], rfl, List.cons_ne_nil _ _,
      ⟨[0x22], fun other => .escape .quote (.close other)⟩, Objection.noConfusion⟩
  | case4 decoded first second third fourth others _ hex inductionHypothesis =>
    rw [hex] at read
    obtain ⟨_, _, _, _, _, equal, a, b, c, d, high, upper, lower, low, code⟩ :=
      hexDigits_four_ok hex
    cases equal
    have escape : Spelled
        (fun text rest => text = 0x5C :: 0x75 :: first :: second :: third :: fourth :: rest)
        (0x5C :: 0x75 :: first :: second :: third :: fourth :: others) others :=
      ⟨[0x5C, 0x75, first, second, third, fourth], rfl, fun _ => rfl⟩
    refine .after escape (inductionHypothesis (map_eq_error.mp read)) [] (decoded :: ·)
      fun front others => ?_
    rw [front, code]
    exact .unicode high upper lower low others
  | case5 _ _ tooShort =>
    split at read
    · exact (tooShort _ _ _ _ _ rfl).elim
    · cases read
      exact absurd isOpen (Stop.not_open _ (by decide) (by decide))
    · cases read
      exact absurd isOpen (hexDigits_not_open ‹_›)
  | case6 after _ hex _ =>
    rw [hex] at read
    cases read
    exact absurd isOpen (hexDigits_not_open hex)
  | case7 letter after _ decoded known _ inductionHypothesis =>
    have escape : Spelled (fun text rest => text = 0x5C :: letter :: rest)
        (0x5C :: letter :: after) after :=
      ⟨[0x5C, letter], rfl, fun _ => rfl⟩
    refine .after escape (inductionHypothesis (map_eq_error.mp read)) [] (decoded :: ·)
      fun first others => ?_
    rw [first]
    exact .escape (shortEscape?_eq_some.mp known) others
  | case8 =>
    cases read
    exact absurd isOpen (Stop.not_open _ Objection.noConfusion Objection.noConfusion)
  | case9 =>
    cases read
    exact absurd isOpen (Stop.not_open _ Objection.noConfusion Objection.noConfusion)
  | case10 unit text noQuote noBackslash printable inductionHypothesis =>
    refine .after (.of_unit unit text) (inductionHypothesis (map_eq_error.mp read)) []
      (unit :: ·) fun first others => ?_
    rw [first]
    exact .raw (Nat.le_of_not_lt printable) noQuote noBackslash others

/-! ### Numbers -/

theorem digits_zero (rest : Units) : Digits [0] (0x30 :: rest) rest :=
  .more (by decide) (.none rest)

theorem someDigits_stop {text : Units} {stop : Stop} (read : someDigits text = .error stop) :
    stop = ⟨.unexpected, text⟩ := by
  have spelled := digits_spanUnitDigits text
  rw [someDigits] at read
  split at read
  · rename_i left span
    cases read
    rw [span] at spelled
    cases spelled
    rfl
  · cases read

theorem someDigits_completable {text : Units} {stop : Stop}
    (read : someDigits text = .error stop) :
    Completable (fun digits : Nat × List Nat => Digits (digits.1 :: digits.2)) text stop := by
  rw [someDigits_stop read]
  exact .whole text (List.cons_ne_nil 0x30 []) (0, []) digits_zero

theorem wholePart_completable {text : Units} {stop : Stop}
    (read : wholePart text = .error stop) (isOpen : stop.Open) : Completable Whole text stop := by
  have spelled := digits_spanUnitDigits text
  rw [wholePart] at read
  split at read
  · rename_i left span
    cases read
    rw [span] at spelled
    cases spelled
    exact .whole _ (List.cons_ne_nil 0x30 []) _ Whole.zero
  · cases read
  · cases read
    exact absurd isOpen (Stop.not_open _ (by decide) (by decide))
  · cases read

theorem fractionPart_completable {text : Units} {stop : Stop}
    (read : fractionPart text = .error stop) : Completable Fraction text stop := by
  rw [fractionPart.eq_def] at read
  split at read
  · rename_i digits
    refine .after (.of_unit 0x2E digits) (someDigits_completable read) []
      (fun digits => digits.1 :: digits.2) fun point spelled => ?_
    rw [point]
    exact .present spelled
  · cases read

theorem exponentPart_completable {text : Units} {stop : Stop}
    (read : exponentPart text = .error stop) :
    Completable (fun exponent : Bool × List Nat => Exponent exponent.1 exponent.2) text stop := by
  rw [exponentPart.eq_def] at read
  split at read
  · cases read
  · rename_i letter signed
    split at read
    · rename_i named
      have read : someDigits (exponentSign signed).2 = .error stop := by
        rcases bind_eq_error.mp read with early | ⟨_, _, late⟩
        · exact early
        · cases late
      have mark : Spelled (fun text rest => ∃ tail, text = letter :: tail ∧
          ExponentSign (exponentSign signed).1 tail rest) (letter :: signed)
          (exponentSign signed).2 :=
        (exponentSign_exponentSign signed).spelled.cons fun sign => ⟨_, rfl, sign⟩
      refine .after mark (someDigits_completable read) []
        (fun digits => ((exponentSign signed).1, digits.1 :: digits.2)) ?_
      rintro _ _ _ _ ⟨tail, rfl, sign⟩ spelled
      exact .present named sign spelled
    · cases read

theorem unsignedNumber_completable {negative : Bool} {text : Units} {stop : Stop}
    (read : unsignedNumber negative text = .error stop) (isOpen : stop.Open) :
    Completable (Unsigned negative) text stop := by
  rcases bind_eq_error.mp read with early | ⟨⟨whole, afterWhole⟩, wholeRead, read⟩
  · exact (wholePart_completable early isOpen).close [] (⟨negative, ·, [], false, []⟩)
      fun first => .parts first (.absent _) (.absent _)
  have first := wholePart_ok wholeRead
  rcases bind_eq_error.mp read with early | ⟨⟨fraction, afterFraction⟩, fractionRead, read⟩
  · exact .after first.spelled (fractionPart_completable early) []
      (⟨negative, whole, ·, false, []⟩) fun first second => .parts first second (.absent _)
  have second := fractionPart_ok fractionRead
  rcases bind_eq_error.mp read with early | ⟨⟨⟨exponentNegative, exponent⟩, left⟩, _, read⟩
  · have both : Spelled (fun text rest => ∃ middle, Whole whole text middle ∧
        Fraction fraction middle rest) text afterFraction :=
      first.spelled.seq second.spelled fun first second => ⟨_, first, second⟩
    exact .after both (exponentPart_completable early) []
      (fun exponent => ⟨negative, whole, fraction, exponent.1, exponent.2⟩)
      fun ⟨_, first, second⟩ third => .parts first second third
  · cases read

theorem number_completable {text : Units} {stop : Stop} (read : number text = .error stop)
    (isOpen : stop.Open) : Completable Grammar.Number text stop := by
  rw [number.eq_def] at read
  split at read
  · rename_i unsigned
    refine .after (.of_unit 0x2D unsigned) (unsignedNumber_completable read isOpen) [] id
      fun minus spelled => ?_
    rw [minus]
    exact .negative spelled
  · exact (unsignedNumber_completable read isOpen).close [] id .positive

/-! ### Elements and members -/

/-- What leads to an item, the item and the blanks after it. -/
theorem spelled_item {Front : Units → Units → Prop} {tree : Tree} {text start rest left : Units}
    (front : Spelled Front text start) (item : Grammar.Value tree start rest)
    (blanks : Blanks rest left) :
    Spelled (fun text left => ∃ start rest, Front text start ∧ Grammar.Value tree start rest ∧
      Blanks rest left) text left := by
  have back : Spelled (fun start left => ∃ rest, Grammar.Value tree start rest ∧
      Blanks rest left) start left :=
    item.spelled.seq blanks.spelled fun item blanks => ⟨_, item, blanks⟩
  exact front.seq back fun front ⟨_, item, blanks⟩ => ⟨_, _, front, item, blanks⟩

/-- The shortest value, an empty string. -/
theorem value_emptyString (rest : Units) :
    Grammar.Value (.string []) (0x22 :: 0x22 :: rest) rest := .string (.close rest)

/-- What a reader of items misses can be completed to a value. -/
def Completes (reader : Reader Tree) : Prop :=
  ∀ {text : Units} {stop : Stop}, reader text = .error stop → stop.Open →
    Completable Grammar.Value text stop

section Lists

variable {room : Nat} {reader : Reader Tree} (reads : Reads room reader)
  (completes : Completes reader)

include reads completes

theorem elements_completable {bound : Nat} {text : Units} {stop : Stop}
    (read : elements reader bound text = .error stop) (isOpen : stop.Open) :
    Completable (Elements Grammar.Value) text stop := by
  induction bound generalizing text with
  | zero =>
    cases read
    exact .whole text (List.cons_ne_nil 0x22 [0x22, 0x5D]) _ fun other =>
      Elements.last (.none _) (value_emptyString _) (.none _)
  | succ bound inductionHypothesis =>
    have before := (blanks_skipBlanks text).spelled
    rcases elements_cases read with ⟨_, itemRead, equal⟩ | ⟨tree, after, itemRead, ending⟩
    · cases equal
      exact .after before (completes itemRead isOpen) [0x5D] (fun tree => [tree])
        fun before item => .last before item (.none _)
    obtain ⟨item, _⟩ := reads.sound itemRead
    have blanks := blanks_skipBlanks after
    rcases ending with ⟨next, comma, equal⟩ | ⟨left, closed, equal⟩ | equal
    · rw [comma] at blanks
      exact .after ((spelled_item before item blanks).close id)
        (inductionHypothesis (map_eq_error.mp equal.symm)) [] (tree :: ·)
        fun ⟨_, _, before, item, comma⟩ others => .more before item comma others
    · cases equal
    · cases equal
      exact .mark (spelled_item before item blanks) 0x5D [tree]
        fun ⟨_, _, before, item, closed⟩ => .last before item closed

theorem array_completable {text : Units} {stop : Stop} (read : array reader text = .error stop)
    (isOpen : stop.Open) : Completable Grammar.Value (0x5B :: text) stop := by
  by_cases close : ∃ left, skipBlanks text = 0x5D :: left
  · obtain ⟨left, closed⟩ := close
    rw [array_of_close closed] at read
    cases read
  · rw [array_of_elements (not_exists.mp close)] at read
    have bracket : Spelled (fun text rest => ∃ inner, text = 0x5B :: inner ∧ Blanks inner rest)
        (0x5B :: text) (skipBlanks text) :=
      (blanks_skipBlanks text).spelled.cons fun blanks => ⟨_, rfl, blanks⟩
    refine .after bracket
      (elements_completable reads completes (map_eq_error.mp read) isOpen) [] Tree.array ?_
    rintro _ _ _ _ ⟨inner, rfl, blanks⟩ spelled
    exact .array (spelled.of_blanks blanks)

omit reads completes in
theorem memberKey_completable {text : Units} {stop : Stop}
    (read : memberKey text = .error stop) (isOpen : stop.Open) :
    Completable MemberKey text stop := by
  have before := blanks_skipBlanks text
  rw [memberKey] at read
  split at read
  · rename_i body quote
    rw [quote] at before
    have opened := before.spelled.close id
    rcases bind_eq_error.mp read with early | ⟨⟨key, after⟩, keyRead, late⟩
    · exact .after opened (stringBody_completable early isOpen) [0x3A] id
        fun before spelled => .parts before spelled (.none _) (.none _)
    · have between := blanks_skipBlanks after
      dsimp only at late
      split at late
      · cases late
      · cases late
        have named : Spelled (fun body rest => ∃ after, StringBody key body after ∧
            Blanks after rest) body (skipBlanks after) :=
          (stringBody_ok keyRead).spelled.seq between.spelled
            fun spelled between => ⟨_, spelled, between⟩
        have missing : Completable (fun key body rest => ∃ after, StringBody key body after ∧
            Blanks after (0x3A :: rest)) body ⟨.unexpected, skipBlanks after⟩ :=
          .mark named 0x3A key id
        exact .after opened missing [] id
          fun before key => key.elim fun _ parts =>
            .parts before parts.1 parts.2 (.none _)
  · cases read
    exact .after before.spelled (.units _ (List.cons_ne_nil 0x22 [0x22, 0x3A])) [] (fun _ => [])
      fun before quotes =>
        .parts (by rwa [quotes] at before) (.close _) (.none _) (.none _)

theorem members_completable {bound : Nat} {text : Units} {stop : Stop}
    (read : members reader bound text = .error stop) (isOpen : stop.Open) :
    Completable (Members Grammar.Value) text stop := by
  induction bound generalizing text with
  | zero =>
    cases read
    exact .whole text (List.cons_ne_nil 0x22 [0x22, 0x3A, 0x22, 0x22, 0x7D]) _ fun other =>
      Members.last (.parts (.none _) (.close _) (.none _) (.none _)) (value_emptyString _) (.none _)
  | succ bound inductionHypothesis =>
    rcases members_cases read with ⟨_, keyRead, equal⟩ | ⟨key, start, keyRead, ending⟩
    · cases equal
      exact (memberKey_completable keyRead isOpen).close [0x22, 0x22, 0x7D]
        (fun key => [(key, .string [])])
        fun name => .last name (value_emptyString _) (.none _)
    have name := (memberKey_ok keyRead).spelled
    rcases ending with ⟨_, itemRead, equal⟩ | ⟨tree, after, itemRead, ending⟩
    · cases equal
      exact .after name (completes itemRead isOpen) [0x7D] (fun tree => [(key, tree)])
        fun name item => .last name item (.none _)
    obtain ⟨item, _⟩ := reads.sound itemRead
    have blanks := blanks_skipBlanks after
    rcases ending with ⟨next, comma, equal⟩ | ⟨left, closed, equal⟩ | equal
    · rw [comma] at blanks
      exact .after ((spelled_item name item blanks).close id)
        (inductionHypothesis (map_eq_error.mp equal.symm)) [] ((key, tree) :: ·)
        fun ⟨_, _, name, item, comma⟩ others => .more name item comma others
    · cases equal
    · cases equal
      exact .mark (spelled_item name item blanks) 0x7D [(key, tree)]
        fun ⟨_, _, name, item, closed⟩ => .last name item closed

theorem object_completable {text : Units} {stop : Stop} (read : object reader text = .error stop)
    (isOpen : stop.Open) : Completable Grammar.Value (0x7B :: text) stop := by
  by_cases close : ∃ left, skipBlanks text = 0x7D :: left
  · obtain ⟨left, closed⟩ := close
    rw [object_of_close closed] at read
    cases read
  · rw [object_of_members (not_exists.mp close)] at read
    have brace : Spelled (fun text rest => ∃ inner, text = 0x7B :: inner ∧ Blanks inner rest)
        (0x7B :: text) (skipBlanks text) :=
      (blanks_skipBlanks text).spelled.cons fun blanks => ⟨_, rfl, blanks⟩
    refine .after brace
      (members_completable reads completes (map_eq_error.mp read) isOpen) [] Tree.object ?_
    rintro _ _ _ _ ⟨inner, rfl, blanks⟩ spelled
    exact .object (spelled.of_blanks blanks)

end Lists

/-! ### Values -/

/-- Where neither a bracket nor a brace stands, little room is no obstacle. -/
theorem value_completable_of_flat {room : Nat} {unit : CodeUnit} {text : Units} {stop : Stop}
    (noBrace : unit ≠ 0x7B) (noBracket : unit ≠ 0x5B)
    (read : value room (unit :: text) = .error stop) (isOpen : stop.Open) :
    Completable Grammar.Value (unit :: text) stop := by
  rw [value.eq_def] at read
  simp only [if_neg noBrace, if_neg noBracket] at read
  split_ifs at read with quote start t f n
  · subst quote
    refine .after (.of_unit 0x22 text) (stringBody_completable (map_eq_error.mp read) isOpen) []
      Tree.string fun opened spelled => ?_
    rw [opened]
    exact .string spelled
  · exact (number_completable (map_eq_error.mp read) isOpen).close []
      (fun numeral => .number numeral.toNumber)
      fun spelled => .number spelled (Numeral.denotes_toNumber _)
  · exact literal_completable .trueWord read
  · exact literal_completable .falseWord read
  · exact literal_completable .null read
  · cases read
    exact .whole _ (List.cons_ne_nil 0x22 [0x22]) _ value_emptyString

/-- Whatever the reader of values misses, the text before it can be completed to a value. -/
theorem completes_value (room : Nat) : Completes (value room) := by
  induction room using Nat.strongRecOn with
  | ind room inductionHypothesis =>
    intro text stop read isOpen
    cases text with
    | nil =>
      rw [value.eq_def] at read
      cases read
      exact .whole _ (List.cons_ne_nil 0x22 [0x22]) _ value_emptyString
    | cons unit text =>
      by_cases brace : unit = 0x7B
      · subst brace
        cases room with
        | zero =>
          rw [value_brace_zero] at read
          cases read
          exact absurd isOpen (Stop.not_open _ (by decide) (by decide))
        | succ inside =>
          rw [value_brace] at read
          exact object_completable (value_reads inside)
            (inductionHypothesis inside (Nat.lt_succ_self inside)) read isOpen
      by_cases bracket : unit = 0x5B
      · subst bracket
        cases room with
        | zero =>
          rw [value_bracket_zero] at read
          cases read
          exact absurd isOpen (Stop.not_open _ (by decide) (by decide))
        | succ inside =>
          rw [value_bracket] at read
          exact array_completable (value_reads inside)
            (inductionHypothesis inside (Nat.lt_succ_self inside)) read isOpen
      exact value_completable_of_flat brace bracket read isOpen

/-! ### Whole texts -/

/-- What stands before a stop is the start of a whole text. If nothing stands after it, something is
missing. -/
theorem document_completable {text : Units} {stop : Stop} (read : document text = .error stop)
    (isOpen : stop.Open) :
    ∃ front completion tree, text = front ++ stop.rest ∧
      Document tree (front ++ completion) ∧ (stop.rest = [] → completion ≠ []) ∧
      (stop.objection = .unterminated → stop.rest = []) := by
  have before := (blanks_skipBlanks text).spelled
  rcases bind_eq_error.mp read with early | ⟨⟨tree, after⟩, valueRead, late⟩
  · have whole : Completable (fun tree text rest => ∃ start, Blanks text start ∧
        Grammar.Value tree start rest) text stop :=
      .after before (completes_value maxDepth early isOpen) [] id
        fun before value => ⟨_, before, value⟩
    obtain ⟨front, completion, split, some, ⟨tree, spells⟩, ended⟩ := whole
    obtain ⟨start, blanks, value⟩ := spells []
    rw [List.append_nil] at blanks
    exact ⟨front, completion, tree, split, .parts blanks value (.none _), fun _ => some, ended⟩
  · obtain ⟨value, _⟩ := (value_reads maxDepth).sound valueRead
    obtain ⟨front, split, item⟩ := spelled_item before value (blanks_skipBlanks after)
    dsimp only at late
    split at late
    · cases late
    · rename_i some
      cases late
      obtain ⟨start, rest, blanks, value, closed⟩ := item []
      exact ⟨front, [], tree, split, .parts blanks value closed, fun none => absurd none some,
        nofun⟩

end EcmaCore.Json
