/-
This file compares what a reader does with two texts that are alike up to a unit, this unit
included. Reading runs in parallel until one of two things happens. Either the reader takes
the unit, and nothing is said about what follows, or it ends before, in the same way in
both texts: with the same value, or at the same unit that it did not expect.

Here this is proved of the readers of tokens, which may look at a unit without taking it,
as a number does to find its end.
-/

import EcmaCore.Proofs.Json.Completion

namespace EcmaCore.Json

variable {α β : Type}

/-! ### How much is left -/

/-- At most so much of the text is left, after what was read or from the unexpected unit on. -/
def Within (bound : Nat) : Except Stop (α × Units) → Prop
  | .ok (_, left) => left.length ≤ bound
  | .error stop => stop.objection = .unexpected → stop.rest.length ≤ bound

namespace Within

variable {bound more : Nat} {reading : Except Stop (α × Units)}

theorem mono (within : Within bound reading) (atMost : bound ≤ more) : Within more reading := by
  cases reading with
  | ok result => exact Nat.le_trans within atMost
  | error stop => exact fun unexpected => Nat.le_trans (within unexpected) atMost

theorem map (change : α → β) (within : Within bound reading) :
    Within bound (reading.map fun result => (change result.1, result.2)) := by
  cases reading with
  | ok result => exact within
  | error stop => exact within

theorem bind {continuation : α × Units → Except Stop (β × Units)} (within : Within bound reading)
    (later : ∀ value left, Within left.length (continuation (value, left))) :
    Within bound (reading >>= continuation) := by
  cases reading with
  | ok result => exact (later result.1 result.2).mono within
  | error stop => exact within

theorem of_completable {Spells : β → Units → Units → Prop} {text : Units}
    (done : ∀ value left, reading = .ok (value, left) → left.length ≤ text.length)
    (stops : ∀ stop, reading = .error stop → stop.Open → Completable Spells text stop) :
    Within text.length reading := by
  cases reading with
  | ok result => exact done _ _ rfl
  | error stop => exact fun unexpected => (stops stop rfl (Or.inl unexpected)).rest_length_le

end Within

theorem within_of_not_open {bound : Nat} {stop : Stop} (closed : ¬ stop.Open) :
    Within bound (.error stop : Except Stop (α × Units)) :=
  fun unexpected => absurd (Or.inl unexpected) closed

theorem length_skipBlanks_le (text : Units) : (skipBlanks text).length ≤ text.length :=
  (blanks_skipBlanks text).length_le

theorem length_spanUnitDigits_le (text : Units) : (spanUnitDigits text).2.length ≤ text.length :=
  (digits_spanUnitDigits text).length_le

theorem length_exponentSign_le (text : Units) : (exponentSign text).2.length ≤ text.length := by
  rw [exponentSign.eq_def]
  split
  · exact Nat.le_succ _
  · exact Nat.le_succ _
  · exact Nat.le_refl _

theorem within_someDigits (text : Units) :
    Within (spanUnitDigits text).2.length (someDigits text) := by
  rw [someDigits]
  split <;> rename_i span <;> rw [span]
  · exact fun _ => Nat.le_refl _
  · exact Nat.le_refl _

theorem within_wholePart (text : Units) :
    Within (spanUnitDigits text).2.length (wholePart text) := by
  rw [wholePart]
  split <;> rename_i span <;> rw [span]
  · exact fun _ => Nat.le_refl _
  · exact Nat.le_refl _
  · exact within_of_not_open (Stop.not_open _ (by decide) (by decide))
  · exact Nat.le_refl _

theorem within_number (text : Units) : Within text.length (number text) :=
  .of_completable (fun _ _ read => (number_ok read).spelled.length_le) fun _ => number_completable

theorem within_stringBody (text : Units) : Within text.length (stringBody text) :=
  .of_completable (fun _ _ read => (stringBody_ok read).spelled.length_le)
    fun _ => stringBody_completable

theorem within_value (room : Nat) (text : Units) : Within text.length (value room text) :=
  .of_completable (fun _ _ read => ((value_reads room).sound read).1.spelled.length_le)
    fun _ read => completes_value room read

/-! ### Texts in parallel -/

section Parallel

variable (unit : CodeUnit) (rest other : Units)

/-- The two texts are alike up to the unit, or of the first no more than the rest is left. -/
inductive Parallel : Units → Units → Prop
  | before (front : Units) : Parallel (front ++ unit :: rest) (front ++ unit :: other)
  | passed {text : Units} (twin : Units) (short : text.length ≤ rest.length) : Parallel text twin

/-- The two results are alike, or the unit was taken in the first. -/
inductive Alike : Except Stop (α × Units) → Except Stop (α × Units) → Prop
  | passed {reading twin : Except Stop (α × Units)} (within : Within rest.length reading) :
      Alike reading twin
  | ok (value : α) {left twin : Units} (parallel : Parallel unit rest other left twin) :
      Alike (.ok (value, left)) (.ok (value, twin))
  | stop {left twin : Units} (parallel : Parallel unit rest other left twin) :
      Alike (unexpected left) (unexpected twin)

end Parallel

variable {unit : CodeUnit} {rest other text twin : Units}

namespace Parallel

/-- Either the unit was passed, or the next units are the same. -/
theorem head (parallel : Parallel unit rest other text twin) :
    text.length ≤ rest.length ∨ ∃ first tail twinTail, text = first :: tail ∧
      twin = first :: twinTail ∧ Parallel unit rest other tail twinTail := by
  cases parallel with
  | passed twin short => exact Or.inl short
  | before front =>
    cases front with
    | nil => exact Or.inr ⟨unit, rest, other, rfl, rfl, .passed other (Nat.le_refl _)⟩
    | cons first front => exact Or.inr ⟨first, _, _, rfl, rfl, .before front⟩

theorem inner (parallel : Parallel unit rest other text twin) :
    Parallel unit rest other (skipBlanks text) (skipBlanks twin) := by
  cases parallel with
  | passed twin short => exact .passed _ (Nat.le_trans (length_skipBlanks_le _) short)
  | before front =>
    induction front with
    | nil =>
      cases blank : isJsonBlank unit with
      | true =>
        refine .passed _ ?_
        rw [List.nil_append, skipBlanks, List.dropWhile_cons, if_pos blank]
        exact length_skipBlanks_le rest
      | false =>
        rw [List.nil_append, List.nil_append, skipBlanks_cons blank, skipBlanks_cons blank]
        exact .before []
    | cons first front inductionHypothesis =>
      cases blank : isJsonBlank first with
      | true =>
        rw [List.cons_append, List.cons_append, skipBlanks, List.dropWhile_cons, if_pos blank,
          skipBlanks, List.dropWhile_cons, if_pos blank]
        exact inductionHypothesis
      | false =>
        rw [List.cons_append, List.cons_append, skipBlanks_cons blank, skipBlanks_cons blank]
        exact .before (first :: front)

/-- The digits that the two texts start with are the same, or one of them comes after the unit. -/
theorem digits (parallel : Parallel unit rest other text twin) :
    (spanUnitDigits text).2.length ≤ rest.length ∨
      (spanUnitDigits text).1 = (spanUnitDigits twin).1 ∧
        Parallel unit rest other (spanUnitDigits text).2 (spanUnitDigits twin).2 := by
  cases parallel with
  | passed twin short => exact Or.inl (Nat.le_trans (length_spanUnitDigits_le _) short)
  | before front =>
    induction front with
    | nil =>
      rw [List.nil_append, List.nil_append, spanUnitDigits, spanUnitDigits]
      cases digitOfCode? 10 unit.toNat with
      | some digit => exact Or.inl (length_spanUnitDigits_le rest)
      | none => exact Or.inr ⟨rfl, .before []⟩
    | cons first front inductionHypothesis =>
      rw [List.cons_append, List.cons_append, spanUnitDigits, spanUnitDigits]
      cases digitOfCode? 10 first.toNat with
      | some digit =>
        exact inductionHypothesis.imp_right fun agree =>
          ⟨congrArg (digit :: ·) agree.1, agree.2⟩
      | none => exact Or.inr ⟨rfl, .before (first :: front)⟩

theorem sign (parallel : Parallel unit rest other text twin) :
    (exponentSign text).2.length ≤ rest.length ∨
      (exponentSign text).1 = (exponentSign twin).1 ∧
        Parallel unit rest other (exponentSign text).2 (exponentSign twin).2 := by
  rcases parallel.head with short | ⟨first, tail, twinTail, rfl, rfl, later⟩
  · exact Or.inl (Nat.le_trans (length_exponentSign_le _) short)
  have signed (tail : Units) : exponentSign (first :: tail) =
      if first = 0x2D then (true, tail) else if first = 0x2B then (false, tail)
      else (false, first :: tail) := by
    rw [exponentSign.eq_def]
    split <;> simp_all
  rw [signed, signed]
  split_ifs
  · exact Or.inr ⟨rfl, later⟩
  · exact Or.inr ⟨rfl, later⟩
  · exact Or.inr ⟨rfl, parallel⟩

end Parallel

namespace Alike

variable {reading twinReading : Except Stop (α × Units)}

theorem map (alike : Alike unit rest other reading twinReading) (change : α → β) :
    Alike unit rest other (reading.map fun result => (change result.1, result.2))
      (twinReading.map fun result => (change result.1, result.2)) := by
  cases alike with
  | passed within => exact .passed (within.map change)
  | ok value parallel => exact .ok (change value) parallel
  | stop parallel => exact .stop parallel

/-- What goes on alike after results that are alike ends alike. -/
theorem bind (alike : Alike unit rest other reading twinReading)
    {continuation twinContinuation : α × Units → Except Stop (β × Units)}
    (within : ∀ value left, Within left.length (continuation (value, left)))
    (later : ∀ value left twin, reading = .ok (value, left) → twinReading = .ok (value, twin) →
      Parallel unit rest other left twin →
      Alike unit rest other (continuation (value, left)) (twinContinuation (value, twin))) :
    Alike unit rest other (reading >>= continuation) (twinReading >>= twinContinuation) := by
  cases alike with
  | passed passed => exact .passed (passed.bind within)
  | ok value parallel => exact later value _ _ rfl rfl parallel
  | stop parallel => exact .stop parallel

end Alike

/-! ### Literals and numbers -/

theorem within_literal (tree : Tree) (word text : Units) :
    Within text.length (literal tree word text) := by
  induction word generalizing text with
  | nil => exact Nat.le_refl text.length
  | cons expected word inductionHypothesis =>
    cases text with
    | nil => exact fun _ => Nat.le_refl 0
    | cons first tail =>
      rw [literal]
      split
      · exact (inductionHypothesis tail).mono (Nat.le_succ _)
      · exact fun _ => Nat.le_refl _

theorem alike_literal (tree : Tree) (word : Units)
    (parallel : Parallel unit rest other text twin) :
    Alike unit rest other (literal tree word text) (literal tree word twin) := by
  induction word generalizing text twin with
  | nil => exact .ok tree parallel
  | cons expected word inductionHypothesis =>
    rcases parallel.head with short | ⟨first, tail, twinTail, rfl, rfl, later⟩
    · exact .passed ((within_literal tree _ text).mono short)
    · rw [literal, literal]
      split
      · exact inductionHypothesis later
      · exact .stop parallel

theorem alike_someDigits (parallel : Parallel unit rest other text twin) :
    Alike unit rest other (someDigits text) (someDigits twin) := by
  rcases parallel.digits with short | ⟨same, later⟩
  · exact .passed ((within_someDigits text).mono short)
  rw [someDigits, someDigits]
  generalize spanUnitDigits text = span, spanUnitDigits twin = twinSpan at same later
  obtain ⟨digits, left⟩ := span
  obtain ⟨twinDigits, twinLeft⟩ := twinSpan
  cases same
  cases digits with
  | nil => exact .stop later
  | cons digit digits => exact .ok _ later

theorem alike_wholePart (parallel : Parallel unit rest other text twin) :
    Alike unit rest other (wholePart text) (wholePart twin) := by
  rcases parallel.digits with short | ⟨same, later⟩
  · exact .passed ((within_wholePart text).mono short)
  rw [wholePart, wholePart]
  generalize spanUnitDigits text = span, spanUnitDigits twin = twinSpan at same later
  obtain ⟨digits, left⟩ := span
  obtain ⟨twinDigits, twinLeft⟩ := twinSpan
  cases same
  rcases digits with _ | ⟨_ | digit, _ | ⟨second, digits⟩⟩
  · exact .stop later
  · exact .ok _ later
  · exact .passed (within_of_not_open (Stop.not_open _ (by decide) (by decide)))
  · exact .ok _ later
  · exact .ok _ later

theorem fractionPart_cons (first : CodeUnit) (tail : Units) :
    fractionPart (first :: tail) =
      if first = 0x2E then someDigits tail else .ok ([], first :: tail) := by
  rw [fractionPart.eq_def]
  split <;> simp_all

theorem within_fractionPart (text : Units) : Within text.length (fractionPart text) := by
  cases text with
  | nil => exact Nat.le_refl 0
  | cons first tail =>
    rw [fractionPart_cons]
    split
    · exact (within_someDigits tail).mono
        (Nat.le_succ_of_le (length_spanUnitDigits_le tail))
    · exact Nat.le_refl (tail.length + 1)

theorem alike_fractionPart (parallel : Parallel unit rest other text twin) :
    Alike unit rest other (fractionPart text) (fractionPart twin) := by
  rcases parallel.head with short | ⟨first, tail, twinTail, rfl, rfl, later⟩
  · exact .passed ((within_fractionPart text).mono short)
  rw [fractionPart_cons, fractionPart_cons]
  split
  · exact alike_someDigits later
  · exact .ok [] parallel

theorem exponentPart_cons (letter : CodeUnit) (tail : Units) :
    exponentPart (letter :: tail) =
      if letter = 0x45 ∨ letter = 0x65 then
        (someDigits (exponentSign tail).2).map
          fun result => (((exponentSign tail).1, result.1), result.2)
      else .ok ((false, []), letter :: tail) := by
  rw [exponentPart]
  rfl

theorem within_exponentPart (text : Units) : Within text.length (exponentPart text) := by
  cases text with
  | nil => exact Nat.le_refl 0
  | cons letter tail =>
    rw [exponentPart_cons]
    split
    · refine ((within_someDigits _).map _).mono (Nat.le_succ_of_le ?_)
      exact Nat.le_trans (length_spanUnitDigits_le _) (length_exponentSign_le tail)
    · exact Nat.le_refl (tail.length + 1)

theorem alike_exponentPart (parallel : Parallel unit rest other text twin) :
    Alike unit rest other (exponentPart text) (exponentPart twin) := by
  rcases parallel.head with short | ⟨letter, tail, twinTail, rfl, rfl, later⟩
  · exact .passed ((within_exponentPart text).mono short)
  rw [exponentPart_cons, exponentPart_cons]
  split
  · rcases later.sign with short | ⟨same, unsigned⟩
    · refine .passed (((within_someDigits _).map _).mono ?_)
      exact Nat.le_trans (length_spanUnitDigits_le _) short
    · rw [← same]
      exact (alike_someDigits unsigned).map ((exponentSign tail).1, ·)
  · exact .ok _ parallel

theorem alike_unsignedNumber (negative : Bool) (parallel : Parallel unit rest other text twin) :
    Alike unit rest other (unsignedNumber negative text) (unsignedNumber negative twin) := by
  have finish (whole fraction : List Nat) (text : Units) :
      Within text.length (exponentPart text >>= fun result =>
        .ok ((⟨negative, whole, fraction, result.1.1, result.1.2⟩ : Numeral), result.2)) :=
    (within_exponentPart text).bind fun _ left => Nat.le_refl left.length
  unfold unsignedNumber
  refine (alike_wholePart parallel).bind (fun whole left => ?_)
    fun whole left twin _ _ parallel => ?_
  · exact (within_fractionPart left).bind fun fraction left => finish whole fraction left
  refine (alike_fractionPart parallel).bind (fun fraction left => finish whole fraction left)
    fun fraction left twin _ _ parallel => ?_
  exact (alike_exponentPart parallel).bind (fun _ left => Nat.le_refl left.length)
    fun _ _ _ _ _ parallel => .ok _ parallel

theorem number_cons (first : CodeUnit) (tail : Units) :
    number (first :: tail) =
      if first = 0x2D then unsignedNumber true tail else unsignedNumber false (first :: tail) := by
  rw [number.eq_def]
  split <;> simp_all

theorem alike_number (parallel : Parallel unit rest other text twin) :
    Alike unit rest other (number text) (number twin) := by
  rcases parallel.head with short | ⟨first, tail, twinTail, rfl, rfl, later⟩
  · exact .passed ((within_number text).mono short)
  rw [number_cons, number_cons]
  split
  · exact alike_unsignedNumber true later
  · exact alike_unsignedNumber false parallel

/-! ### Strings -/

theorem stringBody_quote (tail : Units) : stringBody (0x22 :: tail) = .ok ([], tail) := by
  rw [stringBody.eq_def]
  rfl

theorem stringBody_unicode (after : Units) :
    stringBody (0x5C :: 0x75 :: after) = hexDigits 4 0 after >>= fun decoded =>
      (stringBody (after.drop 4)).map fun result => (decoded :: result.1, result.2) := by
  rw [stringBody.eq_def]
  cases hex : hexDigits 4 0 after with
  | error stop =>
    simp only [hex]
    rfl
  | ok decoded =>
    obtain ⟨first, second, third, fourth, others, rfl, _⟩ := hexDigits_four_ok hex
    simp only [hex]
    rfl

theorem stringBody_escape {letter : CodeUnit} (noUnicode : letter ≠ 0x75) (after : Units) :
    stringBody (0x5C :: letter :: after) =
      match shortEscape? letter with
      | some decoded =>
        (stringBody after).map fun result => (decoded :: result.1, result.2)
      | none => .error ⟨.escape letter, 0x5C :: letter :: after⟩ := by
  rw [stringBody.eq_def]
  simp only [if_neg noUnicode]
  rfl

theorem stringBody_other {first : CodeUnit} (noQuote : first ≠ 0x22) (noBackslash : first ≠ 0x5C)
    (tail : Units) :
    stringBody (first :: tail) =
      if first.toNat < 0x20 then .error ⟨.control, first :: tail⟩
      else (stringBody tail).map fun result => (first :: result.1, result.2) := by
  rw [stringBody.eq_def]
  simp only [if_neg noQuote, if_neg noBackslash]

theorem within_backslash (tail : Units) : Within tail.length (stringBody (0x5C :: tail)) := by
  cases tail with
  | nil =>
    rw [stringBody.eq_def]
    exact fun _ => Nat.le_refl 0
  | cons letter after =>
    by_cases unicode : letter = 0x75
    · subst unicode
      rw [stringBody_unicode]
      cases hex : hexDigits 4 0 after with
      | error stop => exact within_of_not_open (hexDigits_not_open hex)
      | ok decoded =>
        refine ((within_stringBody _).map (decoded :: ·)).mono (Nat.le_succ_of_le ?_)
        rw [List.length_drop]
        exact Nat.sub_le _ _
    · rw [stringBody_escape unicode]
      split
      · exact ((within_stringBody after).map _).mono (Nat.le_succ _)
      · exact nofun

/-- Digits that are read from the first text are read from the second, unless the unit comes among
them. -/
theorem Parallel.hexDigits {count before : Nat} {decoded : CodeUnit}
    (parallel : Parallel unit rest other text twin)
    (read : hexDigits count before text = .ok decoded) :
    (text.drop count).length ≤ rest.length ∨
      Json.hexDigits count before twin = .ok decoded ∧
        Parallel unit rest other (text.drop count) (twin.drop count) := by
  induction count generalizing before text twin with
  | zero => exact Or.inr ⟨read, parallel⟩
  | succ count inductionHypothesis =>
    rcases parallel.head with short | ⟨first, tail, twinTail, rfl, rfl, later⟩
    · exact Or.inl (Nat.le_trans (by rw [List.length_drop]; exact Nat.sub_le _ _) short)
    · rw [Json.hexDigits] at read ⊢
      split at read
      · exact inductionHypothesis later read
      · cases read

theorem alike_stringBody (parallel : Parallel unit rest other text twin) :
    Alike unit rest other (stringBody text) (stringBody twin) := by
  induction size : text.length using Nat.strongRecOn generalizing text twin with
  | ind size inductionHypothesis =>
    subst size
    rcases parallel.head with short | ⟨first, tail, twinTail, rfl, rfl, later⟩
    · exact .passed ((within_stringBody text).mono short)
    by_cases quote : first = 0x22
    · subst quote
      rw [stringBody_quote, stringBody_quote]
      exact .ok [] later
    by_cases backslash : first = 0x5C
    · subst backslash
      rcases later.head with short | ⟨letter, after, twinAfter, rfl, rfl, further⟩
      · exact .passed ((within_backslash tail).mono short)
      by_cases unicode : letter = 0x75
      · subst unicode
        rw [stringBody_unicode, stringBody_unicode]
        cases hex : hexDigits 4 0 after with
        | error stop => exact .passed (within_of_not_open (hexDigits_not_open hex))
        | ok decoded =>
          rcases further.hexDigits hex with short | ⟨twinHex, others⟩
          · exact .passed (((within_stringBody _).map (decoded :: ·)).mono short)
          · rw [twinHex]
            refine (inductionHypothesis _ ?_ others rfl).map (decoded :: ·)
            simp only [List.length_drop, List.length_cons]
            omega
      · rw [stringBody_escape unicode, stringBody_escape unicode]
        cases shortEscape? letter with
        | none => exact .passed nofun
        | some decoded =>
          exact (inductionHypothesis _ (Nat.lt_succ_of_lt (Nat.lt_succ_self _)) further rfl).map
            (decoded :: ·)
    rw [stringBody_other quote backslash, stringBody_other quote backslash]
    split
    · exact .passed nofun
    · exact (inductionHypothesis _ (Nat.lt_succ_self _) later rfl).map (first :: ·)

end EcmaCore.Json
