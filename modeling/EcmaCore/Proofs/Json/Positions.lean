/-
This file proves that the messages of parsing say where a text goes wrong. A message about
an unexpected token names the first unit with which the text can no longer become a text of
the grammar: everything before it could still be completed, and with it nothing can. A text
that ends too early, or within a string, could be completed as it is.

What is proved is about the wording itself, which has to be taken apart: no two kinds of
fault begin alike, and the position is what stands after the last blank.
-/

import EcmaCore.Engine.Call
import EcmaCore.Proofs.Json.Lookahead
import EcmaCore.Proofs.Json.Parsing
import EcmaCore.World.Intrinsic

namespace EcmaCore.Json

/-- The text is the start of some text of the grammar, however deep that nests. -/
def Grammar.Viable (text : Units) : Prop := ∃ completion tree, Document tree (text ++ completion)

/-! ### Faults -/

theorem exists_stop_of_parse {text : Units} {fault : Fault} (refused : parse text = .error fault) :
    ∃ stop, document text = .error stop ∧ fault = stop.fault text.length := by
  unfold parse at refused
  cases read : document text with
  | ok tree =>
    rw [read] at refused
    cases refused
  | error stop =>
    rw [read] at refused
    exact ⟨stop, rfl, (Except.error.inj refused).symm⟩

/-- The unit at the position is the first with which the text is not viable. -/
theorem viable_of_unexpectedToken {text : Units} {unit : CodeUnit} {position : Nat}
    (refused : parse text = .error (.unexpectedToken unit position)) :
    text[position]? = some unit ∧ Grammar.Viable (text.take position) ∧
      ¬ Grammar.Viable (text.take (position + 1)) := by
  obtain ⟨⟨objection, rest⟩, read, named⟩ := exists_stop_of_parse refused
  cases objection <;> cases rest <;> cases named
  rename_i rest
  obtain ⟨front, completion, tree, split, spelled, _⟩ := document_completable read (Or.inl rfl)
  dsimp only at split
  have place : text.length - (unit :: rest).length = front.length := by
    rw [split, List.length_append]
    omega
  rw [place]
  subst split
  refine ⟨?_, ?_, ?_⟩
  · rw [List.getElem?_append_right (Nat.le_refl _), Nat.sub_self]
    rfl
  · rw [List.take_left]
    exact ⟨completion, tree, spelled⟩
  · rintro ⟨other, otherTree, document⟩
    rw [List.take_length_add_append, List.take_succ_cons, List.take_zero, List.append_assoc,
      List.singleton_append] at document
    exact not_document_of_unexpected read other otherTree document

/-- A text that ends too early can be completed. -/
theorem completable_of_missing {text : Units} {fault : Fault} (refused : parse text = .error fault)
    (missing : fault = .unexpectedEnd ∨ fault = .unterminatedString) :
    ∃ completion tree, completion ≠ [] ∧ Grammar.Document tree (text ++ completion) := by
  obtain ⟨⟨objection, rest⟩, read, named⟩ := exists_stop_of_parse refused
  -- Only these two objections become faults of this kind, and of the first nothing is left.
  have parts : (Stop.mk objection rest).Open ∧ (objection = .unexpected → rest = []) := by
    rcases missing with rfl | rfl <;> cases objection <;> cases rest <;> cases named
    · exact ⟨Or.inl rfl, fun _ => rfl⟩
    · exact ⟨Or.inr rfl, nofun⟩
    · exact ⟨Or.inr rfl, nofun⟩
  obtain ⟨front, completion, tree, split, spelled, some, ended⟩ :=
    document_completable read parts.1
  have nothing : rest = [] := parts.1.elim parts.2 ended
  dsimp only at split some
  rw [nothing, List.append_nil] at split
  exact ⟨completion, tree, some nothing, split ▸ spelled⟩

/-! ### Wording -/

theorem take_toList_append (opening more : String) (long : 12 ≤ opening.toList.length) :
    (opening ++ more).toList.take 12 = opening.toList.take 12 := by
  rw [String.toList_append, List.take_append_of_le_length long]

/-- The first letters of a message. -/
def Fault.opening : Fault → String
  | .unexpectedEnd => "Unexpected e"
  | .unexpectedToken .. => "Unexpected t"
  | .unterminatedString => "Unterminated"
  | .controlCharacter _ => "Bad control "
  | .badEscape .. => "Bad escaped "
  | .badUnicodeEscape _ => "Bad Unicode "
  | .leadingZero _ => "Leading zero"
  | .tooDeep => "Maximum JSON"

theorem take_message (fault : Fault) :
    fault.message.toList.take 12 = fault.opening.toList := by
  cases fault with
  | unexpectedEnd | unterminatedString | tooDeep => decide +kernel
  | controlCharacter | badUnicodeEscape | leadingZero =>
    dsimp only [Fault.message, Fault.opening]
    rw [take_toList_append _ _ (by decide +kernel)]
    decide +kernel
  | unexpectedToken | badEscape =>
    dsimp only [Fault.message, Fault.opening]
    rw [String.append_assoc, String.append_assoc, take_toList_append _ _ (by decide +kernel)]
    decide +kernel

/-- What stands before the last mark and what stands after it. -/
theorem split_at_last {mark : Char} {front other last otherLast : List Char}
    (without : mark ∉ last) (otherWithout : mark ∉ otherLast)
    (same : front ++ mark :: last = other ++ mark :: otherLast) :
    front = other ∧ last = otherLast := by
  rcases List.append_eq_append_iff.mp same with ⟨gap, rfl, rest⟩ | ⟨gap, rfl, rest⟩
  · cases gap with
    | nil => exact ⟨(List.append_nil _).symm, (List.cons.inj rest).2⟩
    | cons first gap =>
      refine absurd ?_ without
      rw [(List.cons.inj rest).2]
      exact List.mem_append_right _ List.mem_cons_self
  · cases gap with
    | nil => exact ⟨List.append_nil _, (List.cons.inj rest).2.symm⟩
    | cons first gap =>
      refine absurd ?_ otherWithout
      rw [(List.cons.inj rest).2]
      exact List.mem_append_right _ List.mem_cons_self

theorem not_mem_toString (value : Nat) : ' ' ∉ (toString value).toList := by
  intro blank
  rw [Nat.toString_eq_repr, Nat.toList_repr] at blank
  exact absurd (Nat.isDigit_of_mem_toDigits (by decide) (by decide) blank) (by decide)

theorem message_unexpectedToken (unit : CodeUnit) (position : Nat) :
    (Fault.unexpectedToken unit position).message =
      "Unexpected token '" ++ displayed [unit] ++ "' in JSON at position " ++ toString position :=
  rfl

/-- The letters of a message about a token, split at the last blank. -/
theorem toList_tokenMessage (shown : String) (position : Nat) :
    ("Unexpected token '" ++ shown ++ "' in JSON at position " ++ toString position).toList =
      ("Unexpected token '".toList ++ shown.toList ++ "' in JSON at position".toList) ++
        ' ' :: (toString position).toList := by
  have lastBlank : "' in JSON at position ".toList =
      "' in JSON at position".toList ++ [' '] := by decide +kernel
  rw [String.toList_append, String.toList_append, String.toList_append, lastBlank,
    ← List.append_assoc, List.append_assoc, List.singleton_append]

/-- The message about an unexpected token tells the token and its position. -/
theorem unexpectedToken_of_message {fault : Fault} {shown : String} {position : Nat}
    (same : fault.message =
      "Unexpected token '" ++ shown ++ "' in JSON at position " ++ toString position) :
    ∃ unit, fault = .unexpectedToken unit position ∧ shown = displayed [unit] := by
  have opening : fault.opening = "Unexpected t" := by
    apply String.toList_injective
    rw [← take_message, same, String.append_assoc, String.append_assoc,
      take_toList_append _ _ (by decide +kernel)]
    decide +kernel
  cases fault with
  | unexpectedToken unit place =>
    rw [message_unexpectedToken] at same
    have letters := congrArg String.toList same
    rw [toList_tokenMessage, toList_tokenMessage] at letters
    obtain ⟨front, last⟩ :=
      split_at_last (not_mem_toString place) (not_mem_toString position) letters
    have samePlace : place = position := by
      rw [Nat.toString_eq_repr, Nat.toString_eq_repr, Nat.toList_repr, Nat.toList_repr] at last
      exact toDigits_injective last
    have sameToken := List.append_cancel_left (List.append_cancel_right front)
    exact ⟨unit, by rw [samePlace], (String.toList_injective sameToken).symm⟩
  | _ => exact absurd opening (by dsimp only [Fault.opening]; decide +kernel)

/-- The two messages about missing text are those of the two faults. -/
theorem missing_of_message {fault : Fault}
    (same : fault.message = "Unexpected end of JSON input" ∨
      fault.message = "Unterminated string in JSON") :
    fault = .unexpectedEnd ∨ fault = .unterminatedString := by
  have opening : fault.opening = "Unexpected e" ∨ fault.opening = "Unterminated" := by
    refine same.imp (fun same => ?_) fun same => ?_ <;> apply String.toList_injective <;>
      rw [← take_message, same] <;> decide +kernel
  cases fault with
  | unexpectedEnd => exact Or.inl rfl
  | unterminatedString => exact Or.inr rfl
  | _ => exact absurd opening (by dsimp only [Fault.opening]; decide +kernel)

/-- Parsing that fails at an unexpected token names the first unit with which the text is no longer
the start of any text of the grammar; and a text of which parsing says that it ends too early, or
within a string, is the start of a longer one. -/
theorem readValue_names_offender (call : Caller) (realm : RealmId) {text : Units}
    {world after : World} {error : Error}
    (threw : (readValue call realm text).outcome world = .threw error after) :
    (∀ shown position,
      error.message =
          "Unexpected token '" ++ shown ++ "' in JSON at position " ++ toString position →
        ∃ unit, text[position]? = some unit ∧ shown = displayed [unit] ∧
          Grammar.Viable (text.take position) ∧ ¬ Grammar.Viable (text.take (position + 1))) ∧
      (error.message = "Unexpected end of JSON input" ∨
          error.message = "Unterminated string in JSON" →
        ∃ completion tree, completion ≠ [] ∧ Grammar.Document tree (text ++ completion)) := by
  cases parsed : parse text with
  | ok tree =>
    obtain ⟨value, after, done⟩ := readValue_of_ok parsed call realm world
    rw [done] at threw
    cases threw
  | error fault =>
    rw [readValue_of_error parsed] at threw
    cases threw
    refine ⟨fun shown position same => ?_, fun same => ?_⟩
    · obtain ⟨unit, rfl, display⟩ := unexpectedToken_of_message same
      obtain ⟨here, viable, dead⟩ := viable_of_unexpectedToken parsed
      exact ⟨unit, here, display, viable, dead⟩
    · exact completable_of_missing parsed (missing_of_message same)

/-- In an array that goes on with a letter, the letter is named; and a text that ends within a
string in an array could go on. -/
theorem readValue_names_offender_in_array :
    Grammar.Viable (unitsOf "[1") ∧ ¬ Grammar.Viable (unitsOf "[1x") ∧
      ∃ completion tree, completion ≠ [] ∧
        Grammar.Document tree (unitsOf "[\"a" ++ completion) := by
  have letter : parse (unitsOf "[1x]") = .error (.unexpectedToken 0x78 2) := rfl
  have string : parse (unitsOf "[\"a") = .error .unterminatedString := rfl
  have refused := readValue_of_error letter (callWithin 0) 0 (World.fresh 1)
  have ended := readValue_of_error string (callWithin 0) 0 (World.fresh 1)
  obtain ⟨unit, _, _, viable, dead⟩ :=
    (readValue_names_offender (callWithin 0) 0 refused).1 "x" 2 (by decide +kernel)
  exact ⟨viable, dead, (readValue_names_offender (callWithin 0) 0 ended).2 (Or.inr rfl)⟩

end EcmaCore.Json
