/-
This file says what the checks find in a realm that nobody has tampered with. The checks of
JSON parsing go to the parsing function through the global object, and find it where it was
put. So the text alone decides: it is accepted, refused for its spelling or refused for its
depth. A text to accept passes in the first case and a text to refuse in the second, so no
text passes as both, and the texts that pass as neither are those that go too deep.
-/

import EcmaCore.Conformance.Suite
import EcmaCore.Proofs.Conformance.Repeating
import EcmaCore.Proofs.Json.Parsing

namespace EcmaCore

/-! ### How parsing ends -/

namespace Json

/-- Parsing the text ends in a value, in every realm of every world. -/
def Accepts (text : String) : Prop :=
  ∀ (call : Caller) (realm : RealmId) (world : World), ∃ value after,
    (readValue call realm (unitsOf text)).outcome world = .done value after

/-- Parsing the text ends in an error of a kind, in every realm of every world. -/
def Refuses (kind : ErrorKind) (text : String) : Prop :=
  ∀ (call : Caller) (realm : RealmId) (world : World), ∃ error after,
    (readValue call realm (unitsOf text)).outcome world = .threw error after ∧ error.kind = kind

variable {text : String} {kind : ErrorKind}

theorem refuses_iff :
    Refuses kind text ↔
      ∃ fault, parse (unitsOf text) = .error fault ∧ (Error.json fault).kind = kind := by
  cases parsed : parse (unitsOf text) with
  | ok tree =>
    refine iff_of_false (fun refuses => ?_) nofun
    obtain ⟨value, after, ends⟩ := readValue_of_ok parsed (callWithin 0) 0 (World.fresh 0)
    obtain ⟨error, later, threw, _⟩ := refuses (callWithin 0) 0 (World.fresh 0)
    cases ends.symm.trans threw
  | error fault =>
    have ends := readValue_of_error parsed
    constructor
    · intro refuses
      obtain ⟨error, later, threw, sameKind⟩ := refuses (callWithin 0) 0 (World.fresh 0)
      cases (ends _ _ _).symm.trans threw
      exact ⟨fault, rfl, sameKind⟩
    · rintro ⟨_, same, sameKind⟩ call realm world
      cases same
      exact ⟨_, _, ends call realm world, sameKind⟩

theorem accepts_iff : Accepts text ↔ ∃ tree, parse (unitsOf text) = .ok tree := by
  cases parsed : parse (unitsOf text) with
  | ok tree => exact iff_of_true (readValue_of_ok parsed) ⟨tree, rfl⟩
  | error fault =>
    refine iff_of_false (fun accepts => ?_) nofun
    obtain ⟨value, after, ends⟩ := accepts (callWithin 0) 0 (World.fresh 0)
    cases (readValue_of_error parsed (callWithin 0) 0 (World.fresh 0)).symm.trans ends

/-- The texts that are accepted are those of the grammar that nest at most 512 deep. -/
theorem accepts_iff_document :
    Accepts text ↔ ∃ tree, Grammar.Document tree (unitsOf text) ∧ tree.depth ≤ 512 := by
  simp only [accepts_iff, parse_ok_iff]

/-- The texts that are refused with an error of range are those that go too deep. -/
theorem refuses_rangeError_iff : Refuses .rangeError text ↔ Grammar.TooDeep (unitsOf text) := by
  rw [refuses_iff, ← parse_tooDeep_iff]
  constructor
  · rintro ⟨fault, parsed, ofRange⟩
    rw [kind_json] at ofRange
    split at ofRange
    · rename_i deep
      rw [parsed, deep]
    · cases ofRange
  · intro parsed
    exact ⟨.tooDeep, parsed, rfl⟩

/-- A text is accepted or refused, and if it is refused then for one of two reasons. -/
theorem not_refuses_syntaxError_iff :
    ¬ Refuses .syntaxError text ↔ Accepts text ∨ Refuses .rangeError text := by
  rw [refuses_iff, refuses_iff, accepts_iff]
  cases parse (unitsOf text) with
  | ok tree => exact iff_of_true nofun (Or.inl ⟨tree, rfl⟩)
  | error fault => cases fault <;> simp [Error.kind]

/-- No text is both accepted and refused. -/
theorem Accepts.not_refuses (accepts : Accepts text) : ¬ Refuses kind text := by
  obtain ⟨tree, parsed⟩ := accepts_iff.mp accepts
  rw [refuses_iff, parsed]
  exact nofun

end Json

/-! ### What the checks find -/

/-- What the check of a text to refuse finds, from what parsing makes of the text. -/
def refusalVerdict (text : String) : Except Json.Fault Json.Tree → Verdict
  | .ok _ => .failed ("should have thrown SyntaxError for JSON.parse on " ++ text)
  | .error fault =>
    if (Error.json fault).isSyntaxError then .passed
    else .failed ("Expected SyntaxError, but got " ++ (Error.json fault).report)

/-- What the check of a text to accept finds. -/
def acceptanceVerdict (text : String) : Except Json.Fault Json.Tree → Verdict
  | .ok _ => .passed
  | .error fault =>
    .failed ("JSON.parse rejected valid input " ++ text ++ ": " ++ (Error.json fault).report)

namespace World.Original

variable {realm : RealmId} {world : World}

/-- The intrinsics of a new realm are as they were made. -/
theorem fresh {count : Nat} (inside : realm < count) : (World.fresh count).Original realm where
  hasIntrinsics := World.hasIntrinsics_fresh inside
  object := World.object_fresh_intrinsic inside
  logged call member := by cases (Array.mem_toList_iff.mpr member : call ∈ ([] : List Call))

/-- Parsing through the global object is parsing, after a note of the call. -/
theorem outcome_parseByGlobal (original : world.Original realm) (depth : Nat) (text : String) :
    (parseByGlobal (callWithin (depth + 1)) realm text).outcome world =
      (Json.readValue (callWithin depth) realm (unitsOf text)).outcome
        (world.logged ⟨(Intrinsic.function .jsonParse).id realm, Intrinsic.json.value realm,
          [.ofText text], .begun⟩) := by
  have found : world.search (Intrinsic.global.id realm) (.text "JSON") =
      .found (Intrinsic.global.id realm) (.hidden (Intrinsic.json.value realm)) := by
    refine World.search_of_own? ?_
    rw [original.object]
    rfl
  have looked : (globalGet (callWithin (depth + 1)) realm "JSON").outcome world =
      .done (Intrinsic.json.value realm) world :=
    outcome_getFor_of_found _ realm _ found
  have method : world.search (Intrinsic.json.id realm) (.text "parse") =
      .found (Intrinsic.json.id realm)
        (.hidden ((Intrinsic.function .jsonParse).value realm)) := by
    refine World.search_of_own? ?_
    rw [original.object]
    rfl
  have called : (world.object ((Intrinsic.function .jsonParse).id realm)).callable =
      some ⟨"parse", .builtin .jsonParse⟩ := by
    rw [original.object]
    rfl
  rw [parseByGlobal, Run.outcome_bind_of_done looked]
  refine (outcome_invoke _ realm [.ofText text] method).trans ?_
  refine (outcome_callWithin depth realm _ _ called).trans ?_
  show (Json.readValue (callWithin depth) realm (unitsOf text) >>= _).outcome
    (world.logged ⟨(Intrinsic.function .jsonParse).id realm, Intrinsic.json.value realm,
      [.ofText text], .begun⟩) = _
  rw [Run.outcome_bind]
  cases (Json.readValue (callWithin depth) realm (unitsOf text)).outcome _ <;> rfl

theorem outcome_checkInvalid (original : world.Original realm) (depth : Nat) (text : String) :
    ∃ after, (checkInvalid (callWithin (depth + 1)) realm text).outcome world =
      .done (refusalVerdict text (Json.parse (unitsOf text))) after := by
  rw [checkInvalid, Run.outcome_bind, Run.outcome_attempt, original.outcome_parseByGlobal]
  cases parsed : Json.parse (unitsOf text) with
  | ok tree =>
    obtain ⟨value, after, ends⟩ := Json.readValue_of_ok parsed (callWithin depth) realm _
    rw [ends]
    exact ⟨after, rfl⟩
  | error fault =>
    rw [Json.readValue_of_error parsed, refusalVerdict]
    simp only [Outcome.attempted, Outcome.andThen_done]
    split <;> exact ⟨_, rfl⟩

theorem outcome_checkValid (original : world.Original realm) (depth : Nat) (text : String) :
    ∃ after, (checkValid (callWithin (depth + 1)) realm text).outcome world =
      .done (acceptanceVerdict text (Json.parse (unitsOf text))) after := by
  rw [checkValid, Run.outcome_bind, Run.outcome_attempt, original.outcome_parseByGlobal]
  cases parsed : Json.parse (unitsOf text) with
  | ok tree =>
    obtain ⟨value, after, ends⟩ := Json.readValue_of_ok parsed (callWithin depth) realm _
    rw [ends]
    exact ⟨after, rfl⟩
  | error fault =>
    rw [Json.readValue_of_error parsed]
    exact ⟨_, rfl⟩

end World.Original

/-! ### What their conduct comes to -/

namespace Check

variable {depth : Nat}

theorem conduct_of_done (check : Check) {verdict : Verdict} {after : World}
    (ends : (check.run (callWithin depth) 0).outcome (World.fresh 1) = .done verdict after) :
    check.conduct depth = ⟨check.name, verdict.complaint?⟩ := by
  rw [conduct, ends]

/-- A check of a text to refuse passes for the texts that are misspelled. -/
theorem passed_invalidJson (depth : Nat) (text : String) :
    ((invalidJson text).conduct (depth + 1)).passed = true ↔ Json.Refuses .syntaxError text := by
  obtain ⟨after, ends⟩ := (World.Original.fresh Nat.zero_lt_one).outcome_checkInvalid depth text
  rw [conduct_of_done (invalidJson text) ends, Json.refuses_iff]
  cases Json.parse (unitsOf text) with
  | ok tree => exact iff_of_false Bool.false_ne_true nofun
  | error fault =>
    rw [refusalVerdict]
    split
    · rename_i misspelled
      exact iff_of_true rfl ⟨fault, rfl, beq_iff_eq.mp misspelled⟩
    · rename_i other
      refine iff_of_false Bool.false_ne_true ?_
      rintro ⟨_, same, misspelled⟩
      cases same
      exact other (beq_iff_eq.mpr misspelled)

/-- A check of a text to accept passes for the texts that are accepted. -/
theorem passed_validJson (depth : Nat) (text : String) :
    ((validJson text).conduct (depth + 1)).passed = true ↔ Json.Accepts text := by
  obtain ⟨after, ends⟩ := (World.Original.fresh Nat.zero_lt_one).outcome_checkValid depth text
  rw [conduct_of_done (validJson text) ends, Json.accepts_iff]
  cases Json.parse (unitsOf text) with
  | ok tree => exact iff_of_true rfl ⟨tree, rfl⟩
  | error fault => exact iff_of_false Bool.false_ne_true nofun

theorem passed_mapping (depth : Nat) (name : String) (warns : Bool) :
    ((mapping name warns).conduct (depth + 2)).passed = true := by
  obtain ⟨after, ends, _⟩ := (World.Original.fresh Nat.zero_lt_one).outcome_checkMap depth warns
  rw [conduct_of_done (mapping name warns) ends]
  rfl

end Check

/-- The builtin checks pass, whether warnings are shown or not. -/
theorem Suite.passed_builtin (depth : Nat) (warns : Bool) :
    ∀ check ∈ (builtin warns).checks, (check.conduct (depth + 2)).passed = true := by
  have refused : ∀ text ∈ invalidTexts,
      refusalVerdict text (Json.parse (unitsOf text)) = .passed := by decide +kernel
  have accepted : ∀ text ∈ validTexts,
      acceptanceVerdict text (Json.parse (unitsOf text)) = .passed := by decide +kernel
  have original : (World.fresh 1).Original 0 := .fresh Nat.zero_lt_one
  rw [builtin, List.forall_mem_append, List.forall_mem_append, List.forall_mem_map,
    List.forall_mem_map, List.forall_mem_singleton]
  refine ⟨⟨fun text member => ?_, fun text member => ?_⟩, Check.passed_mapping depth _ warns⟩
  · obtain ⟨after, ends⟩ := original.outcome_checkInvalid (depth + 1) text
    rw [refused text member] at ends
    rw [Check.conduct_of_done (.invalidJson text) ends]
    rfl
  · obtain ⟨after, ends⟩ := original.outcome_checkValid (depth + 1) text
    rw [accepted text member] at ends
    rw [Check.conduct_of_done (.validJson text) ends]
    rfl

end EcmaCore
