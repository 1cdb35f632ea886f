/-
This file joins the two halves of parsing: the text decides whether there is a tree,
and a tree always becomes a value. So the text alone decides how parsing ends, whatever
scripts have done to the realm, and its errors are those of the text: one of range for
a text that goes too deep in good order, one of syntax for every other.
-/

import EcmaCore.Proofs.Json.Planting

namespace EcmaCore.Json

theorem readValue_of_ok {text : Units} {tree : Tree} (parsed : parse text = .ok tree)
    (call : Caller) (realm : RealmId) (world : World) :
    ∃ value after, (readValue call realm text).outcome world = .done value after := by
  obtain ⟨value, after, planted, _⟩ := plant_done call realm tree world
  exact ⟨value, after, by rw [readValue, parsed]; exact planted⟩

theorem readValue_of_error {text : Units} {fault : Fault} (parsed : parse text = .error fault)
    (call : Caller) (realm : RealmId) (world : World) :
    (readValue call realm text).outcome world = .threw (.json fault) world := by
  rw [readValue, parsed]
  exact Run.outcome_throw _ world

theorem kind_json (fault : Fault) :
    (Error.json fault).kind = if fault = .tooDeep then .rangeError else .syntaxError := by
  cases fault <;> rfl

/-- Parsing ends in a value for the texts of the grammar that nest at most 512 deep. For every other
text it ends in an error, one of range if the text goes deeper before it breaks any other rule and
one of syntax if not. -/
theorem readValue_ends (call : Caller) (realm : RealmId) (text : Units) (world : World) :
    ((∃ value after, (readValue call realm text).outcome world = .done value after) ↔
      ∃ tree, Grammar.Document tree text ∧ tree.depth ≤ 512) ∧
    ((∃ value after, (readValue call realm text).outcome world = .done value after) ∨
      ∃ error after, (readValue call realm text).outcome world = .threw error after ∧
        (error.kind = .rangeError ∧ Grammar.TooDeep text ∨
          error.kind = .syntaxError ∧ ¬ Grammar.TooDeep text)) := by
  cases parsed : parse text with
  | ok tree =>
    have ends := readValue_of_ok parsed call realm world
    exact ⟨⟨fun _ => ⟨tree, parse_ok_iff.mp parsed⟩, fun _ => ends⟩, Or.inl ends⟩
  | error fault =>
    have ends := readValue_of_error parsed call realm world
    refine ⟨⟨?_, ?_⟩, Or.inr ⟨_, _, ends, ?_⟩⟩
    · rintro ⟨value, after, done⟩
      rw [ends] at done
      cases done
    · rintro ⟨tree, spelled⟩
      rw [parse_ok_iff.mpr spelled] at parsed
      cases parsed
    · rw [kind_json]
      by_cases deep : fault = .tooDeep
      · subst deep
        exact Or.inl ⟨rfl, parse_tooDeep_iff.mp parsed⟩
      · refine Or.inr ⟨if_neg deep, fun tooDeep => deep ?_⟩
        rw [parse_tooDeep_iff.mpr tooDeep] at parsed
        exact (Except.error.inj parsed).symm

end EcmaCore.Json
