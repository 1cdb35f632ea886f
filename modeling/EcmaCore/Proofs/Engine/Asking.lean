/-
This file keeps account of how scripts take part in an operation. Reading a property may call
a getter, and a conversion may call methods; all else that happens before a property is
written leaves the world as it is. So the world in which an operation comes to write is
reached by calls alone, of functions that were found under known names, on known receivers
and with known arguments. Where there is nothing to call, it is the world from the start.
-/

import EcmaCore.Engine.Description
import EcmaCore.Proofs.World.Chains

namespace EcmaCore

variable {α β : Type}

/-- The world in which a run ended, whether by a value or an error. -/
def Outcome.last? : Outcome α → Option World
  | .done _ world => some world
  | .threw _ world => some world
  | .cutOff => none

/-- Which calls may be made in a world: of which function, on what, with what. -/
abbrev Asking := World → Value → Value → List Value → Prop

/-- The second world comes from the first by calls alone, one after another. -/
inductive World.Asked (call : Caller) (realm : RealmId) (may : Asking) (start : World) :
    World → Prop
  | nothing : Asked call realm may start start
  | called {before after : World} {function receiver : Value} {arguments : List Value}
      (early : Asked call realm may start before)
      (allowed : may before function receiver arguments)
      (ended : ((call realm function receiver arguments).outcome before).last? = some after) :
      Asked call realm may start after

/-- What the run does from a world on it does by such calls. -/
def Run.Asks (call : Caller) (realm : RealmId) (may : Asking) (run : Run α) (world : World) :
    Prop :=
  ∀ after, (run.outcome world).last? = some after → world.Asked call realm may after

variable {call : Caller} {realm : RealmId} {may : Asking} {start world between after : World}
  {id : ObjectId} {key : Key} {value : Value}

/-! ### Worlds that calls lead to -/

namespace World.Asked

theorem trans (early : start.Asked call realm may between)
    (late : between.Asked call realm may after) : start.Asked call realm may after := by
  induction late with
  | nothing => exact early
  | called _ allowed ended inductionHypothesis => exact .called inductionHypothesis allowed ended

theorem mono {wider : Asking} (asked : start.Asked call realm may after)
    (allows : ∀ world function receiver arguments, may world function receiver arguments →
      wider world function receiver arguments) : start.Asked call realm wider after := by
  induction asked with
  | nothing => exact .nothing
  | called _ allowed ended inductionHypothesis =>
    exact .called inductionHypothesis (allows _ _ _ _ allowed) ended

end World.Asked

/-! ### Putting runs together -/

namespace Run

theorem asks_pure (value : α) (world : World) :
    (pure value : Run α).Asks call realm may world := by
  intro after ended
  cases ended
  exact .nothing

theorem asks_throw (error : Error) (world : World) :
    (throw error : Run α).Asks call realm may world := by
  intro after ended
  cases ended
  exact .nothing

theorem asks_read (view : World → α) (world : World) :
    (read view).Asks call realm may world := by
  intro after ended
  cases ended
  exact .nothing

theorem asks_cutOff (world : World) : (cutOff : Run α).Asks call realm may world := nofun

theorem Asks.bind {run : Run α} {continuation : α → Run β}
    (first : run.Asks call realm may world)
    (rest : ∀ value between, run.outcome world = .done value between →
      (continuation value).Asks call realm may between) :
    (run >>= continuation).Asks call realm may world := by
  intro after ended
  rw [outcome_bind] at ended
  cases begun : run.outcome world with
  | done value between =>
    rw [begun] at ended
    exact (first between (by rw [begun]; rfl)).trans (rest value between begun after ended)
  | threw error between =>
    rw [begun] at ended
    exact first after (by rw [begun]; exact ended)
  | cutOff =>
    rw [begun] at ended
    cases ended

/-- A value that is only passed on needs no call. -/
theorem Asks.map {run : Run α} (asks : run.Asks call realm may world) (result : α → β) :
    (run >>= fun value => pure (result value)).Asks call realm may world :=
  asks.bind fun value between _ => asks_pure (result value) between

theorem Asks.mono {wider : Asking} {run : Run α} (asks : run.Asks call realm may world)
    (allows : ∀ world function receiver arguments, may world function receiver arguments →
      wider world function receiver arguments) : run.Asks call realm wider world :=
  fun after ended => (asks after ended).mono allows

theorem asks_call {function receiver : Value} {arguments : List Value}
    (allowed : may world function receiver arguments) :
    (call realm function receiver arguments).Asks call realm may world :=
  fun _ ended => .called .nothing allowed ended

/-- What ended in a value or an error was asked of scripts. -/
theorem Asks.of_done {run : Run α} {value : α} (asks : run.Asks call realm may world)
    (ended : run.outcome world = .done value after) : world.Asked call realm may after :=
  asks after (by rw [ended]; rfl)

theorem Asks.of_threw {run : Run α} {error : Error} (asks : run.Asks call realm may world)
    (ended : run.outcome world = .threw error after) : world.Asked call realm may after :=
  asks after (by rw [ended]; rfl)

theorem asks_search (id : ObjectId) (key : Key) (world : World) :
    (search id key).Asks call realm may world := by
  refine (asks_read _ world).bind fun found between ended => ?_
  cases found with
  | found holder property => exact asks_pure _ between
  | absent => exact asks_pure _ between
  | endless => exact asks_cutOff between

/-- A search that has an answer found the property, or that there is none, where it stands. -/
theorem search_of_outcome {found : Option Property}
    (ended : (search id key).outcome world = .done found between) :
    between = world ∧ ((∃ holder property, found = some property ∧
      world.search id key = .found holder property) ∨
        found = none ∧ world.search id key = .absent) := by
  rw [search, outcome_bind_of_done (outcome_read _ world)] at ended
  cases searched : world.search id key with
  | found holder property =>
    rw [searched] at ended
    cases ended
    exact ⟨rfl, Or.inl ⟨holder, property, rfl, rfl⟩⟩
  | absent =>
    rw [searched] at ended
    cases ended
    exact ⟨rfl, Or.inr ⟨rfl, rfl⟩⟩
  | endless =>
    rw [searched] at ended
    cases ended

end Run

/-! ### Reading properties -/

/-- The getters of an object, called on it, when its properties of some names are read. -/
inductive Asking.Reading (names : List String) (id : ObjectId) : Asking
  | getter {world : World} {name : String} {holder : ObjectId} {function : Value}
      {setter : Option Value} {enumerable configurable : Bool} (named : name ∈ names)
      (found : world.search id (.text name) =
        .found holder (.accessor (some function) setter enumerable configurable)) :
      Reading names id world function (.object id) []

theorem asks_get {names : List String} {name : String} (named : name ∈ names) (world : World) :
    (get call realm id (.text name)).Asks call realm (.Reading names id) world := by
  refine (Run.asks_search id (.text name) world).bind fun found between ended => ?_
  obtain ⟨rfl, ⟨holder, property, rfl, found⟩ | ⟨rfl, absent⟩⟩ := Run.search_of_outcome ended
  · cases property with
    | data value writable enumerable configurable => exact Run.asks_pure _ _
    | accessor getter setter enumerable configurable =>
      cases getter with
      | none => exact Run.asks_pure _ _
      | some function => exact Run.asks_call (.getter named found)
  · exact Run.asks_pure _ _

/-! ### Conversions -/

/-- The names of the methods by which an object becomes a primitive value. -/
def conversionNames : List String := ["valueOf", "toString"]

/-- The methods by which a value becomes a primitive value, called on it without arguments, and the
getters through which they are found. -/
inductive Asking.Converting (call : Caller) (realm : RealmId) (value : Value) : Asking
  | getter {id : ObjectId} {world : World} {function receiver : Value} {arguments : List Value}
      (object : value = .object id)
      (reading : Reading conversionNames id world function receiver arguments) :
      Converting call realm value world function receiver arguments
  | method {id : ObjectId} {before world : World} {name : String} {function : Value}
      (object : value = .object id) (named : name ∈ conversionNames)
      (read : (get call realm id (.text name)).outcome before = .done function world) :
      Converting call realm value world function value []

theorem asks_firstPrimitive {names : List String} (named : names ⊆ conversionNames)
    (world : World) :
    (firstPrimitive call realm id names).Asks call realm (.Converting call realm (.object id))
      world := by
  induction names generalizing world with
  | nil => exact Run.asks_throw _ world
  | cons name rest inductionHypothesis =>
    obtain ⟨first, others⟩ := List.cons_subset.mp named
    have reading : (get call realm id (.text name)).Asks call realm
        (.Converting call realm (.object id)) world :=
      (asks_get first world).mono fun _ _ _ _ => .getter rfl
    refine reading.bind fun method between read => ?_
    refine (Run.asks_read _ between).bind fun callable still ended => ?_
    cases ended
    split
    · refine (Run.asks_call (.method rfl first read)).bind fun result after _ => ?_
      cases result with
      | object other => exact inductionHypothesis others after
      | _ => exact Run.asks_pure _ after
    · exact inductionHypothesis others between

theorem asks_toNumber (value : Value) (world : World) :
    (toNumber call realm value).Asks call realm (.Converting call realm value) world := by
  cases value with
  | object id => exact (asks_firstPrimitive (List.Subset.refl _) world).map _
  | _ => exact Run.asks_pure _ world

/-- The names of the fields of a description. -/
def fieldNames : List String :=
  ["enumerable", "configurable", "value", "writable", "get", "set"]

end EcmaCore
