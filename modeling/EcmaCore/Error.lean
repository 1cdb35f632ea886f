/-
This file holds the errors of the engine. Each constructor is one cause and carries
what its message shows; the kind of error a script would see and the wording are
functions of the cause. An error that a host function raises has the kind and the
wording it was given.
-/

import EcmaCore.Json.Fault
import EcmaCore.Key

namespace EcmaCore

/-- The native error constructors, and values thrown as they are. -/
inductive ErrorKind
  | syntaxError
  | typeError
  | rangeError
  | referenceError
  | thrown
deriving DecidableEq, Repr

/-- The name of the constructor that a script would see. -/
def ErrorKind.name : ErrorKind → String
  | .syntaxError => "SyntaxError"
  | .typeError => "TypeError"
  | .rangeError => "RangeError"
  | .referenceError => "ReferenceError"
  | .thrown => "Error"

/-- Why an operation failed. A field `shown` is the text of a value at that moment. -/
inductive Error
  | json (fault : Json.Fault)
  | notCallable (shown : String)
  | notCoercible (shown : String)
  | noPrimitive
  | readOnly (key : Key)
  | notRedefinable (key : Key)
  | notExtensible (key : Key)
  | invalidLength
  | definitionOnPrimitive
  | descriptionNotObject (shown : String)
  | getterNotCallable (shown : String)
  | setterNotCallable (shown : String)
  | mixedDescription
  | circular
  | raised (kind : ErrorKind) (message : String)
deriving DecidableEq

namespace Error

/-- The kind of a cause. JSON text is wrong in spelling or too deep; a bad array length is out of
range; every other engine error is one of type. -/
def kind : Error → ErrorKind
  | .json .tooDeep => .rangeError
  | .json _ => .syntaxError
  | .invalidLength => .rangeError
  | .raised kind _ => kind
  | _ => .typeError

/-- The wording of a cause. -/
def message : Error → String
  | .json fault => fault.message
  | .notCallable shown => shown ++ " is not a function"
  | .notCoercible shown => "Cannot convert " ++ shown ++ " to object"
  | .noPrimitive => "Cannot convert object to primitive value"
  | .readOnly key => "Cannot assign to read only property '" ++ key.display ++ "'"
  | .notRedefinable key => "Cannot redefine property: " ++ key.display
  | .notExtensible key =>
    "Cannot define property " ++ key.display ++ ", object is not extensible"
  | .invalidLength => "Invalid array length"
  | .definitionOnPrimitive => "Object.defineProperty called on non-object"
  | .descriptionNotObject shown => "Property description must be an object: " ++ shown
  | .getterNotCallable shown => "Getter must be a function: " ++ shown
  | .setterNotCallable shown => "Setter must be a function: " ++ shown
  | .mixedDescription =>
    "Invalid property descriptor. Cannot both specify accessors and a value or writable attribute"
  | .circular => "Converting circular structure to JSON"
  | .raised _ message => message

/-- The name of the constructor that a script would see. -/
def name (error : Error) : String := error.kind.name

/-- The error is one of spelling. -/
def isSyntaxError (error : Error) : Bool := error.kind == .syntaxError

/-- The whole text of an error that no script caught. -/
def report (error : Error) : String :=
  match error.kind with
  | .thrown => "Uncaught " ++ error.message
  | kind => kind.name ++ ": " ++ error.message

end Error

/-- An error that a host makes, with the place that it names. The errors that the engine raises name
none. -/
structure LocatedError where
  error : Error
  file : String
  line : Nat
  method : String
deriving DecidableEq

/-- The place as a reader of diagnostics sees it. -/
def LocatedError.origin (located : LocatedError) : String :=
  located.method ++ " " ++ located.file ++ ":" ++ toString located.line

end EcmaCore
