/-
This file holds property slots and the descriptors that ask for changes to them. A
descriptor may leave any field out; whether a slot admits the change that a
descriptor asks for, and what the slot becomes, are two separate functions of the
slot and the descriptor alone.

A configurable slot admits everything. A slot that is not configurable admits only
what it already says, with two ways left open: a writable value may still change, and
a writable slot may still be made read-only.
-/

import EcmaCore.Value

namespace EcmaCore

/-- An own property: a value, or a pair of optional accessor functions. -/
inductive Property
  | data (value : Value) (writable enumerable configurable : Bool)
  | accessor (getter setter : Option Value) (enumerable configurable : Bool)
deriving DecidableEq

namespace Property

/-- The property takes part in enumeration. -/
def enumerable : Property → Bool
  | .data _ _ enumerable _ => enumerable
  | .accessor _ _ enumerable _ => enumerable

/-- The property may be deleted and redefined. -/
def configurable : Property → Bool
  | .data _ _ _ configurable => configurable
  | .accessor _ _ _ configurable => configurable

/-- The property is a pair of accessors. -/
def isAccessor : Property → Bool
  | .data .. => false
  | .accessor .. => true

/-- A data property with every attribute set, as an assignment creates it. -/
def plain (value : Value) : Property := .data value true true true

/-- A data property as builtin methods are installed: all but enumerable. -/
def hidden (value : Value) : Property := .data value true false true

end Property

/-- A request to define a property. A getter or setter of undefined asks for none. -/
structure Descriptor where
  value : Option Value := none
  writable : Option Bool := none
  getter : Option Value := none
  setter : Option Value := none
  enumerable : Option Bool := none
  configurable : Option Bool := none
deriving DecidableEq

namespace Descriptor

/-- The descriptor names an accessor. -/
def isAccessor (descriptor : Descriptor) : Bool :=
  descriptor.getter.isSome || descriptor.setter.isSome

/-- The descriptor names a value or its writability. -/
def isData (descriptor : Descriptor) : Bool :=
  descriptor.value.isSome || descriptor.writable.isSome

/-- The descriptor is about neither kind of property. -/
def isGeneric (descriptor : Descriptor) : Bool := !descriptor.isAccessor && !descriptor.isData

/-- A data descriptor with every field given. -/
def data (value : Value) (writable enumerable configurable : Bool) : Descriptor :=
  { value := some value, writable := some writable, enumerable := some enumerable,
    configurable := some configurable }

/-- The descriptor that says all that a slot holds; an absent accessor is given as undefined. -/
def ofProperty : Property → Descriptor
  | .data value writable enumerable configurable => data value writable enumerable configurable
  | .accessor getter setter enumerable configurable =>
    { getter := some (getter.getD .undefined), setter := some (setter.getD .undefined),
      enumerable := some enumerable, configurable := some configurable }

/-- The accessor half that a field asks for, none for undefined. -/
def half (field : Option Value) : Option Value := field.filter (· != .undefined)

/-- The slot that the descriptor makes where there was none. Fields left out are undefined, absent
or off. -/
def toProperty (descriptor : Descriptor) : Property :=
  let enumerable := descriptor.enumerable.getD false
  let configurable := descriptor.configurable.getD false
  if descriptor.isAccessor then
    .accessor (half descriptor.getter) (half descriptor.setter) enumerable configurable
  else
    .data (descriptor.value.getD .undefined) (descriptor.writable.getD false) enumerable
      configurable

end Descriptor

namespace Property

/-- An accessor field that is given names the half the slot already has. -/
def keepsHalf (field half : Option Value) : Bool :=
  field.isNone || Value.same (field.getD .undefined) (half.getD .undefined)

/-- What a slot that is not configurable checks about its own kind. -/
def keepsContent (current : Property) (descriptor : Descriptor) : Bool :=
  match current with
  | .accessor getter setter _ _ =>
    keepsHalf descriptor.getter getter && keepsHalf descriptor.setter setter
  | .data _ true _ _ => true
  | .data value false _ _ =>
    descriptor.writable != some true && (descriptor.value.all fun asked => Value.same asked value)

/-- The slot allows the change that the descriptor asks for. -/
def admits (current : Property) (descriptor : Descriptor) : Bool :=
  current.configurable ||
    (descriptor.configurable != some true &&
      (descriptor.enumerable.all (· == current.enumerable)) &&
      (descriptor.isGeneric || descriptor.isAccessor == current.isAccessor) &&
      current.keepsContent descriptor)

/-- The slot after an admitted change. Fields left out keep what the slot had, unless the kind
changes; the enumerable and configurable attributes are kept even then. -/
def revised (current : Property) (descriptor : Descriptor) : Property :=
  let enumerable := descriptor.enumerable.getD current.enumerable
  let configurable := descriptor.configurable.getD current.configurable
  match current with
  | .data value writable _ _ =>
    if descriptor.isAccessor then
      .accessor (Descriptor.half descriptor.getter) (Descriptor.half descriptor.setter) enumerable
        configurable
    else
      .data (descriptor.value.getD value) (descriptor.writable.getD writable) enumerable
        configurable
  | .accessor getter setter _ _ =>
    if descriptor.isData then
      .data (descriptor.value.getD .undefined) (descriptor.writable.getD false) enumerable
        configurable
    else
      .accessor (if descriptor.getter.isSome then Descriptor.half descriptor.getter else getter)
        (if descriptor.setter.isSome then Descriptor.half descriptor.setter else setter)
        enumerable configurable

end Property

end EcmaCore
