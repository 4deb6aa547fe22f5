/-!
# What can be wrong with a wire message

A message is refused with the first thing that is wrong with it and with the way to it: the fields
in which the reader was when it stopped.  The way is kept from the inside outwards, which is also
the order in which it is shown.
-/

namespace ContainerUsage.Wire

/-- The six shapes that a field can have on the wire. -/
inductive WireType where
  | varint
  | sixtyFourBit
  | lengthDelimited
  | startGroup
  | endGroup
  | thirtyTwoBit
  deriving DecidableEq, Repr

/-- The shape with a given code in the low three bits of a key. -/
def WireType.ofCode? : Nat → Option WireType
  | 0 => some .varint
  | 1 => some .sixtyFourBit
  | 2 => some .lengthDelimited
  | 3 => some .startGroup
  | 4 => some .endGroup
  | 5 => some .thirtyTwoBit
  | _ => none

/-- The code of a shape in the low three bits of a key. -/
def WireType.code : WireType → Nat
  | .varint => 0
  | .sixtyFourBit => 1
  | .lengthDelimited => 2
  | .startGroup => 3
  | .endGroup => 4
  | .thirtyTwoBit => 5

/-- A wire type is read back from its code. -/
theorem WireType.ofCode?_code (w : WireType) : ofCode? w.code = some w := by cases w <;> rfl

/-- Codes have three bits. -/
theorem WireType.code_lt (w : WireType) : w.code < 8 := by cases w <;> decide

/-- The name of a shape in an error text. -/
def WireType.name : WireType → String
  | .varint => "Varint"
  | .sixtyFourBit => "SixtyFourBit"
  | .lengthDelimited => "LengthDelimited"
  | .startGroup => "StartGroup"
  | .endGroup => "EndGroup"
  | .thirtyTwoBit => "ThirtyTwoBit"

/-- The reasons to refuse a message. -/
inductive Fault where
  /-- A number does not end in ten bytes, or has more than 64 bits. -/
  | invalidVarint
  /-- A key has more than 32 bits. -/
  | invalidKey (value : Nat)
  /-- The low three bits of a key are no shape. -/
  | invalidWireType (code : Nat)
  /-- A key has the field number zero. -/
  | invalidTag
  /-- A declared field has another shape than it is declared with. -/
  | unexpectedWireType (actual expected : WireType)
  /-- A field is longer than the input that is left. -/
  | underflow
  /-- The fields of a message inside another one do not end where it ends. -/
  | lengthExceeded
  /-- A text is no UTF-8. -/
  | invalidText
  /-- Groups are nested too deeply. -/
  | recursionLimit
  /-- A group ends that is not the one that was begun last. -/
  | unexpectedEndGroup
  deriving DecidableEq, Repr

/-- The text of a reason. -/
def Fault.message : Fault → String
  | .invalidVarint => "invalid varint"
  | .invalidKey value => "invalid key value: " ++ toString value
  | .invalidWireType code => "invalid wire type value: " ++ toString code
  | .invalidTag => "invalid tag value: 0"
  | .unexpectedWireType actual expected =>
    "invalid wire type: " ++ actual.name ++ " (expected " ++ expected.name ++ ")"
  | .underflow => "buffer underflow"
  | .lengthExceeded => "delimited length exceeded"
  | .invalidText => "invalid string value: data is not UTF-8 encoded"
  | .recursionLimit => "recursion limit reached"
  | .unexpectedEndGroup => "unexpected end group tag"

/-- A declared field of a message. -/
structure Place where
  message : String
  field : String
  deriving DecidableEq, Repr

/-- Why a message was refused, and in which fields, the innermost first. -/
structure Error where
  fault : Fault
  path : List Place := []
  deriving DecidableEq, Repr

/-- The same error, seen from the field around it. -/
def Error.within (place : Place) (e : Error) : Error := { e with path := e.path ++ [place] }

/-- The text of an error: the way to it from the inside outwards, then the reason. -/
def Error.message (e : Error) : String :=
  "failed to decode Protobuf message: "
    ++ String.join (e.path.map fun place => place.message ++ "." ++ place.field ++ ": ")
    ++ e.fault.message

end ContainerUsage.Wire
