import Carve.Binary64.Text
import Carve.Literal
import Carve.Record

namespace Carve

/-- What is wrong with the target of a reference. -/
inductive ReferenceError where
  /-- The field is declared in the same structure, but not earlier. -/
  | laterField
  /-- The structure is declared, but not earlier. -/
  | laterStructure
  | noField (owner : String)
  | noStructure
  | notInteger
deriving Repr, DecidableEq

inductive FieldError where
  | duplicate
  | malformed (error : Literal.Error)
  | notPowerOfTwo (literal : String)
  | sizeTooLarge (literal : String)
  | reference (reference : Reference) (error : ReferenceError)
deriving Repr, DecidableEq

inductive DeclarationError where
  | duplicate
  | malformed (error : Literal.Error)
  | unknownConstant (constant : String)
  | constantTooWide (constant : String) (width : Nat)
  | skipPastEnd (offset length : Int)
deriving Repr, DecidableEq

inductive ConstantError where
  | duplicate (constant : String)
  | malformed (error : Literal.Error)
deriving Repr, DecidableEq

/-- The first rule that a document without a plan breaks, and the declaration that breaks it. -/
inductive PlanError where
  | constant (error : ConstantError)
  | declaration (structureName : String) (error : DeclarationError)
  | field (structureName fieldName : String) (error : FieldError)
deriving Repr, DecidableEq

namespace PlanError

inductive Code where
  | duplicateStructure
  | duplicateField
  | duplicateConstant
  | unknownConstant
  | undeclaredReference
  | forwardReference
  | nonIntegerReference
  | invalidSignature
  | invalidAlignment
  | invalidLiteral
  | skipOutOfRange
deriving Repr, DecidableEq

def Code.text : Code → String
  | .duplicateStructure => "DUPLICATE_STRUCTURE"
  | .duplicateField => "DUPLICATE_FIELD"
  | .duplicateConstant => "DUPLICATE_CONSTANT"
  | .unknownConstant => "UNKNOWN_CONSTANT"
  | .undeclaredReference => "UNDECLARED_REFERENCE"
  | .forwardReference => "FORWARD_REFERENCE"
  | .nonIntegerReference => "NON_INTEGER_REFERENCE"
  | .invalidSignature => "INVALID_SIGNATURE"
  | .invalidAlignment => "INVALID_ALIGNMENT"
  | .invalidLiteral => "INVALID_LITERAL"
  | .skipOutOfRange => "SKIP_OUT_OF_RANGE"

def code : PlanError → Code
  | .constant (.duplicate _) => .duplicateConstant
  | .constant (.malformed _) => .invalidLiteral
  | .declaration _ .duplicate => .duplicateStructure
  | .declaration _ (.malformed _) => .invalidLiteral
  | .declaration _ (.unknownConstant _) => .unknownConstant
  | .declaration _ (.constantTooWide _ _) => .invalidSignature
  | .declaration _ (.skipPastEnd _ _) => .skipOutOfRange
  | .field _ _ .duplicate => .duplicateField
  | .field _ _ (.malformed _) => .invalidLiteral
  | .field _ _ (.notPowerOfTwo _) => .invalidAlignment
  | .field _ _ (.sizeTooLarge _) => .invalidLiteral
  | .field _ _ (.reference _ .laterField) => .forwardReference
  | .field _ _ (.reference _ .laterStructure) => .forwardReference
  | .field _ _ (.reference _ (.noField _)) => .undeclaredReference
  | .field _ _ (.reference _ .noStructure) => .undeclaredReference
  | .field _ _ (.reference _ .notInteger) => .nonIntegerReference

def structureName? : PlanError → Option String
  | .constant _ => none
  | .declaration structureName _ | .field structureName _ _ => some structureName

def fieldName? : PlanError → Option String
  | .constant _ | .declaration _ _ => none
  | .field _ fieldName _ => some fieldName

def referenceMessage (fieldName : String) (reference : Reference) (error : ReferenceError) :
    String :=
  let subject := s!"&{reference.text} in \"{fieldName}\""
  match error with
  | .laterField => s!"{subject} refers to a field decoded later"
  | .laterStructure => s!"{subject} refers to a structure scanned later"
  | .noField owner => s!"{subject} names no field of \"{owner}\""
  | .noStructure => s!"{subject} names no structure"
  | .notInteger => s!"{subject} must point at an integer of at most 64 bits"

def message : PlanError → String
  | .constant (.duplicate name) => s!"Constant \"{name}\" is declared twice"
  | .constant (.malformed error) => error.message
  | .declaration structureName .duplicate => s!"Structure \"{structureName}\" is declared twice"
  | .declaration _ (.malformed error) => error.message
  | .declaration structureName (.unknownConstant name) =>
      s!"Structure \"{structureName}\" uses undeclared constant \"{name}\""
  | .declaration _ (.constantTooWide name width) =>
      s!"Constant \"{name}\" does not fit in {width} byte(s)"
  | .declaration structureName (.skipPastEnd offset length) =>
      s!"Structure \"{structureName}\" skips to {Number.text offset}, " ++
        s!"past the stream end ({Number.text length})"
  | .field structureName fieldName .duplicate =>
      s!"Field \"{fieldName}\" is declared twice in \"{structureName}\""
  | .field _ _ (.malformed error) => error.message
  | .field _ fieldName (.notPowerOfTwo literal) =>
      s!"Alignment {literal} of \"{fieldName}\" is not a power of two"
  | .field _ fieldName (.sizeTooLarge literal) => s!"Size {literal} of \"{fieldName}\" is too large"
  | .field _ fieldName (.reference reference error) => referenceMessage fieldName reference error

end PlanError

end Carve
