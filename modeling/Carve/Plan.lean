import Carve.Document
import Carve.PlanError

/-!
Plans: the structures of a document in order, compiled to layouts.

References look backwards only, to an earlier field of the same structure or to a structure
declared, and so scanned, earlier.  Everything that can fail before a stream is there fails here,
the first broken rule first: constants, then for every structure its name, its fields, its signature
and its hint.
-/

namespace Carve

structure Plan where
  byteOrder : ByteOrder
  layouts : List Layout
deriving Repr, DecidableEq

/-- A plan is refused for what the document says. -/
inductive PlanFailure where
  | refused (error : PlanError)
  | fault (fault : Fault)
deriving Repr, DecidableEq

namespace Plan

/-- Constants by name: the width of the type, in bytes, and the number. -/
abbrev Constants := Table (Nat × Nat)

def collectConstants : List Constant → Constants → Except ConstantError Constants
  | [], known => .ok known
  | constant :: rest, known =>
      if known.contains constant.name then .error (.duplicate constant.name)
      else
        match Literal.parseHex constant.value with
        | .error error => .error (.malformed error)
        | .ok value =>
            let entry := (constant.type.width.bytes, value)
            collectConstants rest (known.insert constant.name entry)

/-- What the fields of a structure may refer to. -/
structure Scope where
  declaration : Declaration
  /-- The layouts of the structures declared before. -/
  earlier : List Layout
  /-- The names of all structures in the document. -/
  structureNames : List String

/-- The content that a reference points at, `fields` being the fields of the structure compiled so
far. -/
def target (scope : Scope) (fields : List (Field Int)) (reference : Reference) :
    Except ReferenceError (Content Int) :=
  let byName (field : Field Int) : Bool := field.name = reference.field
  let isLocal (owner : String) : Bool := owner = scope.declaration.name
  if reference.owner.all isLocal then
    match fields.find? byName with
    | some field => .ok field.content
    | none =>
        if scope.declaration.fields.any fun field => field.name = reference.field then
          .error .laterField
        else .error (.noField scope.declaration.name)
  else
    let owner := reference.owner.getD ""
    match scope.earlier.find? fun layout => layout.name = owner with
    | none =>
        if scope.structureNames.contains owner then .error .laterStructure
        else .error .noStructure
    | some layout =>
        match layout.fields.find? byName with
        | some field => .ok field.content
        | none => .error (.noField owner)

def checkReference (scope : Scope) (fields : List (Field Int)) (reference : Reference) :
    Except ReferenceError Unit :=
  match target scope fields reference with
  | .error error => .error error
  | .ok content => if content.isReferenceable then .ok () else .error .notInteger

def compileSize (scope : Scope) (fields : List (Field Int)) :
    Size String → Except FieldError (Size Int)
  | .literal value =>
      match Literal.parseHex value with
      | .error error => .error (.malformed error)
      | .ok count =>
          if maxSizeLimit < count then .error (.sizeTooLarge value) else .ok (.literal count)
  | .reference reference =>
      match checkReference scope fields reference with
      | .error error => .error (.reference reference error)
      | .ok () => .ok (.reference reference)

def compileContent (scope : Scope) (fields : List (Field Int)) :
    Content String → Except FieldError (Content Int)
  | .primitive type => .ok (.primitive type)
  | .buffer size => (compileSize scope fields size).map .buffer
  | .text size => (compileSize scope fields size).map .text

def isPowerOfTwo (value : Nat) : Bool := value ≠ 0 && value &&& (value - 1) = 0

def compileAlign : Option String → Except FieldError (Option Int)
  | none => .ok none
  | some literal =>
      match Literal.parseHex literal with
      | .error error => .error (.malformed error)
      | .ok align =>
          if isPowerOfTwo align && decide (align ≤ maxSizeLimit) then .ok (some align)
          else .error (.notPowerOfTwo literal)

/-- A literal that is read as a number and then kept within the safe offsets. -/
def safeOffset (parse : String → Except Literal.Error Int) (literal : String) :
    Except Literal.Error Int :=
  match parse literal with
  | .error error => .error error
  | .ok value => Literal.toSafeOffset value literal

def compileOffset : Option String → Except FieldError (Option Int)
  | none => .ok none
  | some literal =>
      match safeOffset Literal.parseSignedHex literal with
      | .error error => .error (.malformed error)
      | .ok offset => .ok (some offset)

def compileField (scope : Scope) (fields : List (Field Int)) (field : Field String) :
    Except FieldError (Field Int) := do
  let align ← compileAlign field.align
  let offset ← compileOffset field.offset
  let content ← compileContent scope fields field.content
  return { name := field.name, content, align, offset }

def compileFields (scope : Scope) : List (Field String) → List (Field Int) →
    Except PlanError (List (Field Int))
  | [], fields => .ok fields
  | field :: rest, fields =>
      if fields.any fun earlier => earlier.name = field.name then
        .error (.field scope.declaration.name field.name .duplicate)
      else
        match compileField scope fields field with
        | .error error => .error (.field scope.declaration.name field.name error)
        | .ok compiled => compileFields scope rest (fields ++ [compiled])

/-- The width and the number that a signature spells.  A literal is measured without another check,
for it has been read as a number before. -/
def spelledSignature (constants : Constants) (structureName : String) :
    SignatureSource → Except PlanFailure (Nat × Nat)
  | .literal value =>
      match Literal.parseHex value with
      | .error error => .error (.refused (.declaration structureName (.malformed error)))
      | .ok number =>
          match Literal.hexByteLength value with
          | .error error => .error (.fault (.notHex error.literal))
          | .ok width => .ok (width, number)
  | .constant name =>
      match constants.find? name with
      | none => .error (.refused (.declaration structureName (.unknownConstant name)))
      | some (width, number) =>
          if Integer.fits number width then .ok (width, number)
          else .error (.refused (.declaration structureName (.constantTooWide name width)))

def compileSignature (constants : Constants) (structureName : String) (order : ByteOrder)
    (source : SignatureSource) : Except PlanFailure Bytes :=
  match spelledSignature constants structureName source with
  | .error failure => .error failure
  | .ok (width, number) => (Integer.encode number width order).mapError .fault

def parseOffset (literal : String) : Except Literal.Error Int :=
  safeOffset (fun literal => (Literal.parseHex literal).map Int.ofNat) literal

def compileHint (streamLength : Option Int) : Hint String → Except DeclarationError (Hint Int)
  | .near .streamStart => .ok (.near .streamStart)
  | .near .streamEnd => .ok (.near .streamEnd)
  | .near (.offset literal) =>
      match parseOffset literal with
      | .error error => .error (.malformed error)
      | .ok offset => .ok (.near (.offset offset))
  | .skip literal =>
      match parseOffset literal with
      | .error error => .error (.malformed error)
      | .ok offset =>
          match streamLength with
          | none => .ok (.skip offset)
          | some length =>
              if length < offset then .error (.skipPastEnd offset length) else .ok (.skip offset)

def compileOptionalHint (streamLength : Option Int) :
    Option (Hint String) → Except DeclarationError (Option (Hint Int))
  | none => .ok none
  | some hint => (compileHint streamLength hint).map some

def compileStructure (constants : Constants) (documentOrder : ByteOrder) (streamLength : Option Int)
    (scope : Scope) : Except PlanFailure Layout := do
  let declaration := scope.declaration
  let byteOrder := declaration.byteOrder.getD documentOrder
  let fields ← (compileFields scope declaration.fields []).mapError .refused
  let signature ← compileSignature constants declaration.name byteOrder declaration.signature
  let hint ← (compileOptionalHint streamLength declaration.hint).mapError
    fun error => .refused (.declaration declaration.name error)
  return { name := declaration.name, signature, byteOrder, hint, fields }

def compileStructures (constants : Constants) (documentOrder : ByteOrder)
    (streamLength : Option Int) (structureNames : List String) :
    List Declaration → List Layout → Except PlanFailure (List Layout)
  | [], layouts => .ok layouts
  | declaration :: rest, layouts =>
      if layouts.any fun layout => layout.name = declaration.name then
        .error (.refused (.declaration declaration.name .duplicate))
      else
        let scope := { declaration, earlier := layouts, structureNames }
        match compileStructure constants documentOrder streamLength scope with
        | .error failure => .error failure
        | .ok layout =>
            compileStructures constants documentOrder streamLength structureNames rest
              (layouts ++ [layout])

/-- The plan of a document; where the length of the stream is known, skip hints must not pass its
end. -/
def ofDocument (document : Document) (streamLength : Option Int) : Except PlanFailure Plan := do
  let byteOrder := document.byteOrder.getD .little
  let constants ← (collectConstants (document.constants.getD []) .empty).mapError
    fun error => .refused (.constant error)
  let structureNames := document.structures.map Declaration.name
  let layouts ←
    compileStructures constants byteOrder streamLength structureNames document.structures []
  return { byteOrder, layouts }

end Plan

end Carve
