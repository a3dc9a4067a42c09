import Carve.Binary64.Text
import Carve.Record

namespace Carve

/-- The length of a buffer or a text: fixed, or the value of a field decoded before. -/
inductive Size (α : Type) where
  | literal (count : α)
  | reference (reference : Reference)
deriving Repr, DecidableEq

inductive Content (α : Type) where
  | primitive (type : Primitive)
  | buffer (size : Size α)
  | text (size : Size α)
deriving Repr, DecidableEq

/-- Whether a field with this content may supply the size of another. -/
def Content.isReferenceable {α : Type} : Content α → Bool
  | .primitive type => type.isReferenceable
  | .buffer _ | .text _ => false

/-- A field of a structure.  Its numbers are texts in a document and plain numbers in a layout. -/
structure Field (α : Type) where
  name : String
  content : Content α
  /-- The boundary that the field starts on, counted from the beginning of the stream. -/
  align : Option α
  /-- The way from the cursor to the field, before it is aligned. -/
  offset : Option α
deriving Repr, DecidableEq

/-- The bytes that a field takes if that is known before it is decoded. -/
def Field.fixedSize (field : Field Int) : Int :=
  match field.content with
  | .primitive type => type.width
  | .buffer (.literal count) | .text (.literal count) => count
  | .buffer (.reference _) | .text (.reference _) => 0

inductive DecodeError.Cause where
  /-- Fewer bytes are left than the field takes. -/
  | unexpectedEnd (needed available : Int)
  | invalidUtf8
  /-- A size from a reference is negative or above the limit. -/
  | sizeOverflow (size limit : Int)
  | unresolved (reference : Reference) (reason : Reference.Unresolved)
  /-- The offset or the alignment of the field leads to a cursor outside the stream. -/
  | outOfBounds (cursor : Int)
deriving Repr, DecidableEq

/-- Why a candidate is no record: the field that could not be decoded, where, and what stood against
it. -/
structure DecodeError where
  field : String
  position : Int
  cause : DecodeError.Cause
deriving Repr, DecidableEq

namespace DecodeError

def Cause.code : Cause → String
  | .unexpectedEnd _ _ => "UNEXPECTED_EOF"
  | .invalidUtf8 => "INVALID_UTF8"
  | .sizeOverflow _ _ => "SIZE_OVERFLOW"
  | .unresolved _ _ => "UNRESOLVED_REFERENCE"
  | .outOfBounds _ => "OUT_OF_BOUNDS"

def Cause.name : Cause → String
  | .unexpectedEnd _ _ => "UnexpectedEofError"
  | .invalidUtf8 => "InvalidUtf8Error"
  | .sizeOverflow _ _ => "SizeOverflowError"
  | .unresolved _ _ => "UnresolvedReferenceError"
  | .outOfBounds _ => "OutOfBoundsError"

def Cause.message : Cause → String
  | .unexpectedEnd needed available =>
      s!"Need {Number.text needed} bytes, {Number.text available} available"
  | .invalidUtf8 => "Invalid UTF-8"
  | .sizeOverflow size limit => s!"Size {size} outside [0, {Number.text limit}]"
  | .unresolved reference reason => s!"Cannot resolve &{reference.text}: {reason.message}"
  | .outOfBounds cursor => s!"Cursor moved to {Number.text cursor}, outside the stream"

def message (error : DecodeError) : String :=
  s!"{error.cause.message} (field \"{error.field}\" at {Number.text error.position})"

end DecodeError

/-- A candidate is refused for what its bytes say; a fault is a call outside the range of an
operation. -/
inductive DecodeFailure where
  | refused (error : DecodeError)
  | fault (fault : Fault)
deriving Repr, DecidableEq

namespace Field

/-- The cursor after the field's offset, which must not leave the stream. -/
def shift (field : Field Int) (cursor length : Int) : Except DecodeError Int :=
  match field.offset with
  | none => .ok cursor
  | some offset =>
      let moved := Number.add cursor offset
      if moved < 0 ∨ length < moved then .error ⟨field.name, cursor, .outOfBounds moved⟩
      else .ok moved

/-- The next boundary of the field at or after `shifted`; the remainder of a negative number is
negative. -/
def alignUp (field : Field Int) (cursor length shifted : Int) : Except DecodeError Int :=
  match field.align with
  | none => .ok shifted
  | some align =>
      let remainder := shifted.tmod align
      if remainder = 0 then .ok shifted
      else
        let moved := Number.add shifted (Number.sub align remainder)
        if length < moved then .error ⟨field.name, cursor, .outOfBounds moved⟩ else .ok moved

def position (field : Field Int) (cursor length : Int) : Except DecodeError Int :=
  match field.shift cursor length with
  | .error error => .error error
  | .ok shifted => field.alignUp cursor length shifted

end Field

/-- The largest size that a reference may supply under any limit. -/
def maxSizeLimit : Nat := 2 ^ 32 - 1

/-- What decoding depends on besides the stream and the fields decoded before. -/
structure DecodeContext where
  structureName : String
  byteOrder : ByteOrder
  /-- The largest size that a reference may supply. -/
  maxSize : Int
  store : Store
deriving Repr, DecidableEq

def DecodeContext.limit (context : DecodeContext) : Int := min context.maxSize maxSizeLimit

namespace Field

/-- The size of a buffer or a text that starts at `position`. -/
def size (field : Field Int) (context : DecodeContext) (readings : Table Reading) (position : Int)
    (size : Size Int) : Except DecodeError Int :=
  match size with
  | .literal count => .ok count
  | .reference reference =>
      match reference.resolve context.store readings context.structureName with
      | .error reason => .error ⟨field.name, position, .unresolved reference reason⟩
      | .ok value =>
          if value < 0 ∨ context.limit < value then
            .error ⟨field.name, position, .sizeOverflow value context.limit⟩
          else .ok value

/-- Fails if fewer than `needed` bytes are left at `position`. -/
def require (field : Field Int) (position needed length : Int) : Except DecodeError Unit :=
  let available := Number.sub length position
  if available < needed then .error ⟨field.name, position, .unexpectedEnd needed available⟩
  else .ok ()

def decodePrimitive (field : Field Int) (type : Primitive) (context : DecodeContext)
    (stream : Bytes) (position : Int) : Except DecodeFailure Reading :=
  match field.require position type.width stream.size with
  | .error error => .error (.refused error)
  | .ok () =>
      match type.read context.byteOrder stream position with
      | .error fault => .error (.fault fault)
      | .ok value => .ok { value, offset := position, size := type.width }

/-- The bytes of a buffer or a text with its size. -/
def take (field : Field Int) (size : Size Int) (context : DecodeContext) (readings : Table Reading)
    (stream : Bytes) (position : Int) : Except DecodeError (Bytes × Int) :=
  match field.size context readings position size with
  | .error error => .error error
  | .ok count =>
      match field.require position count stream.size with
      | .error error => .error error
      | .ok () => .ok (stream.slice position (Number.add position count), count)

/-- The value of a buffer's or a text's bytes; those of a text must be well-formed UTF-8. -/
def interpret (field : Field Int) (isText : Bool) (position : Int) (content : Bytes) :
    Except DecodeError Value :=
  if isText then
    match String.fromUTF8? ⟨content⟩ with
    | some text => .ok (.utf8 text)
    | none => .error ⟨field.name, position, .invalidUtf8⟩
  else .ok (.bytes content)

def decodeSized (field : Field Int) (isText : Bool) (size : Size Int) (context : DecodeContext)
    (readings : Table Reading) (stream : Bytes) (position : Int) : Except DecodeError Reading :=
  match field.take size context readings stream position with
  | .error error => .error error
  | .ok (content, count) =>
      match field.interpret isText position content with
      | .error error => .error error
      | .ok value => .ok { value, offset := position, size := count }

/-- Decodes a field at a cursor, `readings` being the fields of the candidate before it. -/
def decode (field : Field Int) (context : DecodeContext) (readings : Table Reading) (stream : Bytes)
    (cursor : Int) : Except DecodeFailure Reading :=
  match field.position cursor stream.size with
  | .error error => .error (.refused error)
  | .ok position =>
      match field.content with
      | .primitive type => field.decodePrimitive type context stream position
      | .buffer size =>
          (field.decodeSized false size context readings stream position).mapError .refused
      | .text size =>
          (field.decodeSized true size context readings stream position).mapError .refused

end Field

end Carve
