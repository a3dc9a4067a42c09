import Carve.Field

namespace Carve

/-- A place in a stream. -/
inductive Anchor (α : Type) where
  | offset (offset : α)
  | streamStart
  | streamEnd
deriving Repr, DecidableEq

/-- Where in a stream the search for a structure begins. -/
inductive Hint (α : Type) where
  /-- Begin at an offset. -/
  | skip (offset : α)
  /-- Begin a window in front of a place. -/
  | near (anchor : Anchor α)
deriving Repr, DecidableEq

namespace Hint

/-- A skip hint past the end of a stream, which is taken back to the end. -/
structure Clamped where
  offset : Int
  length : Int
deriving Repr, DecidableEq

/-- The offset at which the search begins.  It is not negative in a stream of any length. -/
def start (hint : Option (Hint Int)) (length window : Int) : Int :=
  match hint with
  | none | some (.near .streamStart) => 0
  | some (.skip offset) => if length < offset then length else max 0 offset
  | some (.near .streamEnd) => max 0 (Number.sub length window)
  | some (.near (.offset offset)) => max 0 (Number.sub (min offset length) window)

/-- What there is to warn about. -/
def clamped? (hint : Option (Hint Int)) (length : Int) : Option Clamped :=
  match hint with
  | some (.skip offset) => if length < offset then some { offset, length } else none
  | _ => none

end Hint

/-- What is known of a structure before any stream is looked at. -/
structure Layout where
  name : String
  signature : Bytes
  byteOrder : ByteOrder
  hint : Option (Hint Int)
  fields : List (Field Int)
deriving Repr, DecidableEq

namespace Layout

/-- The bytes taken by the fields whose width is known before decoding. -/
def fixedSize (layout : Layout) : Int :=
  layout.fields.foldl (fun total field => Number.add total field.fixedSize) 0

/-- How far a `near` hint looks back from its anchor: over the signature, the fields of known width
and a margin for the others. -/
def window (layout : Layout) (margin : Int) : Int :=
  Number.add (Number.add layout.signature.size layout.fixedSize) margin

/-- Decodes fields one behind the other, each from the cursor that the one before it leaves. -/
def decodeFields (context : DecodeContext) (stream : Bytes) :
    List (Field Int) → Table Reading → Int → Except DecodeFailure (Table Reading × Int)
  | [], readings, cursor => .ok (readings, cursor)
  | field :: rest, readings, cursor =>
      match field.decode context readings stream cursor with
      | .error failure => .error failure
      | .ok reading =>
          decodeFields context stream rest (readings.insert field.name reading) reading.stop

def context (layout : Layout) (maxSize : Int) (store : Store) : DecodeContext where
  structureName := layout.name
  byteOrder := layout.byteOrder
  maxSize := maxSize
  store := store

/-- The record whose signature begins at an offset; the bytes of the signature are not looked at. -/
def candidate (layout : Layout) (stream : Bytes) (maxSize : Int) (store : Store)
    (signatureOffset : Int) : Except DecodeFailure Record :=
  let start := Number.add signatureOffset layout.signature.size
  match decodeFields (layout.context maxSize store) stream layout.fields .empty start with
  | .error failure => .error failure
  | .ok (fields, stop) =>
      .ok { structureName := layout.name, signatureOffset, start, stop, fields }

end Layout

end Carve
