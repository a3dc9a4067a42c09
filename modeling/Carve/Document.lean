import Carve.Layout
import Carve.Tree

namespace Carve

structure Constant where
  name : String
  type : IntegerType
  value : String
deriving Repr, DecidableEq

/-- Where the bytes of a signature come from. -/
inductive SignatureSource where
  | literal (value : String)
  | constant (name : String)
deriving Repr, DecidableEq

structure Declaration where
  name : String
  signature : SignatureSource
  byteOrder : Option ByteOrder
  hint : Option (Hint String)
  fields : List (Field String)
deriving Repr, DecidableEq

structure Document where
  byteOrder : Option ByteOrder
  constants : Option (List Constant)
  structures : List Declaration
deriving Repr, DecidableEq

def ByteOrder.keyword : ByteOrder → String
  | .little => "little"
  | .big => "big"

namespace Document

def optionalMember (key : String) (tree : Option Tree) : List (String × Tree) :=
  match tree with
  | some tree => [(key, tree)]
  | none => []

def sizeTree : Size String → Tree
  | .literal value => .object [("kind", .string "literal"), ("value", .string value)]
  | .reference reference =>
      .object ([("kind", .string "reference"), ("field", .string reference.field)] ++
        optionalMember "structure" (reference.owner.map .string))

def contentMembers : Content String → List (String × Tree)
  | .primitive type => [("kind", .string "primitive"), ("type", .string type.name)]
  | .buffer size => [("kind", .string "buffer"), ("size", sizeTree size)]
  | .text size => [("kind", .string "string"), ("size", sizeTree size)]

def fieldTree (field : Field String) : Tree :=
  .object (contentMembers field.content ++ [("name", .string field.name)] ++
    optionalMember "align" (field.align.map .string) ++
    optionalMember "offset" (field.offset.map .string))

def anchorTree : Anchor String → Tree
  | .offset offset => .object [("kind", .string "offset"), ("offset", .string offset)]
  | .streamStart => .object [("kind", .string "sos")]
  | .streamEnd => .object [("kind", .string "eos")]

def hintTree : Hint String → Tree
  | .skip offset => .object [("kind", .string "skip"), ("offset", .string offset)]
  | .near anchor => .object [("kind", .string "near"), ("target", anchorTree anchor)]

def signatureTree : SignatureSource → Tree
  | .literal value => .object [("kind", .string "literal"), ("value", .string value)]
  | .constant name => .object [("kind", .string "constant"), ("name", .string name)]

def byteOrderTree (order : ByteOrder) : Tree := .string order.keyword

def constantTree (constant : Constant) : Tree :=
  .object [("name", .string constant.name), ("type", .string constant.type.name),
    ("value", .string constant.value)]

def declarationTree (declaration : Declaration) : Tree :=
  .object ([("name", .string declaration.name),
      ("signature", signatureTree declaration.signature)] ++
    optionalMember "endianness" (declaration.byteOrder.map byteOrderTree) ++
    optionalMember "hint" (declaration.hint.map hintTree) ++
    [("fields", .array (declaration.fields.map fieldTree))])

def toTree (document : Document) : Tree :=
  .object (optionalMember "endianness" (document.byteOrder.map byteOrderTree) ++
    optionalMember "constants"
      (document.constants.map fun constants => .array (constants.map constantTree)) ++
    [("structures", .array (document.structures.map declarationTree))])

end Document

end Carve
