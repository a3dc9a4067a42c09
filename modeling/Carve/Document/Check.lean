import Carve.Document
import Carve.Literal

namespace Carve.Document

def checkIdentifier : Tree → Checked String :=
  Tree.checkFormat "identifier" Literal.isIdentifier

def checkHex : Tree → Checked String := Tree.checkFormat "hex literal" Literal.isHex

def checkSignedHex : Tree → Checked String :=
  Tree.checkFormat "signed hex literal" Literal.isSignedHex

/-- A byte order in any letter case; the choice is made among the small letters. -/
def checkByteOrder (tree : Tree) : Checked ByteOrder :=
  match tree.checkString with
  | .valid keyword =>
      Tree.checkChoice [("little", .little), ("big", .big)] (.string (Text.lower keyword))
  | .invalid issues => .invalid issues

def checkInteger : Tree → Checked IntegerType :=
  Tree.checkChoice (IntegerType.all.map fun type => (type.name, type))

def checkPrimitive : Tree → Checked Primitive :=
  Tree.checkChoice (Primitive.all.map fun type => (type.name, type))

def checkSize : Tree → Checked (Size String) :=
  Tree.checkTagged [
    ("literal", fun members => Size.literal <$> Tree.checkRequired members "value" checkHex),
    ("reference", fun members => (fun field owner => Size.reference { field, owner })
        <$> Tree.checkRequired members "field" checkIdentifier
        <*> Tree.checkOptional members "structure" checkIdentifier)]

/-- A field whose content has been checked before its name and its place. -/
def checkPlaced (content : Checked (Content String)) (members : List (String × Tree)) :
    Checked (Field String) :=
  (fun content name align offset => { name, content, align, offset })
    <$> content
    <*> Tree.checkRequired members "name" checkIdentifier
    <*> Tree.checkOptional members "align" checkHex
    <*> Tree.checkOptional members "offset" checkSignedHex

def checkField : Tree → Checked (Field String) :=
  Tree.checkTagged [
    ("primitive", fun members => checkPlaced
        (Content.primitive <$> Tree.checkRequired members "type" checkPrimitive) members),
    ("buffer", fun members => checkPlaced
        (Content.buffer <$> Tree.checkRequired members "size" checkSize) members),
    ("string", fun members => checkPlaced
        (Content.text <$> Tree.checkRequired members "size" checkSize) members)]

def checkAnchor : Tree → Checked (Anchor String) :=
  Tree.checkTagged [
    ("offset", fun members => Anchor.offset <$> Tree.checkRequired members "offset" checkHex),
    ("sos", fun _ => .valid .streamStart),
    ("eos", fun _ => .valid .streamEnd)]

def checkHint : Tree → Checked (Hint String) :=
  Tree.checkTagged [
    ("skip", fun members => Hint.skip <$> Tree.checkRequired members "offset" checkHex),
    ("near", fun members => Hint.near <$> Tree.checkRequired members "target" checkAnchor)]

def checkSignature : Tree → Checked SignatureSource :=
  Tree.checkTagged [
    ("literal", fun members =>
      SignatureSource.literal <$> Tree.checkRequired members "value" checkHex),
    ("constant", fun members =>
      SignatureSource.constant <$> Tree.checkRequired members "name" checkIdentifier)]

def checkConstant : Tree → Checked Constant :=
  Tree.checkObject fun members =>
    Constant.mk
      <$> Tree.checkRequired members "name" checkIdentifier
      <*> Tree.checkRequired members "type" checkInteger
      <*> Tree.checkRequired members "value" checkHex

def checkDeclaration : Tree → Checked Declaration :=
  Tree.checkObject fun members =>
    Declaration.mk
      <$> Tree.checkRequired members "name" checkIdentifier
      <*> Tree.checkRequired members "signature" checkSignature
      <*> Tree.checkOptional members "endianness" checkByteOrder
      <*> Tree.checkOptional members "hint" checkHint
      <*> Tree.checkRequired members "fields" (Tree.checkArray checkField)

def check : Tree → Checked Document :=
  Tree.checkObject fun members =>
    Document.mk
      <$> Tree.checkOptional members "endianness" checkByteOrder
      <*> Tree.checkOptional members "constants" (Tree.checkArray checkConstant)
      <*> Tree.checkRequired members "structures" (Tree.checkArray checkDeclaration)

/-- The document in a tree, or every issue there is; without a tree the document itself is missing.
-/
def ofTree (tree : Option Tree) : Except (List Issue) Document :=
  match tree with
  | none => .error [{ path := [], complaint := .missing }]
  | some tree =>
      match check tree with
      | .valid document => .ok document
      | .invalid issues => .error issues

/-- An issue with its place; the root is `$`. -/
def issueText (issue : Issue) : String :=
  let path := if issue.path.isEmpty then "$" else issue.pathText
  s!"{path}: {issue.complaint.message}"

def refusalMessage (issues : List Issue) : String :=
  "Invalid document: " ++ String.intercalate "; " (issues.map issueText)

end Carve.Document
