import Carve.Bytes

namespace Carve

/-- At least one byte. -/
structure Signature where
  lead : UInt8
  rest : List UInt8
deriving Repr, DecidableEq

namespace Signature

def ofBytes (bytes : Bytes) : Except Fault Signature :=
  match bytes.toList with
  | [] => .error .emptySignature
  | lead :: rest => .ok { lead, rest }

def size (signature : Signature) : Nat := signature.rest.length + 1

/-- Whether the stream continues with `bytes` at an offset. -/
def continuesWith (stream : Bytes) (offset : Nat) : List UInt8 → Bool
  | [] => true
  | byte :: rest => stream[offset]? == some byte && continuesWith stream (offset + 1) rest

/-- The lowest offset from `start` on that holds the byte. -/
def findLead (stream : Bytes) (lead : UInt8) (start : Nat) : Option Nat :=
  if inside : start < stream.size then
    if stream[start] = lead then some start
    else findLead stream lead (start + 1)
  else none
termination_by stream.size - start

theorem findLead_bounds {stream : Bytes} {lead : UInt8} {start hit : Nat}
    (found : findLead stream lead start = some hit) : start ≤ hit ∧ hit < stream.size := by
  fun_induction findLead stream lead start with
  | case1 start inside same =>
      cases found
      exact ⟨Nat.le_refl _, inside⟩
  | case2 start inside other ih =>
      have bounds := ih found
      omega
  | case3 start outside => contradiction

/-- The lowest offset from `start` on where the signature occurs. -/
def findFrom (signature : Signature) (stream : Bytes) (start : Nat) : Option Nat :=
  match found : findLead stream signature.lead start with
  | none => none
  | some hit =>
      if hit + signature.size ≤ stream.size then
        if continuesWith stream (hit + 1) signature.rest then some hit
        else findFrom signature stream (hit + 1)
      else none
termination_by stream.size - start
decreasing_by
  have bounds := findLead_bounds found
  omega

theorem findFrom_bounds {signature : Signature} {stream : Bytes} {start hit : Nat}
    (found : signature.findFrom stream start = some hit) :
    start ≤ hit ∧ hit + signature.size ≤ stream.size := by
  fun_induction findFrom signature stream start with
  | case1 start absent => contradiction
  | case2 start lead leadFound inside same =>
      cases found
      exact ⟨(findLead_bounds leadFound).1, inside⟩
  | case3 start lead leadFound inside other ih =>
      have bounds := ih found
      have leadBounds := findLead_bounds leadFound
      omega
  | case4 start lead leadFound outside => contradiction

/-- The lowest offset at or after `start` where the signature occurs; no offset is negative. -/
def findNext (signature : Signature) (stream : Bytes) (start : Int) : Option Nat :=
  signature.findFrom stream start.toNat

end Signature

end Carve
