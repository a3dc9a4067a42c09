import Carve.Signature
import Mathlib.Data.Set.Basic
import Mathlib.Order.Bounds.Defs

namespace Carve

/-- The bytes of `pattern` stand in the stream one behind the other from `place` on. -/
def Bytes.OccursAt (pattern stream : Bytes) (place : Nat) : Prop :=
  ∀ index, index < pattern.size → stream[place + index]? = pattern[index]?

instance (pattern stream : Bytes) (place : Nat) : Decidable (pattern.OccursAt stream place) :=
  inferInstanceAs (Decidable (∀ index, index < pattern.size →
    stream[place + index]? = pattern[index]?))

theorem Bytes.OccursAt.inside {pattern stream : Bytes} {place : Nat}
    (occurs : pattern.OccursAt stream place) (nonempty : 0 < pattern.size) :
    place + pattern.size ≤ stream.size := by
  have last := occurs (pattern.size - 1) (by omega)
  rw [Array.getElem?_eq_getElem (by omega : pattern.size - 1 < pattern.size)] at last
  obtain ⟨bound, _⟩ := Array.getElem?_eq_some_iff.mp last
  omega

theorem Bytes.OccursAt.extract_eq {pattern stream : Bytes} {place : Nat}
    (occurs : pattern.OccursAt stream place) (nonempty : 0 < pattern.size) :
    stream.extract place (place + pattern.size) = pattern := by
  have inside := occurs.inside nonempty
  apply Array.ext
  · rw [Array.size_extract]
    omega
  · intro index taken bound
    have same := occurs index bound
    rw [Array.getElem?_eq_getElem bound, Array.getElem?_eq_getElem (by omega)] at same
    rw [Array.getElem_extract]
    exact Option.some.inj same

/-- No proper prefix of the bytes but the empty one is also a suffix of them. -/
def Bytes.Borderless (pattern : Bytes) : Prop :=
  ∀ length, length < pattern.size → 0 < length →
    ¬ pattern.toList.take length <:+ pattern.toList

instance (pattern : Bytes) : Decidable pattern.Borderless :=
  inferInstanceAs (Decidable (∀ length, length < pattern.size → 0 < length →
    ¬ pattern.toList.take length <:+ pattern.toList))

theorem Bytes.Borderless.apart {pattern stream : Bytes} {place other : Nat}
    (borderless : pattern.Borderless) (occurs : pattern.OccursAt stream place)
    (occursAgain : pattern.OccursAt stream other) (behind : place < other) :
    place + pattern.size ≤ other := by
  refine Nat.le_of_not_lt fun overlapping => ?_
  -- What both occurrences take up is the beginning of the second and the end of the first.
  obtain ⟨length, shared⟩ : ∃ length, other + length = place + pattern.size :=
    ⟨place + pattern.size - other, by omega⟩
  refine borderless length (by omega) (by omega) ?_
  rw [List.suffix_iff_eq_drop]
  refine List.ext_getElem? fun index => ?_
  have beginning : (pattern.toList.take length).length = length := by
    rw [List.length_take, Array.length_toList]
    omega
  rw [beginning, List.getElem?_drop, Array.length_toList]
  by_cases inside : index < length
  · have first := occurs (pattern.size - length + index) (by omega)
    have second := occursAgain index (by omega)
    rw [List.getElem?_take_of_lt inside, Array.getElem?_toList, Array.getElem?_toList, ← first,
      ← second]
    congr 1
    omega
  · rw [List.getElem?_eq_none (by omega), List.getElem?_eq_none (by simp; omega)]

namespace Signature

variable {signature : Signature} {stream : Bytes} {start hit place : Nat}

def bytes (signature : Signature) : Bytes := (signature.lead :: signature.rest).toArray

theorem size_bytes (signature : Signature) : signature.bytes.size = signature.size := rfl

theorem bytes_ofBytes {bytes : Bytes} (made : ofBytes bytes = .ok signature) :
    signature.bytes = bytes := by
  unfold ofBytes at made
  split at made
  · contradiction
  · next lead rest content =>
      cases made
      rw [Signature.bytes, ← content, Array.toArray_toList]

theorem ofBytes_exists {bytes : Bytes} (nonempty : 0 < bytes.size) :
    ∃ signature, ofBytes bytes = .ok signature := by
  unfold ofBytes
  split
  · next empty => simp [Array.toList_eq_nil_iff.mp empty] at nonempty
  · next lead rest content => exact ⟨_, rfl⟩

theorem continuesWith_iff {bytes : List UInt8} :
    continuesWith stream place bytes = true ↔
      ∀ index, index < bytes.length → stream[place + index]? = bytes[index]? := by
  induction bytes generalizing place with
  | nil => simp [continuesWith]
  | cons byte rest ih =>
      simp only [continuesWith, Bool.and_eq_true, beq_iff_eq, ih]
      constructor
      · rintro ⟨first, others⟩ index bound
        cases index with
        | zero => simpa using first
        | succ index =>
            have next := others index (by simpa using bound)
            rw [List.getElem?_cons_succ, ← next]
            congr 1
            omega
      · intro all
        refine ⟨by simpa using all 0 (by simp), fun index bound => ?_⟩
        have next := all (index + 1) (by simpa using bound)
        rw [List.getElem?_cons_succ] at next
        rw [← next]
        congr 1
        omega

theorem occursAt_iff : signature.bytes.OccursAt stream place ↔
    continuesWith stream place (signature.lead :: signature.rest) = true := by
  rw [continuesWith_iff]
  simp [Bytes.OccursAt, Signature.bytes]

theorem findLead_eq_some {lead : UInt8} (found : findLead stream lead start = some hit) :
    stream[hit]? = some lead ∧
      ∀ place, start ≤ place → place < hit → stream[place]? ≠ some lead := by
  fun_induction findLead stream lead start with
  | case1 start inside same =>
      cases found
      exact ⟨by simpa [inside] using same, fun place lower upper => by omega⟩
  | case2 start inside other ih =>
      obtain ⟨holds, before⟩ := ih found
      refine ⟨holds, fun place lower upper => ?_⟩
      rcases Nat.eq_or_lt_of_le lower with rfl | later
      · simpa [inside] using other
      · exact before place later upper
  | case3 start outside => contradiction

theorem findLead_eq_none {lead : UInt8} (absent : findLead stream lead start = none) :
    ∀ place, start ≤ place → stream[place]? ≠ some lead := by
  fun_induction findLead stream lead start with
  | case1 start inside same => contradiction
  | case2 start inside other ih =>
      intro place lower
      rcases Nat.eq_or_lt_of_le lower with rfl | later
      · simpa [inside] using other
      · exact ih absent place later
  | case3 start outside =>
      intro place lower holds
      obtain ⟨bound, _⟩ := Array.getElem?_eq_some_iff.mp holds
      omega

theorem lead_of_occursAt (occurs : signature.bytes.OccursAt stream place) :
    stream[place]? = some signature.lead := by
  simpa [Signature.bytes] using occurs 0 (by simp [Signature.bytes])

theorem rest_of_occursAt (occurs : signature.bytes.OccursAt stream place) :
    continuesWith stream (place + 1) signature.rest = true := by
  have whole := occursAt_iff.mp occurs
  simp only [continuesWith, Bool.and_eq_true] at whole
  exact whole.2

/-- The search finds the lowest occurrence at or after its start. -/
theorem findFrom_eq_some (found : signature.findFrom stream start = some hit) :
    signature.bytes.OccursAt stream hit ∧
      ∀ place, start ≤ place → place < hit → ¬ signature.bytes.OccursAt stream place := by
  fun_induction findFrom signature stream start with
  | case1 start absent => contradiction
  | case2 start lead leadFound inside same =>
      cases found
      obtain ⟨holds, before⟩ := findLead_eq_some leadFound
      refine ⟨occursAt_iff.mpr ?_, fun place lower upper occurs =>
        before place lower upper (lead_of_occursAt occurs)⟩
      simp only [continuesWith, holds, same, BEq.rfl, Bool.and_true]
  | case3 start lead leadFound inside other ih =>
      obtain ⟨occurs, between⟩ := ih found
      refine ⟨occurs, fun place lower upper occursHere => ?_⟩
      rcases Nat.lt_trichotomy place lead with before | rfl | behind
      · exact (findLead_eq_some leadFound).2 place lower before (lead_of_occursAt occursHere)
      · exact other (rest_of_occursAt occursHere)
      · exact between place behind upper occursHere
  | case4 start lead leadFound outside => contradiction

/-- The search fails only if there is no occurrence at or after its start. -/
theorem findFrom_eq_none (absent : signature.findFrom stream start = none) :
    ∀ place, start ≤ place → ¬ signature.bytes.OccursAt stream place := by
  fun_induction findFrom signature stream start with
  | case1 start leadAbsent =>
      intro place lower occurs
      exact findLead_eq_none leadAbsent place lower (lead_of_occursAt occurs)
  | case2 start lead leadFound inside same => contradiction
  | case3 start lead leadFound inside other ih =>
      intro place lower occurs
      rcases Nat.lt_trichotomy place lead with before | rfl | behind
      · exact (findLead_eq_some leadFound).2 place lower before (lead_of_occursAt occurs)
      · exact other (rest_of_occursAt occurs)
      · exact ih absent place behind occurs
  | case4 start lead leadFound outside =>
      intro place lower occurs
      have room := occurs.inside (by simp [Signature.bytes])
      rw [size_bytes] at room
      exact (findLead_eq_some leadFound).2 place lower (by omega) (lead_of_occursAt occurs)

theorem findFrom_eq_some_iff : signature.findFrom stream start = some hit ↔
    start ≤ hit ∧ signature.bytes.OccursAt stream hit ∧
      ∀ place, start ≤ place → place < hit → ¬ signature.bytes.OccursAt stream place := by
  constructor
  · intro found
    exact ⟨(findFrom_bounds found).1, findFrom_eq_some found⟩
  · intro known
    obtain ⟨behind, occurs, between⟩ := known
    cases found : signature.findFrom stream start with
    | none => exact absurd occurs (findFrom_eq_none found hit behind)
    | some other =>
        obtain ⟨occursOther, betweenOther⟩ := findFrom_eq_some found
        have behindOther := (findFrom_bounds found).1
        rcases Nat.lt_trichotomy hit other with before | rfl | after
        · exact absurd occurs (betweenOther hit behind before)
        · rfl
        · exact absurd occursOther (between other behindOther after)

/-- Places without an occurrence can be left out of the search. -/
theorem findFrom_congr {later : Nat} (ordered : start ≤ later)
    (nothing : ∀ place, start ≤ place → place < later → ¬ signature.bytes.OccursAt stream place) :
    signature.findFrom stream start = signature.findFrom stream later := by
  refine Option.ext fun hit => ?_
  rw [findFrom_eq_some_iff, findFrom_eq_some_iff]
  constructor
  · intro found
    obtain ⟨behind, occurs, between⟩ := found
    have passed : later ≤ hit := Nat.le_of_not_lt fun before => nothing hit behind before occurs
    exact ⟨passed, occurs, fun place lower => between place (by omega)⟩
  · intro found
    obtain ⟨behind, occurs, between⟩ := found
    refine ⟨by omega, occurs, fun place lower upper => ?_⟩
    rcases Nat.lt_or_ge place later with before | passed
    · exact nothing place lower before
    · exact between place passed upper

end Signature

/-- The offsets from `start` on at which all bytes of `pattern` stand in the stream. -/
def Bytes.placesFrom (pattern stream : Bytes) (start : Int) : Set Nat :=
  {place | max 0 start ≤ place ∧ place + pattern.size ≤ stream.size ∧
    pattern.OccursAt stream place}

/-- An occurrence lies inside the stream of itself. -/
theorem Bytes.mem_placesFrom {pattern stream : Bytes} {start : Int} {place : Nat}
    (nonempty : 0 < pattern.size) : place ∈ pattern.placesFrom stream start ↔
      start.toNat ≤ place ∧ pattern.OccursAt stream place := by
  constructor
  · rintro ⟨behind, _, occurs⟩
    exact ⟨by omega, occurs⟩
  · rintro ⟨behind, occurs⟩
    exact ⟨by omega, occurs.inside nonempty, occurs⟩

namespace Signature

variable {pattern : Bytes}

/-- The search skips from one first byte to the next, and comes to the lowest of all offsets at
which the whole pattern stands.  It comes to nothing only if there is none. -/
theorem findNext_finds_lowest (nonempty : 0 < pattern.size) (stream : Bytes) (start : Int) :
    ∃ signature, ofBytes pattern = .ok signature ∧
      (∀ place, signature.findNext stream start = some place ↔
        IsLeast (pattern.placesFrom stream start) place) ∧
      (signature.findNext stream start = none ↔ pattern.placesFrom stream start = ∅) := by
  obtain ⟨signature, made⟩ := ofBytes_exists nonempty
  obtain rfl := bytes_ofBytes made
  refine ⟨signature, made, fun place => ?_, ?_⟩
  · rw [findNext, findFrom_eq_some_iff]
    constructor
    · rintro ⟨behind, occurs, between⟩
      refine ⟨(Bytes.mem_placesFrom nonempty).mpr ⟨behind, occurs⟩, fun other found => ?_⟩
      obtain ⟨otherBehind, otherOccurs⟩ := (Bytes.mem_placesFrom nonempty).mp found
      exact Nat.le_of_not_lt fun lower => between other otherBehind lower otherOccurs
    · rintro ⟨found, lowest⟩
      obtain ⟨behind, occurs⟩ := (Bytes.mem_placesFrom nonempty).mp found
      refine ⟨behind, occurs, fun other otherBehind lower otherOccurs => ?_⟩
      have least := lowest ((Bytes.mem_placesFrom nonempty).mpr ⟨otherBehind, otherOccurs⟩)
      omega
  · rw [findNext, Set.eq_empty_iff_forall_notMem]
    constructor
    · intro absent place found
      obtain ⟨behind, occurs⟩ := (Bytes.mem_placesFrom nonempty).mp found
      exact findFrom_eq_none absent place behind occurs
    · intro nowhere
      refine Option.eq_none_iff_forall_ne_some.mpr fun place found => ?_
      obtain ⟨behind, occurs, _⟩ := findFrom_eq_some_iff.mp found
      exact nowhere place ((Bytes.mem_placesFrom nonempty).mpr ⟨behind, occurs⟩)

/-- The first byte of the pattern stands at 0 without its second one.  The whole of it stands at 2
and at 3, and the stream ends behind that. -/
theorem findNext_finds_second : ∃ signature, ofBytes #[0x61, 0x61] = .ok signature ∧
    signature.findNext #[0x61, 0x62, 0x61, 0x61, 0x61] (-3) = some 2 ∧
    signature.findNext #[0x61, 0x62, 0x61, 0x61, 0x61] 4 = none := by
  have nonempty : 0 < (#[0x61, 0x61] : Bytes).size := by decide
  have lowest :
      IsLeast (Bytes.placesFrom #[0x61, 0x61] #[0x61, 0x62, 0x61, 0x61, 0x61] (-3)) 2 := by
    refine ⟨⟨by decide, by decide, by decide⟩, fun place found => ?_⟩
    obtain ⟨_, _, occurs⟩ := found
    match place, occurs with
    | 0, occurs => exact absurd occurs (by decide)
    | 1, occurs => exact absurd occurs (by decide)
    | place + 2, _ => exact Nat.le_add_left 2 place
  obtain ⟨signature, made, found, _⟩ := findNext_finds_lowest nonempty _ (-3)
  obtain ⟨again, madeAgain, _, absent⟩ := findNext_finds_lowest nonempty _ 4
  cases made.symm.trans madeAgain
  refine ⟨signature, made, (found 2).mpr lowest, absent.mpr ?_⟩
  refine Set.eq_empty_of_forall_notMem fun place inside => ?_
  obtain ⟨behind, room, _⟩ := inside
  simp only [List.size_toArray, List.length_cons, List.length_nil] at room
  omega

end Signature

end Carve
