import Carve.Proofs.Field.Reading
import Mathlib.Order.Bounds.Basic

namespace Carve

namespace Number

variable {value bound : Int}

/-- Rounding moves no number over a bound below 2^53. -/
theorem round_le_iff (lower : -2 ^ 53 ≤ bound) (upper : bound < 2 ^ 53) :
    round value ≤ bound ↔ value ≤ bound := by
  constructor
  · intro rounded
    apply Int.not_lt.mp
    intro above
    have kept : round (bound + 1) = bound + 1 := round_of_natAbs_le (by omega)
    have ordered : round (bound + 1) ≤ round value := round_mono above
    omega
  · intro ordered
    calc round value ≤ round bound := round_mono ordered
      _ = bound := round_of_natAbs_le (by omega)

theorem lt_round_iff (lower : -2 ^ 53 ≤ bound) (upper : bound < 2 ^ 53) :
    bound < round value ↔ bound < value := by
  rw [← Int.not_le, round_le_iff lower upper, Int.not_le]

theorem round_lt_zero_iff : round value < 0 ↔ value < 0 := by
  have least : round value ≤ -1 ↔ value ≤ -1 := round_le_iff (by decide) (by decide)
  omega

/-- The first multiple of `boundary` from a number on is as far behind it as the number is in front
of a multiple. -/
theorem isLeast_multiple {boundary : Int} (positive : 0 < boundary) (number : Int) :
    IsLeast {multiple | number ≤ multiple ∧ boundary ∣ multiple}
      (number + -number % boundary) := by
  have step := Int.emod_nonneg (-number) (Int.ne_of_gt positive)
  have below := Int.emod_lt_of_pos (-number) positive
  have divided : boundary ∣ number + -number % boundary := by
    have parts := Int.emod_add_mul_ediv (-number) boundary
    exact ⟨-(-number / boundary), by rw [Int.mul_neg]; omega⟩
  refine ⟨⟨by omega, divided⟩, fun multiple behind => ?_⟩
  obtain ⟨reached, factor, rfl⟩ := behind
  apply Int.not_lt.mp
  intro passed
  obtain ⟨other, same⟩ := divided
  rw [same] at passed
  have factors : factor + 1 ≤ other := Int.lt_of_mul_lt_mul_left passed (Int.le_of_lt positive)
  have apart : boundary * (factor + 1) ≤ boundary * other :=
    Int.mul_le_mul_of_nonneg_left factors (Int.le_of_lt positive)
  rw [Int.mul_add, Int.mul_one] at apart
  omega

end Number

namespace Field

/-- The places that a field may take from a number on. -/
def placesFrom (field : Field Int) (moved : Int) : Set Int :=
  {place | moved ≤ place ∧ ∀ align ∈ field.align, align ∣ place}

variable {field : Field Int} {cursor length moved : Int}

theorem shift_exact (nonnegative : 0 ≤ cursor) (inside : cursor ≤ length)
    (small : length < 2 ^ 53) (reached : cursor + field.offset.getD 0 = moved) :
    field.shift cursor length =
      if 0 ≤ moved ∧ moved ≤ length then .ok moved
      else .error ⟨field.name, cursor, .outOfBounds (Number.round moved)⟩ := by
  unfold shift
  cases present : field.offset with
  | none =>
      simp only [present, Option.getD_none, Int.add_zero] at reached
      rw [if_pos (by omega), reached]
  | some offset =>
      simp only [present, Option.getD_some] at reached
      have behind : length < Number.round moved ↔ length < moved :=
        Number.lt_round_iff (by omega) small
      simp only [Number.add, reached, Number.round_lt_zero_iff, behind]
      by_cases within : 0 ≤ moved ∧ moved ≤ length
      · have exact : Number.round moved = moved := Number.round_of_natAbs_le (by omega)
        rw [if_pos within, if_neg (by omega), exact]
      · rw [if_neg within, if_pos (by omega)]

theorem placesFrom_none (unaligned : field.align = none) : IsLeast (field.placesFrom moved) moved :=
  ⟨⟨Int.le_refl moved, by simp [unaligned]⟩, fun _ found => found.1⟩

theorem placesFrom_some {align : Int} (present : field.align = some align) (positive : 0 < align) :
    IsLeast (field.placesFrom moved) (moved + -moved % align) := by
  simpa [placesFrom, present] using Number.isLeast_multiple positive moved

theorem placesFrom_least (aligned : ∀ align ∈ field.align, 0 < align) (moved : Int) :
    ∃ place, IsLeast (field.placesFrom moved) place := by
  cases present : field.align with
  | none => exact ⟨moved, placesFrom_none present⟩
  | some align => exact ⟨_, placesFrom_some present (aligned align present)⟩

theorem alignUp_exact (aligned : ∀ align ∈ field.align, 0 < align ∧ align ≤ 2 ^ 53)
    (nonnegative : 0 ≤ moved) (inside : moved ≤ length) (small : length < 2 ^ 53) {place : Int}
    (least : IsLeast (field.placesFrom moved) place) :
    field.alignUp cursor length moved =
      if place ≤ length then .ok place
      else .error ⟨field.name, cursor, .outOfBounds (Number.round place)⟩ := by
  unfold alignUp
  cases present : field.align with
  | none =>
      cases least.unique (placesFrom_none present)
      rw [if_pos inside]
  | some align =>
      obtain ⟨positive, limited⟩ := aligned align present
      cases least.unique (placesFrom_some present positive)
      have remainder : moved.tmod align = moved % align := Int.tmod_eq_emod_of_nonneg nonnegative
      have lower := Int.emod_nonneg moved (Int.ne_of_gt positive)
      have upper := Int.emod_lt_of_pos moved positive
      simp only [remainder, Int.neg_emod, Int.dvd_iff_emod_eq_zero,
        Int.natAbs_of_nonneg (Int.le_of_lt positive)]
      by_cases multiple : moved % align = 0
      · rw [if_pos multiple, if_pos multiple, Int.add_zero, if_pos inside]
      · have distance : Number.sub align (moved % align) = align - moved % align :=
          Number.sub_of_natAbs_le (by omega)
        rw [if_neg multiple, if_neg multiple, distance, Number.add]
        by_cases room : moved + (align - moved % align) ≤ length
        · have exact : Number.round (moved + (align - moved % align)) =
              moved + (align - moved % align) := Number.round_of_natAbs_le (by omega)
          rw [if_pos room, exact, if_neg (by omega)]
        · have behind : length < Number.round (moved + (align - moved % align)) :=
            (Number.lt_round_iff (by omega) small).mpr (Int.not_le.mp room)
          rw [if_neg room, if_pos behind]

/-- A field stands at the least of the places behind its offset that its boundary allows, reckoned
with exact numbers.  It is refused exactly if its offset leads out of the stream or that place lies
behind the end. -/
theorem position_least (aligned : ∀ align ∈ field.align, 0 < align ∧ align ≤ 2 ^ 53)
    (nonnegative : 0 ≤ cursor) (inside : cursor ≤ length) (small : length < 2 ^ 53) :
    let moved := cursor + field.offset.getD 0
    ∃ place, IsLeast (field.placesFrom moved) place ∧
      field.position cursor length =
        if 0 ≤ moved ∧ moved ≤ length ∧ place ≤ length then .ok place
        else
          let outside := if 0 ≤ moved ∧ moved ≤ length then place else moved
          .error ⟨field.name, cursor, .outOfBounds (Number.round outside)⟩ := by
  intro moved
  obtain ⟨place, least⟩ :=
    placesFrom_least (fun align present => (aligned align present).1) moved
  refine ⟨place, least, ?_⟩
  have shifted : field.shift cursor length = if 0 ≤ moved ∧ moved ≤ length then .ok moved
      else .error ⟨field.name, cursor, .outOfBounds (Number.round moved)⟩ :=
    shift_exact nonnegative inside small rfl
  by_cases within : 0 ≤ moved ∧ moved ≤ length
  · obtain ⟨lower, upper⟩ := within
    rw [position, shifted, if_pos ⟨lower, upper⟩]
    simp only [lower, upper, and_self, if_true, true_and]
    exact alignUp_exact aligned lower upper small least
  · have refused : ¬ (0 ≤ moved ∧ moved ≤ length ∧ place ≤ length) :=
      fun all => within ⟨all.1, all.2.1⟩
    rw [position, shifted, if_neg within, if_neg refused]
    simp only [if_neg within]

/-- Two bytes back, the next multiple of four ends the stream. -/
def sampleBack : Field Int where
  name := "back"
  content := .buffer (.literal 0)
  align := some 4
  offset := some (-2)

/-- The offset and the boundary are as large as a document can have them. -/
def sampleFar : Field Int where
  name := "far"
  content := .buffer (.literal 0)
  align := some (2 ^ 31)
  offset := some (2 ^ 53 - 1)

/-- From the end of the longest stream a boundary leads behind it, and a large offset so far that
only a rounded number can be reported. -/
theorem position_least_sample :
    sampleBack.position 8 8 = .ok 8 ∧
      { sampleFar with offset := none }.position (2 ^ 53 - 1) (2 ^ 53 - 1) =
        .error ⟨"far", 2 ^ 53 - 1, .outOfBounds (2 ^ 53)⟩ ∧
      sampleFar.position (2 ^ 53 - 2) (2 ^ 53 - 1) =
        .error ⟨"far", 2 ^ 53 - 2, .outOfBounds (2 ^ 54 - 4)⟩ := by
  have powers : ∀ align ∈ some ((2 : Int) ^ 31), 0 < align ∧ align ≤ 2 ^ 53 := by decide
  refine ⟨?_, ?_, ?_⟩
  · obtain ⟨place, least, placed⟩ :=
      @position_least sampleBack 8 8 (by decide) (by decide) (by decide) (by decide)
    cases least.unique (placesFrom_some rfl (by decide))
    exact placed
  · obtain ⟨place, least, placed⟩ := @position_least { sampleFar with offset := none }
      (2 ^ 53 - 1) (2 ^ 53 - 1) powers (by decide) (by decide) (by decide)
    cases least.unique (placesFrom_some rfl (by decide))
    exact placed
  · obtain ⟨place, least, placed⟩ := @position_least sampleFar
      (2 ^ 53 - 2) (2 ^ 53 - 1) powers (by decide) (by decide) (by decide)
    cases least.unique (placesFrom_some rfl (by decide))
    exact placed

end Field

/-- The first multiple of a boundary from a number on. -/
def Number.alignUp (number boundary : Nat) : Nat :=
  (number + (boundary - 1)) / boundary * boundary

namespace Number

variable {number boundary : Nat}

theorem alignUp_of_aligned (positive : 0 < boundary) (aligned : number % boundary = 0) :
    alignUp number boundary = number := by
  obtain ⟨factor, rfl⟩ := Nat.dvd_of_mod_eq_zero aligned
  have quotient : (boundary * factor + (boundary - 1)) / boundary = factor := by
    rw [Nat.mul_add_div positive, Nat.div_eq_of_lt (by omega), Nat.add_zero]
  rw [alignUp, quotient, Nat.mul_comm]

theorem alignUp_of_remainder (positive : 0 < boundary) (remainder : number % boundary ≠ 0) :
    alignUp number boundary = number + (boundary - number % boundary) := by
  have below := Nat.mod_lt number positive
  have parts := Nat.div_add_mod number boundary
  have quotient : (number + (boundary - 1)) / boundary = number / boundary + 1 := by
    rw [Nat.div_eq_iff positive]
    have next : (number / boundary + 1) * boundary = boundary * (number / boundary) + boundary := by
      rw [Nat.succ_mul, Nat.mul_comm]
    omega
  rw [alignUp, quotient, Nat.succ_mul, Nat.mul_comm]
  omega

theorem le_alignUp (number : Nat) (positive : 0 < boundary) :
    number ≤ alignUp number boundary := by
  by_cases aligned : number % boundary = 0
  · exact Nat.le_of_eq (alignUp_of_aligned positive aligned).symm
  · rw [alignUp_of_remainder positive aligned]
    omega

theorem alignUp_cast (positive : 0 < boundary) (number : Nat) :
    (alignUp number boundary : Int) = number + -(number : Int) % boundary := by
  rw [Int.neg_emod]
  by_cases aligned : number % boundary = 0
  · rw [alignUp_of_aligned positive aligned, if_pos (by omega), Int.add_zero]
  · have below := Nat.mod_lt number positive
    rw [alignUp_of_remainder positive aligned, if_neg (by omega)]
    omega

end Number

namespace Field

def place (field : Field Int) (cursor : Nat) : Nat :=
  Number.alignUp (cursor + (field.offset.getD 0).toNat) (field.align.getD 1).toNat

variable {field : Field Int} {cursor moved length : Nat}

theorem Admissible.boundary_pos (admissible : field.Admissible) :
    0 < (field.align.getD 1).toNat := by
  cases present : field.align with
  | none => decide
  | some align =>
      obtain ⟨positive, _⟩ := admissible.boundary align present
      simp only [Option.getD_some]
      omega

theorem Admissible.le_place (admissible : field.Admissible) (cursor : Nat) :
    cursor + (field.offset.getD 0).toNat ≤ field.place cursor :=
  Number.le_alignUp _ admissible.boundary_pos

theorem offset_cast (forward : ∀ offset ∈ field.offset, 0 ≤ offset) :
    ((field.offset.getD 0).toNat : Int) = field.offset.getD 0 := by
  cases present : field.offset with
  | none => rfl
  | some offset => exact Int.toNat_of_nonneg (forward offset present)

/-- A field is written at the first of the places that it may take. -/
theorem Admissible.place_least (admissible : field.Admissible)
    (forward : ∀ offset ∈ field.offset, 0 ≤ offset) (cursor : Nat) :
    IsLeast (field.placesFrom (cursor + field.offset.getD 0)) (field.place cursor) := by
  have positive := admissible.boundary_pos
  rw [← offset_cast forward, ← Int.natCast_add, place]
  cases present : field.align with
  | none => simpa [Number.alignUp] using placesFrom_none present
  | some align =>
      obtain ⟨above, _⟩ := admissible.boundary align present
      rw [present] at positive
      rw [Number.alignUp_cast positive, Option.getD_some, Int.toNat_of_nonneg (Int.le_of_lt above)]
      exact placesFrom_some present above

theorem Admissible.position_eq_place (admissible : field.Admissible) (small : length < 2 ^ 53)
    (forward : ∀ offset ∈ field.offset, 0 ≤ offset) (room : field.place cursor ≤ length) :
    field.position cursor length = .ok (field.place cursor : Nat) := by
  have least := admissible.place_least forward cursor
  have behind := admissible.le_place cursor
  have offset := offset_cast forward
  have shifted : field.shift cursor length = .ok (cursor + field.offset.getD 0) := by
    rw [shift_exact (Int.natCast_nonneg cursor) (by omega) (by omega) rfl, if_pos (by omega)]
  rw [position, shifted]
  change field.alignUp cursor length _ = _
  rw [alignUp_exact admissible.boundary (by omega) (by omega) (by omega) least, if_pos (by omega)]

end Field

end Carve
