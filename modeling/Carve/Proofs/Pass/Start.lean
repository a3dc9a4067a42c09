import Carve.Proofs.Pass.Window
import Carve.Proofs.Plan.Acceptance
import Carve.Proofs.Plan.Refusal

namespace Carve

namespace Number

theorem max_round {value : Int} (small : value ≤ 2 ^ 53) : max 0 (round value) = max 0 value := by
  by_cases negative : value < 0
  · have rounded : round value ≤ round 0 := round_mono (by omega)
    have zero : round 0 = 0 := rfl
    omega
  · rw [round_of_natAbs_le (by omega)]

theorem StandsFor.max_sub {window exact place : Int} (stands : StandsFor window exact)
    (nonnegative : 0 ≤ exact) (small : place ≤ 2 ^ 53) :
    max 0 (sub place window) = max 0 (place - exact) := by
  rcases stands with rfl | ⟨large, exactLarge⟩
  · exact max_round (by omega)
  · rw [sub, max_round (by omega)]
    omega

end Number

namespace Hint

/-- The offset at which a search begins, without any rounding. -/
def exactStart (hint : Option (Hint Int)) (length window : Int) : Int :=
  match hint with
  | none | some (.near .streamStart) => 0
  | some (.skip offset) => min offset length
  | some (.near .streamEnd) => max 0 (length - window)
  | some (.near (.offset offset)) => max 0 (min offset length - window)

variable {hint : Option (Hint Int)} {length window exact : Int}

theorem start_eq_exactStart
    (forward : ∀ known ∈ hint, ∀ offset ∈ known.offset?, 0 ≤ offset) (small : length ≤ 2 ^ 53)
    (stands : Number.StandsFor window exact) (nonnegative : 0 ≤ exact) :
    start hint length window = exactStart hint length exact := by
  match hint with
  | none | some (.near .streamStart) => rfl
  | some (.skip offset) =>
      have positive : 0 ≤ offset := forward _ rfl offset rfl
      simp only [start, exactStart]
      split <;> omega
  | some (.near .streamEnd) => exact stands.max_sub nonnegative small
  | some (.near (.offset offset)) => exact stands.max_sub nonnegative (by omega)

theorem exactStart_le
    (forward : ∀ known ∈ hint, ∀ offset ∈ known.offset?, 0 ≤ offset) (positive : 0 ≤ length)
    (nonnegative : 0 ≤ window) :
    0 ≤ exactStart hint length window ∧ exactStart hint length window ≤ length := by
  match hint with
  | none | some (.near .streamStart) => exact ⟨Int.le_refl 0, positive⟩
  | some (.skip offset) =>
      have behind : 0 ≤ offset := forward _ rfl offset rfl
      simp only [exactStart]
      omega
  | some (.near .streamEnd) | some (.near (.offset offset)) =>
      simp only [exactStart]
      omega

end Hint

namespace Plan

variable {streamLength : Option Int}

theorem parseOffset_bounds {literal : String} {offset : Int}
    (parsed : parseOffset literal = .ok offset) : 0 ≤ offset ∧ offset ≤ Number.maxSafe := by
  obtain ⟨number, _, small, rfl⟩ :=
    (parseOffset_exists_iff literal (· = offset)).mp ⟨offset, parsed, rfl⟩
  omega

theorem compileHint_offset {hint : Hint String} {compiled : Hint Int}
    (done : compileHint streamLength hint = .ok compiled) :
    ∀ offset ∈ compiled.offset?, 0 ≤ offset ∧ offset ≤ Number.maxSafe := by
  cases hint with
  | skip literal =>
      simp only [compileHint] at done
      split at done
      · contradiction
      · next offset parsed =>
          have bounds := parseOffset_bounds parsed
          split at done
          · cases done
            simpa [Hint.offset?] using bounds
          · split at done
            · contradiction
            · cases done
              simpa [Hint.offset?] using bounds
  | near anchor =>
      cases anchor with
      | streamStart | streamEnd =>
          cases done
          simp [Hint.offset?]
      | offset literal =>
          simp only [compileHint] at done
          split at done
          · contradiction
          · next offset parsed =>
              cases done
              simpa [Hint.offset?] using parseOffset_bounds parsed

theorem Compiles.hint_offset {constants : Constants} {order : ByteOrder}
    {declaration : Declaration} {layout : Layout}
    (compiles : Compiles constants order streamLength declaration layout) :
    ∀ hint ∈ layout.hint, ∀ offset ∈ hint.offset?, 0 ≤ offset ∧ offset ≤ Number.maxSafe := by
  obtain ⟨scope, _, done⟩ := compiles
  obtain ⟨fields, _, done⟩ := Except.bind_eq_ok.mp done
  obtain ⟨signature, _, done⟩ := Except.bind_eq_ok.mp done
  obtain ⟨hint, hinted, done⟩ := Except.bind_eq_ok.mp done
  cases done
  rw [Except.mapError_eq_ok] at hinted
  cases written : scope.declaration.hint with
  | none =>
      rw [written] at hinted
      cases hinted
      simp
  | some source =>
      rw [written] at hinted
      obtain ⟨compiled, found, rfl⟩ := Except.map_eq_ok.mp hinted
      simpa using compileHint_offset found

/-- The search for a structure begins where exact numbers say, however large the sum of its sizes or
the margin is.  So it begins in the stream or at its end, and the earlier the larger the margin
is. -/
theorem start_exact {document : Document} {plan : Plan}
    (compiled : ofDocument document streamLength = .ok plan) {layout : Layout}
    (declared : layout ∈ plan.layouts) {length : Nat} (small : length < 2 ^ 53) {margin : Int}
    (nonnegative : 0 ≤ margin) :
    let start (margin : Int) := Hint.start layout.hint length (layout.window margin)
    start margin = Hint.exactStart layout.hint length (layout.exactWindow margin) ∧
      (0 ≤ start margin ∧ start margin ≤ length) ∧
      ∀ wider, margin ≤ wider → start wider ≤ start margin := by
  intro start
  obtain ⟨earlier, wellFormed⟩ := (wellFormed_ofDocument compiled).layout declared
  obtain ⟨constants, _, each⟩ := ofDocument_compiled compiled
  obtain ⟨declaration, _, compiles⟩ := each.declaration_exists declared
  have forward : ∀ hint ∈ layout.hint, ∀ offset ∈ hint.offset?, 0 ≤ offset :=
    fun hint hinted offset there => (compiles.hint_offset hint hinted offset there).1
  obtain ⟨stands, positive⟩ := Layout.window_standsFor wellFormed.admissible nonnegative
  have exact : start margin = Hint.exactStart layout.hint length (layout.exactWindow margin) :=
    Hint.start_eq_exactStart forward (by omega) stands positive
  refine ⟨exact, ?_, fun wider ordered => layout.start_anti length ordered⟩
  rw [exact]
  exact Hint.exactStart_le forward (Int.natCast_nonneg length) positive

/-- With a large margin the window has lost the five bytes in front of it, and the search begins at
the start of the stream as it would with them. -/
theorem start_exact_sample :
    Hint.start sampleFooter.hint 12 (sampleFooter.window 6) = 1 ∧
      sampleFooter.window (2 ^ 60) = 2 ^ 60 ∧ sampleFooter.exactWindow (2 ^ 60) = 2 ^ 60 + 5 ∧
      Hint.start sampleFooter.hint 12 (sampleFooter.window (2 ^ 60)) = 0 := by
  have declared : sampleFooter ∈ [sampleFooter] := .head _
  obtain ⟨near, _, _⟩ := start_exact ofDocument_sampleFooterDocument declared
    (by decide : 12 < 2 ^ 53) (by decide : (0 : Int) ≤ 6)
  obtain ⟨far, _, _⟩ := start_exact ofDocument_sampleFooterDocument declared
    (by decide : 12 < 2 ^ 53) (by decide : (0 : Int) ≤ 2 ^ 60)
  exact ⟨near, by decide, by decide, far⟩

end Plan

end Carve
