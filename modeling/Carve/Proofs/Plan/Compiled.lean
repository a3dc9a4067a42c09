import Carve.Proofs.Literal
import Carve.Proofs.Plan.WellFormed

namespace Carve.Plan

variable {scope : Scope} {fields : List (Field Int)} {reference : Reference}

theorem target_local (isLocal : reference.IsLocal scope.declaration.name) {content : Content Int}
    (found : target scope fields reference = .ok content) :
    ∃ field ∈ fields, field.name = reference.field ∧ field.content = content := by
  have own : reference.owner.all (fun owner => decide (owner = scope.declaration.name)) = true := by
    simpa [Option.all_eq_true, Reference.IsLocal] using isLocal
  simp only [target, own, if_true] at found
  split at found
  · next field present =>
      cases found
      exact ⟨field, List.mem_of_find?_eq_some present, by simpa using List.find?_some present, rfl⟩
  · split at found <;> contradiction

theorem target_foreign {owner : String} (owned : reference.owner = some owner)
    (foreign : owner ≠ scope.declaration.name) {content : Content Int}
    (found : target scope fields reference = .ok content) :
    ∃ source ∈ scope.earlier, source.name = owner ∧
      ∃ field ∈ source.fields, field.name = reference.field ∧ field.content = content := by
  simp only [target, owned, Option.all_some, decide_eq_true_eq, if_neg foreign,
    Option.getD_some] at found
  split at found
  · split at found <;> contradiction
  · next source present =>
      refine ⟨source, List.mem_of_find?_eq_some present, by simpa using List.find?_some present, ?_⟩
      split at found
      · next field declared =>
          cases found
          exact ⟨field, List.mem_of_find?_eq_some declared,
            by simpa using List.find?_some declared, rfl⟩
      · contradiction

theorem checkReference_grounded (checked : checkReference scope fields reference = .ok ()) :
    reference.Grounded scope.declaration.name scope.earlier fields := by
  unfold checkReference at checked
  split at checked
  · contradiction
  · next content found =>
      have integer : content.isReferenceable = true := by
        by_cases suitable : content.isReferenceable = true
        · exact suitable
        · simp [suitable] at checked
      by_cases isLocal : reference.IsLocal scope.declaration.name
      · obtain ⟨field, declared, named, rfl⟩ := target_local isLocal found
        exact .inside field isLocal declared named integer
      · obtain ⟨owner, owned, foreign⟩ : ∃ owner, reference.owner = some owner ∧
            owner ≠ scope.declaration.name := by
          simpa [Reference.IsLocal] using isLocal
        obtain ⟨source, scanned, rfl, field, declared, named, rfl⟩ :=
          target_foreign owned foreign found
        exact .outside source field owned foreign scanned declared named integer

theorem compileSize_literal {size : Size String} {count : Int}
    (compiled : compileSize scope fields size = .ok (.literal count)) :
    0 ≤ count ∧ count ≤ maxSizeLimit := by
  cases size with
  | literal value =>
      simp only [compileSize] at compiled
      split at compiled
      · contradiction
      · split at compiled
        · contradiction
        · next fits =>
            cases compiled
            omega
  | reference reference =>
      simp only [compileSize] at compiled
      split at compiled <;> cases compiled

theorem compileSize_reference {size : Size String}
    (compiled : compileSize scope fields size = .ok (.reference reference)) :
    reference.Grounded scope.declaration.name scope.earlier fields := by
  cases size with
  | literal value =>
      simp only [compileSize] at compiled
      split at compiled
      · contradiction
      · split at compiled <;> cases compiled
  | reference written =>
      simp only [compileSize] at compiled
      split at compiled
      · contradiction
      · next checked =>
          cases compiled
          exact checkReference_grounded checked

theorem compileContent_size {content : Content String} {compiled : Content Int} {size : Size Int}
    (done : compileContent scope fields content = .ok compiled)
    (sized : compiled.size? = some size) :
    ∃ written, compileSize scope fields written = .ok size := by
  cases content with
  | primitive type =>
      cases done
      contradiction
  | buffer written | text written =>
      obtain ⟨result, found, rfl⟩ := Except.map_eq_ok.mp done
      cases sized
      exact ⟨written, found⟩

theorem compileAlign_power {written : Option String} {align : Int}
    (compiled : compileAlign written = .ok (some align)) :
    ∃ exponent : Nat, exponent < 32 ∧ align = 2 ^ exponent := by
  cases written with
  | none => cases compiled
  | some literal =>
      simp only [compileAlign] at compiled
      split at compiled
      · contradiction
      · next value parsed =>
          split at compiled
          · next accepted =>
              cases compiled
              simp only [isPowerOfTwo, Bool.and_eq_true, decide_eq_true_eq] at accepted
              obtain ⟨exponent, rfl⟩ :=
                Nat.ne_zero_and_sub_one_eq_zero_iff_isPowerOfTwo.mp accepted.1
              refine ⟨exponent, ?_, by simp⟩
              refine (Nat.pow_lt_pow_iff_right (a := 2) (by decide)).mp ?_
              have bound := accepted.2
              simp only [maxSizeLimit] at bound
              omega
          · contradiction

theorem compileOffset_safe {written : Option String} {offset : Int}
    (compiled : compileOffset written = .ok (some offset)) : offset.natAbs ≤ Number.maxSafe := by
  cases written with
  | none => cases compiled
  | some literal =>
      simp only [compileOffset] at compiled
      split at compiled
      · contradiction
      · next value parsed =>
          cases compiled
          simp only [safeOffset] at parsed
          split at parsed
          · contradiction
          · simp only [Literal.toSafeOffset] at parsed
            split at parsed
            · next small =>
                cases parsed
                exact small
            · contradiction

theorem compileField_name {field : Field String} {compiled : Field Int}
    (done : compileField scope fields field = .ok compiled) : compiled.name = field.name := by
  unfold compileField at done
  obtain ⟨align, _, done⟩ := Except.bind_eq_ok.mp done
  obtain ⟨offset, _, done⟩ := Except.bind_eq_ok.mp done
  obtain ⟨content, _, done⟩ := Except.bind_eq_ok.mp done
  cases done
  rfl

theorem compileField_wellFormed {field : Field String} {compiled : Field Int}
    (fresh : ∀ other ∈ fields, other.name ≠ field.name)
    (done : compileField scope fields field = .ok compiled) :
    compiled.WellFormed scope.declaration.name scope.earlier fields := by
  have named := compileField_name done
  unfold compileField at done
  obtain ⟨align, aligned, done⟩ := Except.bind_eq_ok.mp done
  obtain ⟨offset, placed, done⟩ := Except.bind_eq_ok.mp done
  obtain ⟨content, filled, done⟩ := Except.bind_eq_ok.mp done
  cases done
  refine { align := ?_, offset := ?_, count := ?_, fresh := by simpa only [named] using fresh,
           grounded := ?_ }
  · rintro align rfl
    exact compileAlign_power aligned
  · rintro offset rfl
    exact compileOffset_safe placed
  · intro count sized
    obtain ⟨written, compiled⟩ := compileContent_size filled sized
    exact compileSize_literal compiled
  · intro reference sized
    obtain ⟨written, compiled⟩ := compileContent_size filled sized
    exact compileSize_reference compiled

theorem compileFields_wellFormed {declared : List (Field String)} {compiled : List (Field Int)}
    (before : EachAfter (Field.WellFormed scope.declaration.name scope.earlier) fields)
    (done : compileFields scope declared fields = .ok compiled) :
    EachAfter (Field.WellFormed scope.declaration.name scope.earlier) compiled := by
  induction declared generalizing fields with
  | nil =>
      cases done
      exact before
  | cons field rest ih =>
      simp only [compileFields] at done
      split at done
      · contradiction
      · next unused =>
          have fresh : ∀ other ∈ fields, other.name ≠ field.name := by simpa using unused
          split at done
          · contradiction
          · next field' compiled =>
              exact ih (before.concat (compileField_wellFormed fresh compiled)) done

/-- The width of a constant is that of its type. -/
def Constants.WellFormed (constants : Constants) : Prop :=
  ∀ name width number, constants.find? name = some (width, number) → 1 ≤ width ∧ width ≤ 16

theorem collectConstants_wellFormed {declared : List Constant} {known constants : Constants}
    (before : known.WellFormed) (collected : collectConstants declared known = .ok constants) :
    constants.WellFormed := by
  induction declared generalizing known with
  | nil =>
      cases collected
      exact before
  | cons constant rest ih =>
      simp only [collectConstants] at collected
      split at collected
      · contradiction
      · split at collected
        · contradiction
        · refine ih ?_ collected
          intro name width number found
          rw [Table.find?_insert] at found
          split at found
          · cases found
            cases constant.type.width <;> decide
          · exact before name width number found

theorem constants_wellFormed {declared : List Constant} {constants : Constants}
    (collected : collectConstants declared .empty = .ok constants) : constants.WellFormed :=
  collectConstants_wellFormed (by simp [Constants.WellFormed, Table.find?_empty]) collected

theorem compileSignature_size {constants : Constants} {structureName : String} {order : ByteOrder}
    {source : SignatureSource} {bytes : Bytes} (known : constants.WellFormed)
    (compiled : compileSignature constants structureName order source = .ok bytes) :
    1 ≤ bytes.size ∧ bytes.size ≤ 16 := by
  unfold compileSignature at compiled
  split at compiled
  · contradiction
  · next width number spelled =>
      have size := Integer.size_encode (Except.mapError_eq_ok.mp compiled)
      rw [size, Int.toNat_natCast]
      unfold spelledSignature at spelled
      split at spelled
      · split at spelled
        · contradiction
        · split at spelled
          · contradiction
          · next measured =>
              cases spelled
              exact Literal.hexByteLength_bounds measured
      · split at spelled
        · contradiction
        · next found =>
            split at spelled
            · cases spelled
              exact known _ _ _ found
            · contradiction

theorem compileStructure_wellFormed {constants : Constants} {order : ByteOrder}
    {streamLength : Option Int} {layout : Layout} (known : constants.WellFormed)
    (fresh : ∀ other ∈ scope.earlier, other.name ≠ scope.declaration.name)
    (compiled : compileStructure constants order streamLength scope = .ok layout) :
    layout.WellFormed scope.earlier := by
  unfold compileStructure at compiled
  obtain ⟨fields, fieldsDone, compiled⟩ := Except.bind_eq_ok.mp compiled
  obtain ⟨signature, signatureDone, compiled⟩ := Except.bind_eq_ok.mp compiled
  obtain ⟨hint, hintDone, compiled⟩ := Except.bind_eq_ok.mp compiled
  cases compiled
  exact {
    fresh
    signature := compileSignature_size known signatureDone
    fields := compileFields_wellFormed eachAfter_nil (Except.mapError_eq_ok.mp fieldsDone) }

theorem compileStructures_wellFormed {constants : Constants} {order : ByteOrder}
    {streamLength : Option Int} {names : List String} {declarations : List Declaration}
    {layouts compiled : List Layout} (known : constants.WellFormed)
    (before : EachAfter Layout.WellFormed layouts)
    (done : compileStructures constants order streamLength names declarations layouts =
      .ok compiled) :
    EachAfter Layout.WellFormed compiled := by
  induction declarations generalizing layouts with
  | nil =>
      cases done
      exact before
  | cons declaration rest ih =>
      simp only [compileStructures] at done
      split at done
      · contradiction
      · next unused =>
          have fresh : ∀ other ∈ layouts, other.name ≠ declaration.name := by simpa using unused
          split at done
          · contradiction
          · next layout compiledLayout =>
              exact ih (before.concat (compileStructure_wellFormed known fresh compiledLayout)) done

/-- Every document that compiles, checked before or not, has a well-formed plan. -/
theorem wellFormed_ofDocument {document : Document} {streamLength : Option Int} {plan : Plan}
    (compiled : ofDocument document streamLength = .ok plan) : plan.WellFormed := by
  unfold ofDocument at compiled
  obtain ⟨constants, collected, compiled⟩ := Except.bind_eq_ok.mp compiled
  obtain ⟨layouts, layoutsDone, compiled⟩ := Except.bind_eq_ok.mp compiled
  cases compiled
  have known := constants_wellFormed (Except.mapError_eq_ok.mp collected)
  exact compileStructures_wellFormed known eachAfter_nil layoutsDone

/-- Two structures: a sized block, and a text that takes its size from the last block. -/
def sampleDocument : Document where
  byteOrder := some .big
  constants := none
  structures :=
    [{ name := "block", signature := .literal "0x6161", byteOrder := none, hint := none
       fields :=
         [{ name := "size", content := .primitive (.integer { signed := false, width := .one })
            align := none, offset := none },
          { name := "data", content := .buffer (.reference ⟨"size", none⟩)
            align := none, offset := some "0x1" }] },
     { name := "note", signature := .literal "0x62", byteOrder := some .little, hint := none
       fields :=
         [{ name := "text", content := .text (.reference ⟨"size", some "block"⟩)
            align := some "0x4", offset := none }] }]

def sampleBlock : Layout where
  name := "block"
  signature := #[0x61, 0x61]
  byteOrder := .big
  hint := none
  fields :=
    [{ name := "size", content := .primitive (.integer { signed := false, width := .one })
       align := none, offset := none },
     { name := "data", content := .buffer (.reference ⟨"size", none⟩)
       align := none, offset := some 1 }]

def sampleNote : Layout where
  name := "note"
  signature := #[0x62]
  byteOrder := .little
  hint := none
  fields :=
    [{ name := "text", content := .text (.reference ⟨"size", some "block"⟩)
       align := some 4, offset := none }]

theorem ofDocument_sampleDocument :
    ofDocument sampleDocument none = .ok ⟨.big, [sampleBlock, sampleNote]⟩ := rfl

/-- A structure at the end of a stream: a number on an even place, and a text behind its size and
one other byte. -/
def sampleFooterDocument : Document where
  byteOrder := some .big
  constants := none
  structures :=
    [{ name := "footer", signature := .literal "0x464f", byteOrder := none
       hint := some (.near .streamEnd)
       fields :=
         [{ name := "shift", content := .primitive (.integer { signed := true, width := .two })
            align := some "0x2", offset := none },
          { name := "size", content := .primitive (.integer { signed := false, width := .one })
            align := none, offset := none },
          { name := "note", content := .text (.reference ⟨"size", none⟩)
            align := none, offset := some "0x1" }] }]

def sampleFooter : Layout where
  name := "footer"
  signature := #[0x46, 0x4f]
  byteOrder := .big
  hint := some (.near .streamEnd)
  fields :=
    [{ name := "shift", content := .primitive (.integer { signed := true, width := .two })
       align := some 2, offset := none },
     { name := "size", content := .primitive (.integer { signed := false, width := .one })
       align := none, offset := none },
     { name := "note", content := .text (.reference ⟨"size", none⟩)
       align := none, offset := some 1 }]

theorem ofDocument_sampleFooterDocument :
    ofDocument sampleFooterDocument none = .ok ⟨.big, [sampleFooter]⟩ := rfl

end Carve.Plan
