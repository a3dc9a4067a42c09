import Carve.Proofs.Encoding
import Carve.Proofs.Plan.Checks
import Carve.Proofs.Plan.Compiled

namespace Carve

theorem Integer.fits_natCast {number width : Nat} :
    fits number width = true ↔ number < 2 ^ (8 * width) := by
  have power := powerOfTwo_natCast (8 * width)
  push_cast at power
  rw [fits, if_neg (by omega), power, decide_eq_true_eq]
  exact_mod_cast Iff.rfl

theorem Table.mem_names_of_find? {α : Type} {table : Table α} {name : String} {value : α}
    (found : table.find? name = some value) : name ∈ table.names := by
  obtain ⟨before, after, split, _⟩ := List.lookup_eq_some_iff.mp found
  simp [names, split]

theorem Literal.Spells.unique {literal : String} {number other : Nat}
    (first : Spells literal number) (second : Spells literal other) : number = other := by
  rw [← parseHex_eq_ok] at first second
  exact Except.ok.inj (first.symm.trans second)

namespace Plan

/-- The constants collected are those declared, each with its width and its number. -/
structure Constants.Lists (constants : Constants) (declared : List Constant) : Prop where
  names : constants.names = declared.map Constant.name
  values : ∀ constant ∈ declared, ∃ number, Literal.Spells constant.value number ∧
    constants.find? constant.name = some (constant.type.width.bytes, number)

theorem collectConstants_lists {declared collected : List Constant} {known constants : Constants}
    (before : known.Lists collected) (done : collectConstants declared known = .ok constants) :
    constants.Lists (collected ++ declared) := by
  induction declared generalizing known collected with
  | nil =>
      cases done
      simpa using before
  | cons constant rest ih =>
      simp only [collectConstants] at done
      split at done
      · contradiction
      · next unused =>
          split at done
          · contradiction
          · next number parsed =>
              have fresh : constant.name ∉ known.names := by simpa [Table.contains] using unused
              rw [List.append_cons]
              refine ih ⟨?_, ?_⟩ done
              · rw [Table.names_insert, if_neg fresh, before.names, List.map_append]
                rfl
              · intro other member
                rw [Table.find?_insert]
                rcases List.mem_append.mp member with earlier | last
                · obtain ⟨number, spells, found⟩ := before.values other earlier
                  have apart : other.name ≠ constant.name := by
                    intro same
                    rw [before.names, ← same] at fresh
                    exact fresh (List.mem_map_of_mem earlier)
                  exact ⟨number, spells, by rw [if_neg apart, found]⟩
                · cases List.mem_singleton.mp last
                  exact ⟨number, Literal.parseHex_eq_ok.mp parsed, if_pos rfl⟩

theorem constants_list {declared : List Constant} {constants : Constants}
    (collected : collectConstants declared .empty = .ok constants) : constants.Lists declared :=
  have none : Constants.Lists .empty [] := ⟨rfl, by simp⟩
  collectConstants_lists none collected

theorem collectConstants_exists_iff {declared : List Constant} {known : Constants} :
    (∃ constants, collectConstants declared known = .ok constants) ↔
      (known.names ++ declared.map Constant.name).Nodup ∧
        ∀ constant ∈ declared, ∃ number, Literal.Spells constant.value number := by
  induction declared generalizing known with
  | nil => simp [collectConstants, Table.names, known.distinct]
  | cons constant rest ih =>
      simp only [collectConstants, Table.contains, List.contains_iff_mem, List.forall_mem_cons,
        ← Literal.parseHex_eq_ok]
      by_cases repeated : constant.name ∈ known.names
      · refine ⟨by simp [repeated], ?_⟩
        intro valid
        have distinct := valid.1
        rw [List.nodup_append] at distinct
        exact absurd rfl (distinct.2.2 _ repeated _ (by simp))
      · cases Literal.parseHex constant.value with
        | error error => simp [repeated]
        | ok number => simp [repeated, ih, Table.names_insert, Literal.parseHex_eq_ok]

variable {constants : Constants} {declared : List Constant} {structureName : String}
  {source : SignatureSource}

theorem spelledSignature_fits {width number : Nat}
    (spelled : spelledSignature constants structureName source = .ok (width, number)) :
    Integer.fits number width = true := by
  unfold spelledSignature at spelled
  split at spelled
  · next literal =>
      split at spelled
      · contradiction
      · next parsed =>
          obtain ⟨_, measured, room⟩ := (Literal.parseHex_eq_ok.mp parsed).hexByteLength_exists
          rw [measured] at spelled
          cases spelled
          exact Integer.fits_natCast.mpr room
  · split at spelled
    · contradiction
    · split at spelled
      · next fits =>
          cases spelled
          exact fits
      · contradiction

theorem spelledSignature_exists_iff (lists : constants.Lists declared) :
    (∃ spelled, spelledSignature constants structureName source = .ok spelled) ↔
      source.Legal declared := by
  cases source with
  | literal value =>
      simp only [spelledSignature, SignatureSource.Legal, ← Literal.parseHex_eq_ok]
      cases parsed : Literal.parseHex value with
      | error error => simp
      | ok number =>
          obtain ⟨width, measured, _⟩ := (Literal.parseHex_eq_ok.mp parsed).hexByteLength_exists
          simp [measured]
  | constant name =>
      simp only [spelledSignature, SignatureSource.Legal]
      constructor
      · intro accepted
        obtain ⟨spelled, done⟩ := accepted
        split at done
        · contradiction
        · next width number found =>
            split at done
            · next fits =>
                have listed := Table.mem_names_of_find? found
                rw [lists.names] at listed
                obtain ⟨constant, member, rfl⟩ := List.mem_map.mp listed
                obtain ⟨other, spells, again⟩ := lists.values constant member
                cases found.symm.trans again
                exact ⟨constant, member, rfl, number, spells, Integer.fits_natCast.mp fits⟩
            · contradiction
      · intro legal
        obtain ⟨constant, member, rfl, number, spells, room⟩ := legal
        obtain ⟨other, again, found⟩ := lists.values constant member
        cases spells.unique again
        have fits : Integer.fits number constant.type.width.bytes = true :=
          Integer.fits_natCast.mpr room
        refine ⟨(constant.type.width.bytes, number), ?_⟩
        simp only [found, fits, if_true]

theorem compileSignature_exists_iff (lists : constants.Lists declared) {order : ByteOrder} :
    (∃ bytes, compileSignature constants structureName order source = .ok bytes) ↔
      source.Legal declared := by
  rw [← spelledSignature_exists_iff lists, compileSignature]
  cases spelled : spelledSignature constants structureName source with
  | error failure => simp
  | ok result =>
      obtain ⟨bytes, encoded, _⟩ := Integer.encode_of_fits (spelledSignature_fits spelled) order
      simp [Except.mapError_eq_ok, encoded]

end Plan

end Carve
