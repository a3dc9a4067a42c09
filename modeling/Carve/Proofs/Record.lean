import Carve.Proofs.Document.Grammar
import Carve.Proofs.KeyOrder
import Carve.Proofs.Sequence

namespace Carve

namespace Layout

/-- A record that is decoded for a layout, from whatever place. -/
def Decodes (layout : Layout) (record : Record) : Prop :=
  ∃ (stream : Bytes) (maxSize : Int) (store : Store) (place : Int),
    layout.candidate stream maxSize store place = .ok record

theorem decodeFields_names {context : DecodeContext} {stream : Bytes} {fields : List (Field Int)}
    {readings last : Table Reading} {cursor stop : Int}
    (distinct : (readings.names ++ fields.map Field.name).Nodup)
    (decoded : decodeFields context stream fields readings cursor = .ok (last, stop)) :
    last.names = readings.names ++ fields.map Field.name := by
  induction fields generalizing readings cursor with
  | nil =>
      cases decoded
      exact (List.append_nil _).symm
  | cons field rest ih =>
      simp only [decodeFields] at decoded
      split at decoded
      · contradiction
      · next reading read =>
          have fresh : field.name ∉ readings.names := fun member =>
            (List.nodup_append.mp distinct).2.2 _ member _ (by simp) rfl
          have names : (readings.insert field.name reading).names =
              readings.names ++ [field.name] := by
            rw [Table.names_insert, if_neg fresh]
          have extended := ih (by rwa [names, List.append_assoc]) decoded
          rwa [names, List.append_assoc] at extended

theorem Decodes.names {earlier : List Layout} {layout : Layout} {record : Record}
    (decodes : layout.Decodes record) (wellFormed : layout.WellFormed earlier) :
    record.fields.names = layout.fields.map Field.name := by
  obtain ⟨stream, maxSize, store, place, decoded⟩ := decodes
  unfold candidate at decoded
  dsimp only at decoded
  split at decoded
  · contradiction
  · next fields stop read =>
      cases decoded
      have distinct : ((Table.empty : Table Reading).names ++ layout.fields.map Field.name).Nodup :=
        wellFormed.distinct
      exact decodeFields_names distinct read

end Layout

namespace Pass

variable {pass : Pass}

theorem runFrom_decodes (threshold : Log.Level) (limit : Option Nat) (offset : Nat) (store : Store)
    {events : Array Event} (log : Array Log.Entry)
    (before : ∀ record, .found record ∈ events → pass.layout.Decodes record) :
    ∀ record, .found record ∈ (pass.runFrom threshold limit offset store events log).events →
      pass.layout.Decodes record := by
  fun_induction pass.runFrom threshold limit offset store events log with
  | case1 | case2 | case3 => exact before
  | case4 limit offset store events log wanted place found event examined ih =>
      apply ih
      intro record member
      rcases Array.mem_push.mp member with earlier | rfl
      · exact before record earlier
      · exact ⟨_, _, _, _, examine_eq_found.mp examined⟩

theorem run_decodes (pass : Pass) (threshold : Log.Level) (limit : Option Nat) (search : Search) :
    ∀ record ∈ (pass.run threshold limit search).records, pass.layout.Decodes record := by
  intro record member
  obtain ⟨event, present, same⟩ := List.mem_filterMap.mp member
  cases event with
  | rejected rejection => contradiction
  | found found =>
      cases same
      unfold run at present
      split at present
      · contradiction
      · exact runFrom_decodes threshold limit _ _ #[] (by simp) record
          (Array.mem_toList_iff.mp present)

end Pass

/-- A scan of a structure with one of these layouts, that all its records were decoded for. -/
def StructureScan.DecodedFor (layouts : List Layout) (scan : StructureScan) : Prop :=
  ∃ layout ∈ layouts, layout.name = scan.structureName ∧
    ∀ record ∈ scan.records, layout.Decodes record

theorem Plan.scanLayouts_decodes {session : Session} {options : Options} {stream : Bytes}
    {known layouts : List Layout} (declared : ∀ layout ∈ layouts, layout ∈ known) {store : Store}
    {log : List Log.Entry} {scanned scans : List StructureScan}
    (before : ∀ scan ∈ scanned, scan.DecodedFor known)
    (given : (scanLayouts session options stream layouts store log scanned).outcome = .ok scans) :
    ∀ scan ∈ scans, scan.DecodedFor known := by
  induction layouts generalizing store log scanned with
  | nil =>
      cases given
      exact before
  | cons layout rest ih =>
      obtain ⟨here, behind⟩ := List.forall_mem_cons.mp declared
      rw [scanLayouts] at given
      split at given
      · contradiction
      · split at given
        · contradiction
        · next pass made =>
            obtain ⟨rfl, _⟩ := Pass.ofLayout_eq_ok made
            dsimp only at given
            split at given
            · contradiction
            · refine ih behind (fun scan member => ?_) given
              rcases List.mem_append.mp member with earlier | last
              · exact before scan earlier
              · obtain rfl := List.mem_singleton.mp last
                exact ⟨pass.layout, here, rfl, pass.run_decodes _ _ _⟩

/-- A record that a query gives of a structure: in the scan of a stream, or in a sequence, which is
gone through at once or from wherever it stands. -/
inductive Query.Yields (query : Query) : String → Record → Prop
  | scanned {session : Session} {environment : List (String × String)} {stream : Bytes}
      {options : Option Options.Given} {scans : List StructureScan} {scan : StructureScan}
      {record : Record}
      (given : (query.scan session environment stream options).outcome = .ok scans)
      (member : scan ∈ scans) (found : record ∈ scan.records) :
      Yields query scan.structureName record
  | listed {environment : List (String × String)} {name : String} {stream : Bytes}
      {options : Option Options.Given} {sequence : Sequence} {threshold : Log.Level}
      {records : List Record} {record : Record}
      (made : query.sequence environment name stream options = .ok sequence)
      (given : (sequence.records threshold).outcome = .ok records) (found : record ∈ records) :
      Yields query name record
  | next {environment : List (String × String)} {name : String} {stream : Bytes}
      {options : Option Options.Given} {iteration : Iteration} {threshold : Log.Level}
      {record : Record}
      (made : query.sequence environment name stream options = .ok iteration.sequence)
      (given : (iteration.next threshold).1.outcome = .ok (some record)) :
      Yields query name record

theorem Query.sequence_pass {query : Query} {environment : List (String × String)} {name : String}
    {stream : Bytes} {options : Option Options.Given} {sequence : Sequence}
    (made : query.sequence environment name stream options = .ok sequence) :
    ∀ pass ∈ sequence.pass, pass.layout ∈ query.plan.layouts ∧ pass.layout.name = name := by
  intro pass present
  unfold Query.sequence at made
  split at made
  · cases made
    contradiction
  · next layout found =>
      split at made
      · contradiction
      · split at made
        · contradiction
        · next other ofLayout =>
            cases made
            cases present
            obtain ⟨rfl, _⟩ := Pass.ofLayout_eq_ok ofLayout
            unfold Query.layout? at found
            exact ⟨List.mem_of_find?_eq_some found, by simpa using List.find?_some found⟩

theorem Query.Yields.decodes {query : Query} {name : String} {record : Record}
    (yields : query.Yields name record) :
    ∃ layout ∈ query.plan.layouts, layout.name = name ∧ layout.Decodes record := by
  cases yields with
  | @scanned session environment stream options scans scan record given member found =>
      unfold Query.scan at given
      split at given
      · contradiction
      · obtain ⟨layout, declared, named, decodes⟩ := Plan.scanLayouts_decodes
          (fun _ present => present) (by simp) (Except.mapError_eq_ok.mp given) scan member
        exact ⟨layout, declared, named, decodes record found⟩
  | @listed environment name stream options sequence threshold records record made given found =>
      unfold Sequence.records at given
      split at given
      · cases given
        contradiction
      · next pass there =>
          obtain ⟨declared, named⟩ := Query.sequence_pass made pass there
          dsimp only at given
          split at given
          · contradiction
          · cases given
            exact ⟨pass.layout, declared, named, pass.run_decodes _ _ _ record found⟩
  | @next environment name stream options iteration threshold record made given =>
      unfold Iteration.next at given
      split at given
      · cases Except.ok.inj given
      · next pass there =>
          obtain ⟨declared, named⟩ := Query.sequence_pass made pass there
          dsimp only at given
          split at given
          · contradiction
          · next faultless =>
              have first := Except.ok.inj given
              exact ⟨pass.layout, declared, named,
                pass.run_decodes _ _ _ record (List.mem_of_mem_head? first)⟩

example (reading : Reading) :
    let record : Record := ⟨"mark", 0, 1, 2, .ofList [("10", reading), ("__proto__", reading),
      ("2", reading), ("01", reading), ("4294967295", reading)]⟩
    record.toObject.map Prod.fst = ["2", "10", "__proto__", "01", "4294967295"] := by
  cbv

end Carve
