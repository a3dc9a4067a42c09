import Carve.Proofs.Pass.Course
import Carve.Proofs.Plan.Compiled

/-!
A pass accounts for every occurrence of its signature.

Each event takes up the places from its own to the one where the search goes on.  These spans do not
overlap, and together they hold all occurrences behind the start of the pass
(`Pass.run_accounts_for_occurrences`).
-/

namespace Carve.Pass

variable {pass : Pass} {offset place : Nat} {store last : Store} {event : Event}
  {events before after : List Event}

theorem Course.occurs (course : pass.Course offset store events last) :
    ∀ event ∈ events, ∃ place : Nat, event.place = place ∧ offset ≤ place ∧
      pass.signature.bytes.OccursAt pass.stream place := by
  induction course with
  | done absent => simp
  | step found examined rest ih =>
      intro event member
      have start := (Signature.findFrom_bounds found).1
      rcases List.mem_cons.mp member with rfl | later
      · exact ⟨_, Event.place_of_examine examined, start, (Signature.findFrom_eq_some found).1⟩
      · obtain ⟨place, same, behind, occurs⟩ := ih event later
        exact ⟨place, same, by omega, occurs⟩

/-- Every event takes up at least one byte. -/
theorem Course.length_le (course : pass.Course offset store events last) :
    events.length ≤ pass.stream.size - offset := by
  induction course with
  | done absent => exact Nat.zero_le _
  | step found examined rest ih =>
      have bounds := Signature.findFrom_bounds found
      have forward := Event.stride_pos pass.signature ‹_›
      simp only [Signature.size] at bounds
      rw [List.length_cons]
      omega

theorem Course.apart (course : pass.Course offset store events last) :
    events.Pairwise fun (earlier later : Event) =>
      earlier.place + (earlier.stride pass.signature : Nat) ≤ later.place := by
  induction course with
  | done absent => exact .nil
  | step found examined rest ih =>
      refine .cons ?_ ih
      intro later member
      obtain ⟨place, same, behind, _⟩ := rest.occurs later member
      rw [Event.place_of_examine examined, same]
      omega

/-- An event spans the places from its own to the one where the search goes on. -/
def Event.Spans (signature : Signature) (event : Event) (place : Nat) : Prop :=
  event.place ≤ place ∧ place < event.place + (event.stride signature : Nat)

theorem Course.covers (course : pass.Course offset store events last) (behind : offset ≤ place)
    (occurs : pass.signature.bytes.OccursAt pass.stream place) :
    ∃ event ∈ events, event.Spans pass.signature place := by
  induction course with
  | done absent => exact absurd occurs (Signature.findFrom_eq_none absent place behind)
  | @step offset hit store last event events found examined rest ih =>
      -- What the event does not span is left to the rest of the course, for nothing lies before it.
      by_cases spanned : place < hit + event.stride pass.signature
      · have notBefore : hit ≤ place := by
          refine Nat.le_of_not_lt fun missed => ?_
          exact (Signature.findFrom_eq_some found).2 place behind missed occurs
        refine ⟨event, by simp, ?_⟩
        rw [Event.Spans, Event.place_of_examine examined]
        omega
      · obtain ⟨event, member, spans⟩ := ih (by omega)
        exact ⟨event, by simp [member], spans⟩

theorem Course.spans_unique (course : pass.Course offset store (before ++ event :: after) last)
    (spans : event.Spans pass.signature place) :
    ∀ other ∈ before ++ after, ¬ other.Spans pass.signature place := by
  have apart := course.apart
  rw [List.pairwise_append, List.pairwise_cons] at apart
  obtain ⟨_, ⟨ahead, _⟩, behind⟩ := apart
  rintro other member ⟨lower, upper⟩
  obtain ⟨start, stop⟩ := spans
  rcases List.mem_append.mp member with earlier | later
  · have gap := behind other earlier event (by simp)
    omega
  · have gap := ahead other later
    omega

/-- What is counted in a list if only one of its elements can count. -/
theorem countP_filterMap_of_others {α β : Type} {part : α → Option β} {counted : β → Bool}
    {before after : List α} {element : α}
    (others : ∀ other ∈ before ++ after, ∀ value, part other = some value → counted value = false) :
    ((before ++ element :: after).filterMap part).countP counted =
      (part element).toList.countP counted := by
  have nothing (side : List α) (inside : ∀ other ∈ side, other ∈ before ++ after) :
      (side.filterMap part).countP counted = 0 := by
    rw [List.countP_eq_zero]
    intro value member
    obtain ⟨other, present, same⟩ := List.mem_filterMap.mp member
    simp [others other (inside other present) value same]
  rw [List.filterMap_append, List.countP_append, nothing before (by simp +contextual),
    List.filterMap_cons]
  cases part element with
  | none => simpa using nothing after (by simp +contextual)
  | some value => simp [List.countP_cons, nothing after (by simp +contextual)]

namespace Run

/-- How many records of a run have their signature at a place. -/
def foundAt (run : Run) (place : Nat) : Nat :=
  run.records.countP fun record => record.signatureOffset = (place : Int)

/-- How many rejected candidates of a run have their signature at a place. -/
def rejectedAt (run : Run) (place : Nat) : Nat :=
  run.rejected.countP fun rejection => rejection.signatureOffset = (place : Int)

/-- A place strictly inside the signature of a record, which has `width` bytes. -/
def Covers (run : Run) (width place : Nat) : Prop :=
  ∃ record ∈ run.records, record.signatureOffset < place ∧ place < record.signatureOffset + width

end Run

theorem Event.spans_of_place (signature : Signature) (same : event.place = place) :
    event.Spans signature place := by
  have forward := event.stride_pos signature
  exact ⟨by omega, by omega⟩

section Split

variable {run : Run} (split : run.events.toList = before ++ event :: after)
  (others : ∀ other ∈ before ++ after, ¬ other.Spans pass.signature place)
include split others

theorem Run.foundAt_of_split : run.foundAt place =
    event.record?.toList.countP fun record => record.signatureOffset = (place : Int) := by
  rw [foundAt, records, split]
  refine countP_filterMap_of_others fun other member record same => ?_
  refine decide_eq_false fun here => others other member (Event.spans_of_place _ ?_)
  cases other with
  | found found =>
      cases same
      exact here
  | rejected rejection => contradiction

theorem Run.rejectedAt_of_split : run.rejectedAt place =
    event.rejection?.toList.countP fun rejection => rejection.signatureOffset = (place : Int) := by
  rw [rejectedAt, rejected, split]
  refine countP_filterMap_of_others fun other member rejection same => ?_
  refine decide_eq_false fun here => others other member (Event.spans_of_place _ ?_)
  cases other with
  | found record => contradiction
  | rejected found =>
      cases same
      exact here

theorem Run.event_of_covers (covers : run.Covers pass.signature.size place) :
    ∃ record, event = .found record ∧ record.signatureOffset < place := by
  obtain ⟨record, member, lower, upper⟩ := covers
  rw [records, split] at member
  obtain ⟨other, present, same⟩ := List.mem_filterMap.mp member
  cases other with
  | rejected rejection => contradiction
  | found found =>
      cases same
      by_cases here : Event.found record = event
      · exact ⟨record, here.symm, lower⟩
      · have elsewhere : Event.found record ∈ before ++ after := by
          simp only [List.mem_append, List.mem_cons, here, false_or] at present ⊢
          exact present
        exact absurd ⟨Int.le_of_lt lower, upper⟩ (others _ elsewhere)

end Split

/-- An occurrence is the place of one record, or of one rejected candidate, or inside a record's
signature, and nothing else besides. -/
theorem Course.classifies {run : Run} (course : pass.Course offset store run.events.toList last)
    (behind : offset ≤ place) (occurs : pass.signature.bytes.OccursAt pass.stream place) :
    (run.foundAt place = 1 ∧ run.rejectedAt place = 0 ∧ ¬ run.Covers pass.signature.size place) ∨
    (run.foundAt place = 0 ∧ run.rejectedAt place = 1 ∧ ¬ run.Covers pass.signature.size place) ∨
    (run.foundAt place = 0 ∧ run.rejectedAt place = 0 ∧ run.Covers pass.signature.size place) := by
  obtain ⟨event, member, spans⟩ := course.covers behind occurs
  obtain ⟨before, after, split⟩ := List.append_of_mem member
  have others := (split ▸ course).spans_unique spans
  have found := Run.foundAt_of_split split others
  have rejected := Run.rejectedAt_of_split split others
  have covering := Run.event_of_covers split others
  obtain ⟨lower, upper⟩ := spans
  cases event with
  | rejected rejection =>
      have here : rejection.signatureOffset = place := by
        simp only [Event.place, Event.stride] at lower upper
        omega
      refine .inr (.inl ⟨found, by rw [rejected]; simp [Event.rejection?, here], fun covers => ?_⟩)
      obtain ⟨record, other, _⟩ := covering covers
      contradiction
  | found record =>
      rcases Int.lt_or_eq_of_le lower with inside | here
      · refine .inr (.inr ⟨?_, rejected, record, ?_, inside, upper⟩)
        · rw [found]
          simpa [Event.record?, Event.place] using Int.ne_of_lt inside
        · exact List.mem_filterMap.mpr ⟨_, member, rfl⟩
      · refine .inl ⟨?_, rejected, fun covers => ?_⟩
        · rw [found]
          simpa [Event.record?, Event.place] using here
        obtain ⟨other, same, inside⟩ := covering covers
        cases same
        exact absurd here (Int.ne_of_lt inside)

/-- Every occurrence of the signature behind the start of a pass is accounted for once, nothing else
is an event, the events come in stream order, and records do not share a byte of signature. -/
theorem run_accounts_for_occurrences {document : Document} {streamLength : Option Int} {plan : Plan}
    (compiled : Plan.ofDocument document streamLength = .ok plan) {layout : Layout}
    (declared : layout ∈ plan.layouts) {stream : Bytes} (small : stream.size < 2 ^ 53)
    (options : Options) (threshold : Log.Level) (store : Store) :
    ∃ pass, ofLayout layout stream options = .ok pass ∧
      let start := Hint.start layout.hint stream.size (layout.window options.nearMargin)
      let width := layout.signature.size
      let run := pass.run threshold none (pass.begin store)
      (run.search.offset = none ∧ run.fault = none) ∧
      (∀ place : Nat, start ≤ place → layout.signature.OccursAt stream place →
        (run.foundAt place = 1 ∧ run.rejectedAt place = 0 ∧ ¬ run.Covers width place) ∨
        (run.foundAt place = 0 ∧ run.rejectedAt place = 1 ∧ ¬ run.Covers width place) ∨
        (run.foundAt place = 0 ∧ run.rejectedAt place = 0 ∧ run.Covers width place)) ∧
      (∀ event ∈ run.events.toList, ∃ place : Nat, event.place = place ∧ start ≤ place ∧
        layout.signature.OccursAt stream place) ∧
      (run.events.toList.map Event.place).Pairwise (· < ·) ∧
      run.records.Pairwise fun (earlier later : Record) =>
        earlier.signatureOffset + width ≤ later.signatureOffset := by
  obtain ⟨earlier, wellFormed⟩ := (Plan.wellFormed_ofDocument compiled).layout declared
  obtain ⟨pass, made⟩ := ofLayout_exists stream options wellFormed
  refine ⟨pass, made, ?_⟩
  obtain ⟨fault, stopped, course, _⟩ :=
    run_course (ofLayout_faultless wellFormed small made) threshold store
  obtain ⟨rfl, signature, rfl, rfl⟩ := ofLayout_eq_ok made
  have width : pass.signature.size = pass.layout.signature.size := by
    rw [← signature, Signature.size_bytes]
  have apart := course.apart
  dsimp only
  refine ⟨⟨stopped, fault⟩, ?_, ?_, ?_, ?_⟩
  · intro place behind occurs
    rw [← width]
    exact course.classifies (Int.toNat_le.mpr behind) (signature ▸ occurs)
  · intro event member
    obtain ⟨place, same, behind, occurs⟩ := course.occurs event member
    exact ⟨place, same, Int.toNat_le.mp behind, signature ▸ occurs⟩
  · rw [List.pairwise_map]
    refine apart.imp fun {first second} gap => ?_
    have forward := first.stride_pos pass.signature
    omega
  · rw [Run.records, List.pairwise_filterMap]
    refine apart.imp fun {first second} gap record same other sameOther => ?_
    cases first <;> cases second <;> cases same <;> cases sameOther
    rw [← width]
    exact gap

/-- Two overlapping occurrences, of which the first is followed by too large a size. -/
theorem accounts_for_overlapping_occurrences :
    ∃ pass, ofLayout Plan.sampleBlock #[0x61, 0x61, 0x61, 1, 0, 7] .default = .ok pass ∧
      let run := pass.run .debug none (pass.begin .empty)
      run.fault = none ∧ ∀ place ∈ [0, 1],
        (run.foundAt place = 1 ∧ run.rejectedAt place = 0 ∧ ¬ run.Covers 2 place) ∨
        (run.foundAt place = 0 ∧ run.rejectedAt place = 1 ∧ ¬ run.Covers 2 place) ∨
        (run.foundAt place = 0 ∧ run.rejectedAt place = 0 ∧ run.Covers 2 place) := by
  obtain ⟨pass, made, ⟨_, fault⟩, accounts, _⟩ :=
    run_accounts_for_occurrences Plan.ofDocument_sampleDocument (by simp : Plan.sampleBlock ∈ _)
      (by decide : (#[0x61, 0x61, 0x61, 1, 0, 7] : Bytes).size < 2 ^ 53) .default .debug .empty
  refine ⟨pass, made, fault, fun place listed => accounts place ?_ ?_⟩
  · exact Int.natCast_nonneg place
  · revert place
    decide

end Carve.Pass
