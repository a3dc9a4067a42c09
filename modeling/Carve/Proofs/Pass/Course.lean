import Carve.Pass
import Carve.Proofs.Candidate
import Carve.Proofs.Occurrence
import Carve.Proofs.Sources

/-!
The course of a pass: its events one behind the other, without the arrays that a run collects them
in.  A run of a pass that no candidate can fault in takes such a course (`Pass.run_course`).

With stores that agree on what the structure refers to, a pass meets the same candidates and they
become the same events (`Pass.Course.determined`).  What the pass commits itself does not count, for
a structure cannot refer to records of its own.
-/

namespace Carve.Pass

/-- Where the candidate's signature begins. -/
def Event.place : Event → Int
  | .found record => record.signatureOffset
  | .rejected rejection => rejection.signatureOffset

/-- The events of a search that goes on from an offset with a store, and the store behind them. -/
inductive Course (pass : Pass) : Nat → Store → List Event → Store → Prop
  | done {offset : Nat} {store : Store}
      (absent : pass.signature.findFrom pass.stream offset = none) :
      Course pass offset store [] store
  | step {offset place : Nat} {store last : Store} {event : Event} {events : List Event}
      (found : pass.signature.findFrom pass.stream offset = some place)
      (examined : pass.examine store place = .ok event)
      (rest : Course pass (place + event.stride pass.signature) (event.commit store) events last) :
      Course pass offset store (event :: events) last

/-- No candidate at an occurrence of the signature faults. -/
def Faultless (pass : Pass) : Prop :=
  ∀ store place, pass.signature.bytes.OccursAt pass.stream place →
    ∃ event, pass.examine store place = .ok event

section Course

variable {pass : Pass} {offset place : Nat} {store last : Store} {event : Event}
  {events : List Event}

section RunFrom

variable {threshold : Log.Level} {limit : Option Nat} (wanted : limit ≠ some 0) (met : Array Event)
  (log : Array Log.Entry)
include wanted

theorem runFrom_absent (absent : pass.signature.findFrom pass.stream offset = none) :
    pass.runFrom threshold limit offset store met log =
      { events := met, log, search := { offset := none, store }, fault := none } := by
  rw [runFrom, if_neg wanted]
  split
  · rfl
  · next found =>
      rw [absent] at found
      contradiction

theorem runFrom_faulted (found : pass.signature.findFrom pass.stream offset = some place)
    {fault : Fault} (failed : pass.examine store place = .error fault) :
    pass.runFrom threshold limit offset store met log =
      { events := met, log, search := { offset := none, store }, fault := some fault } := by
  rw [runFrom, if_neg wanted]
  split
  · next absent =>
      rw [absent] at found
      contradiction
  · next other foundAgain =>
      cases found.symm.trans foundAgain
      rw [failed]

theorem runFrom_step (found : pass.signature.findFrom pass.stream offset = some place)
    (examined : pass.examine store place = .ok event) :
    pass.runFrom threshold limit offset store met log =
      pass.runFrom threshold (event.countdown limit) (place + event.stride pass.signature)
        (event.commit store) (met.push event) (log ++ event.log threshold) := by
  rw [runFrom, if_neg wanted]
  split
  · next absent =>
      rw [absent] at found
      contradiction
  · next other foundAgain =>
      cases found.symm.trans foundAgain
      rw [examined]

end RunFrom

theorem runFrom_course (faultless : pass.Faultless) (threshold : Log.Level) {limit : Option Nat}
    (unlimited : limit = none) (offset : Nat) (store : Store) (collected : Array Event)
    (log : Array Log.Entry) :
    let run := pass.runFrom threshold limit offset store collected log
    run.fault = none ∧ run.search.offset = none ∧
      ∃ events, pass.Course offset store events run.search.store ∧
        run.events.toList = collected.toList ++ events ∧
        run.log.toList = log.toList ++ events.flatMap (Event.log threshold) := by
  fun_induction pass.runFrom threshold limit offset store collected log with
  | case1 => contradiction
  | case2 limit offset store collected log wanted absent =>
      exact ⟨rfl, rfl, [], .done absent, by simp, by simp⟩
  | case3 limit offset store collected log wanted place found fault failed =>
      obtain ⟨event, examined⟩ := faultless store place (Signature.findFrom_eq_some found).1
      rw [examined] at failed
      contradiction
  | case4 limit offset store collected log wanted place found event examined ih =>
      obtain ⟨fault, stopped, events, course, eventsEq, logEq⟩ :=
        ih (by subst unlimited; cases event <;> rfl)
      refine ⟨fault, stopped, event :: events, .step found examined course, ?_, ?_⟩
      · simpa using eventsEq
      · simpa using logEq

theorem run_course (faultless : pass.Faultless) (threshold : Log.Level) (store : Store) :
    let run := pass.run threshold none (pass.begin store)
    run.fault = none ∧ run.search.offset = none ∧
      pass.Course pass.start.toNat store run.events.toList run.search.store ∧
      run.log.toList = run.events.toList.flatMap (Event.log threshold) := by
  obtain ⟨fault, stopped, events, course, eventsEq, logEq⟩ :=
    runFrom_course faultless threshold rfl pass.start.toNat store #[] #[]
  have listed : (pass.run threshold none (pass.begin store)).events.toList = events :=
    eventsEq.trans (List.nil_append _)
  refine ⟨fault, stopped, ?_, ?_⟩
  · rw [listed]
    exact course
  · rw [listed]
    exact logEq.trans (List.nil_append _)

/-- A run takes the one course that there is. -/
theorem Course.runFrom_eq (course : pass.Course offset store events last) (threshold : Log.Level)
    (met : Array Event) (log : Array Log.Entry) :
    pass.runFrom threshold none offset store met log =
      { events := met ++ events.toArray
        log := log ++ (events.flatMap (Event.log threshold)).toArray
        search := { offset := none, store := last }
        fault := none } := by
  induction course generalizing met log with
  | done absent =>
      rw [runFrom_absent (by simp) met log absent]
      simp
  | @step offset place store last event events found examined rest ih =>
      have unlimited : event.countdown none = none := by cases event <;> rfl
      have logged : log ++ event.log threshold ++ (events.flatMap (Event.log threshold)).toArray =
          log ++ ((event :: events).flatMap (Event.log threshold)).toArray :=
        Array.toList_inj.mp (by simp)
      rw [runFrom_step (by simp) met log found examined, unlimited, ih, logged]
      simp

theorem Course.run_eq (course : pass.Course pass.start.toNat store events last)
    (threshold : Log.Level) :
    pass.run threshold none (pass.begin store) =
      { events := events.toArray
        log := (events.flatMap (Event.log threshold)).toArray
        search := { offset := none, store := last }
        fault := none } := by
  have run := course.runFrom_eq threshold #[] #[]
  rwa [Array.empty_append, Array.empty_append] at run

theorem examine_eq_found {record : Record} :
    pass.examine store place = .ok (.found record) ↔
      pass.layout.candidate pass.stream pass.options.maxSize store place = .ok record := by
  unfold examine
  split <;> simp_all

theorem examine_eq_rejected {rejection : Rejection} :
    pass.examine store place = .ok (.rejected rejection) ↔
      pass.layout.candidate pass.stream pass.options.maxSize store place =
        .error (.refused rejection.error) ∧
      rejection.structureName = pass.layout.name ∧ rejection.signatureOffset = place := by
  obtain ⟨structureName, signatureOffset, error⟩ := rejection
  unfold examine
  split <;> grind

theorem Event.place_of_examine (examined : pass.examine store place = .ok event) :
    event.place = place := by
  cases event with
  | found record => exact (Layout.candidate_head (examine_eq_found.mp examined)).2
  | rejected rejection => exact (examine_eq_rejected.mp examined).2.2

/-- A pass changes the store under the name of its own structure alone, and leaves its last record
there. -/
theorem Course.latestOf (course : pass.Course offset store events last) (name : String) :
    last.latestOf name =
      if name = pass.layout.name then
        (events.filterMap Event.record?).getLast?.or (store.latestOf name)
      else store.latestOf name := by
  induction course with
  | done absent => simp
  | @step offset place store last event events found examined rest ih =>
      rw [ih]
      cases event with
      | rejected rejection => rfl
      | found record =>
          have named := (Layout.candidate_head (examine_eq_found.mp examined)).1
          simp only [Event.commit, Store.latestOf_commit, named, List.filterMap_cons,
            Event.record?, List.getLast?_cons]
          split
          · cases (events.filterMap Event.record?).getLast? <;> rfl
          · rfl

/-- Every event was examined at an occurrence, with a store that differs from the first one under
the name of the structure alone. -/
theorem Course.examined (course : pass.Course offset store events last) :
    ∀ event ∈ events, ∃ place reached, pass.signature.bytes.OccursAt pass.stream place ∧
      pass.examine reached place = .ok event ∧
      ∀ name, name ≠ pass.layout.name → reached.latestOf name = store.latestOf name := by
  induction course with
  | done absent => simp
  | @step offset place store last event events found examined rest ih =>
      intro other member
      rcases List.mem_cons.mp member with rfl | later
      · exact ⟨place, store, (Signature.findFrom_eq_some found).1, examined, fun _ _ => rfl⟩
      · obtain ⟨place, reached, occurs, examinedLater, same⟩ := ih other later
        refine ⟨place, reached, occurs, examinedLater, fun name foreign => ?_⟩
        rw [same name foreign]
        cases event with
        | rejected rejection => rfl
        | found record =>
            rw [Event.commit, Store.latestOf_commit,
              (Layout.candidate_head (examine_eq_found.mp examined)).1, if_neg foreign]

/-- The pass with another signal, or with none; it is not looked at. -/
def watching (pass : Pass) (signal : Option Signal) : Pass :=
  { pass with options := { pass.options with signal } }

theorem Course.watching (course : pass.Course offset store events last)
    (signal : Option Signal) : (pass.watching signal).Course offset store events last := by
  induction course with
  | done absent => exact .done absent
  | step found examined rest ih => exact .step found examined ih

section OfLayout

variable {layout : Layout} {earlier : List Layout} {stream : Bytes} {options : Options}

theorem ofLayout_eq_ok (made : ofLayout layout stream options = .ok pass) :
    pass.layout = layout ∧ pass.signature.bytes = layout.signature ∧ pass.stream = stream ∧
      pass.options = options := by
  unfold ofLayout at made
  split at made
  · contradiction
  · next signature compiled =>
      cases made
      exact ⟨rfl, Signature.bytes_ofBytes compiled, rfl, rfl⟩

theorem ofLayout_watching (made : ofLayout layout stream options = .ok pass)
    (signal : Option Signal) :
    ofLayout layout stream { options with signal } = .ok (pass.watching signal) := by
  unfold ofLayout at made ⊢
  split at made
  · contradiction
  · cases made
    rfl

theorem ofLayout_exists (stream : Bytes) (options : Options)
    (wellFormed : layout.WellFormed earlier) :
    ∃ pass, ofLayout layout stream options = .ok pass := by
  obtain ⟨signature, made⟩ := Signature.ofBytes_exists wellFormed.signature.1
  exact ⟨{ layout, signature, stream, options }, by simp only [ofLayout, made]⟩

theorem ofLayout_faultless (wellFormed : layout.WellFormed earlier) (small : stream.size < 2 ^ 53)
    (made : ofLayout layout stream options = .ok pass) : pass.Faultless := by
  obtain ⟨rfl, signature, rfl, rfl⟩ := ofLayout_eq_ok made
  intro store place occurs
  rw [signature] at occurs
  have room := occurs.inside wellFormed.signature.1
  rw [examine, Layout.candidate_eq small wellFormed.admissible room]
  split
  · exact ⟨_, rfl⟩
  · exact ⟨_, rfl⟩
  · next fault failed => split at failed <;> cases failed

end OfLayout

end Course

section Determined

variable {pass : Pass} {offset place : Nat} {store other reached last otherLast : Store}
  {event : Event} {events others : List Event}

theorem examine_congr (same : pass.layout.SameSources store other) (place : Nat) :
    pass.examine store place = pass.examine other place := by
  rw [examine, examine, same.candidate]

theorem Event.commit_sources (examined : pass.examine reached place = .ok event)
    (same : pass.layout.SameSources store other) :
    pass.layout.SameSources (event.commit store) other := by
  cases event with
  | rejected rejection => exact same
  | found record => exact same.commit (Layout.candidate_head (examine_eq_found.mp examined)).1

theorem Course.determined (course : pass.Course offset store events last)
    (again : pass.Course offset other others otherLast)
    (same : pass.layout.SameSources store other) : events = others := by
  induction course generalizing other others with
  | done absent =>
      cases again with
      | done _ => rfl
      | step found _ _ => simp [absent] at found
  | step found examined rest ih =>
      cases again with
      | done absent => simp [absent] at found
      | step foundAgain examinedAgain restAgain =>
          cases found.symm.trans foundAgain
          have alike := examined.symm.trans ((examine_congr same _).trans examinedAgain)
          cases alike
          have sameThere := Event.commit_sources examined same
          have sameBehind := Event.commit_sources examined sameThere.symm
          rw [ih restAgain sameBehind.symm]

end Determined

end Carve.Pass
