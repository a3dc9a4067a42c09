import Carve.Proofs.Pass.Course
import Carve.Proofs.Plan.Compiled

/-!
A pass that is left after some records, and taken up again.

It has met exactly the events up to the last of these records, and its store holds these records and
no others; what is ahead of it is the rest of the course (`Pass.Ahead.run_stops`).  So each record
is in the store when it is given out (`Pass.run_commits_in_step`).
-/

namespace Carve.Pass

namespace Event

def records (events : List Event) : List Record := events.filterMap record?

@[simp] theorem records_found (record : Record) (events : List Event) :
    records (.found record :: events) = record :: records events := rfl

@[simp] theorem records_rejected (rejection : Rejection) (events : List Event) :
    records (.rejected rejection :: events) = records events := rfl

/-- How many records are still wanted behind an event, if in front of it one more than `others` is.
-/
def wanted (others : Nat) : Event → Nat
  | .found _ => others
  | .rejected _ => others + 1

theorem countdown_some (others : Nat) (event : Event) :
    event.countdown (some (others + 1)) = some (event.wanted others) := by
  cases event <;> rfl

/-- The events up to the record with a number, all of them if there are fewer records. -/
def upTo : Nat → List Event → List Event
  | 0, _ => []
  | _ + 1, [] => []
  | others + 1, event :: rest => event :: upTo (event.wanted others) rest

/-- The events behind the record with a number. -/
def behind : Nat → List Event → List Event
  | 0, events => events
  | _ + 1, [] => []
  | others + 1, event :: rest => behind (event.wanted others) rest

@[simp] theorem upTo_zero (events : List Event) : upTo 0 events = [] := by rw [upTo]

@[simp] theorem behind_zero (events : List Event) : behind 0 events = events := by rw [behind]

variable (count more : Nat) (events : List Event)

theorem upTo_append_behind : upTo count events ++ behind count events = events := by
  fun_induction upTo count events with
  | case1 events => rw [behind_zero, List.nil_append]
  | case2 => rfl
  | case3 others event rest ih => rw [behind, List.cons_append, ih]

theorem upTo_isPrefix : upTo count events <+: events :=
  ⟨behind count events, upTo_append_behind count events⟩

theorem records_upTo : records (upTo count events) = (records events).take count := by
  fun_induction upTo count events with
  | case1 events => rw [List.take_zero]; rfl
  | case2 => rfl
  | case3 others event rest ih =>
      cases event with
      | found record => rw [records_found, records_found, List.take_succ_cons, ih, wanted]
      | rejected rejection => rw [records_rejected, records_rejected, ih, wanted]

theorem records_behind : records (behind count events) = (records events).drop count := by
  fun_induction behind count events with
  | case1 events => rfl
  | case2 => rfl
  | case3 others event rest ih =>
      cases event with
      | found record => rw [records_found, List.drop_succ_cons, ih, wanted]
      | rejected rejection => rw [records_rejected, ih, wanted]

theorem behind_behind : behind more (behind count events) = behind (count + more) events := by
  fun_induction behind count events with
  | case1 events => rw [Nat.zero_add]
  | case2 others =>
      rw [Nat.succ_add]
      cases more <;> rfl
  | case3 others event rest ih =>
      have total : event.wanted others + more = event.wanted (others + more) := by
        cases event with
        | found record => rfl
        | rejected rejection => exact Nat.succ_add others more
      rw [Nat.succ_add, behind, ih, total]

theorem upTo_eq_self {count : Nat} {events : List Event} (few : (records events).length < count) :
    upTo count events = events := by
  fun_induction upTo count events with
  | case1 events => contradiction
  | case2 => rfl
  | case3 others event rest ih =>
      cases event with
      | found record => rw [ih (Nat.lt_of_succ_lt_succ few)]
      | rejected rejection => rw [ih few]

/-- What stops at a record stops right behind it. -/
theorem upTo_eq_concat {count : Nat} {events : List Event} {record : Record}
    (there : (records events)[count]? = some record) :
    ∃ front, upTo (count + 1) events = front ++ [.found record] := by
  induction events generalizing count with
  | nil => contradiction
  | cons event rest ih =>
      cases event with
      | rejected rejection =>
          obtain ⟨front, split⟩ := ih there
          exact ⟨.rejected rejection :: front, by rw [upTo, wanted, split, List.cons_append]⟩
      | found first =>
          cases count with
          | zero =>
              cases there
              exact ⟨[], by rw [upTo, wanted, upTo_zero, List.nil_append]⟩
          | succ count =>
              obtain ⟨front, split⟩ := ih there
              exact ⟨.found first :: front, by rw [upTo, wanted, split, List.cons_append]⟩

theorem found_of_getLast?_upTo {count : Nat} {events : List Event}
    (enough : count ≤ (records events).length) {event : Event}
    (last : (upTo count events).getLast? = some event) : ∃ record, event = .found record := by
  cases count with
  | zero => simp at last
  | succ count =>
      obtain ⟨front, split⟩ := upTo_eq_concat (List.getElem?_eq_getElem enough)
      rw [split, List.getLast?_concat] at last
      cases last
      exact ⟨_, rfl⟩

end Event

variable {pass : Pass} {offset place : Nat} {store last : Store} {event : Event}
  {events : List Event} {search : Search}

/-- What is ahead of a search: the events that it would meet, and the store behind them. -/
inductive Ahead (pass : Pass) : Search → List Event → Store → Prop
  | on {offset : Nat} {store last : Store} {events : List Event}
      (course : pass.Course offset store events last) :
      Ahead pass { offset := some offset, store } events last
  | ended {store : Store} : Ahead pass { offset := none, store } [] store

/-- A run that goes on with the events `ahead`, from `store`, has stopped behind a number of their
records; `met` and `log` are from before. -/
structure Stops (pass : Pass) (threshold : Log.Level) (count : Nat) (store : Store)
    (ahead : List Event) (last : Store) (met : Array Event) (log : Array Log.Entry) (run : Run) :
    Prop where
  fault : run.fault = none
  events : run.events.toList = met.toList ++ Event.upTo count ahead
  log : run.log.toList = log.toList ++ (Event.upTo count ahead).flatMap (Event.log threshold)
  store : run.search.store = store.commitAll (Event.records (Event.upTo count ahead))
  ahead : pass.Ahead run.search (Event.behind count ahead) last

theorem Course.stops (course : pass.Course offset store events last) (threshold : Log.Level)
    (count : Nat) (met : Array Event) (log : Array Log.Entry) :
    pass.Stops threshold count store events last met log
      (pass.runFrom threshold (some count) offset store met log) := by
  induction course generalizing count met log with
  | @done offset store absent =>
      cases count with
      | zero =>
          rw [runFrom, if_pos rfl]
          exact ⟨rfl, by simp, by simp, by simp [Event.records], by simpa using .on (.done absent)⟩
      | succ others =>
          rw [runFrom_absent (by simp) met log absent]
          exact ⟨rfl, by simp [Event.upTo], by simp [Event.upTo], rfl, .ended⟩
  | @step offset place store last event events found examined rest ih =>
      cases count with
      | zero =>
          rw [runFrom, if_pos rfl]
          exact ⟨rfl, by simp, by simp, by simp [Event.records],
            by simpa using .on (.step found examined rest)⟩
      | succ others =>
          rw [runFrom_step (by simp) met log found examined, Event.countdown_some]
          obtain ⟨fault, met, logged, committed, ahead⟩ := ih (event.wanted others) _ _
          refine ⟨fault, ?_, ?_, ?_, ahead⟩
          · simpa [Event.upTo] using met
          · simpa [Event.upTo] using logged
          · rw [committed]
            cases event <;> rfl

/-- A run that is to stop behind a number of records does so, wherever the pass stands. -/
theorem Ahead.run_stops (ahead : pass.Ahead search events last) (threshold : Log.Level)
    (count : Nat) : pass.Stops threshold count search.store events last #[] #[]
      (pass.run threshold (some count) search) := by
  cases ahead with
  | on course => exact course.stops threshold count #[] #[]
  | ended =>
      cases count with
      | zero => exact ⟨rfl, rfl, rfl, rfl, .ended⟩
      | succ others => exact ⟨rfl, rfl, rfl, rfl, .ended⟩

namespace Stops

variable {run : Run} {threshold : Log.Level} {count : Nat}
  (stops : pass.Stops threshold count store events last #[] #[] run)
include stops

theorem met : run.events.toList = Event.upTo count events :=
  stops.events.trans (List.nil_append _)

theorem logged : run.log.toList = run.events.toList.flatMap (Event.log threshold) := by
  rw [stops.met]
  exact stops.log.trans (List.nil_append _)

theorem records : run.records = (Event.records events).take count := by
  rw [Run.records, stops.met]
  exact Event.records_upTo count events

theorem committed : run.search.store = store.commitAll ((Event.records events).take count) := by
  rw [stops.store, Event.records_upTo]

end Stops

/-- Where a pass stands after a number of requests for one more record each. -/
def requested (pass : Pass) (threshold : Log.Level) (store : Store) : Nat → Search
  | 0 => pass.begin store
  | count + 1 => (pass.run threshold (some 1) (pass.requested threshold store count)).search

/-- Requests come as far as a run that stops behind as many records. -/
theorem Course.requested (course : pass.Course pass.start.toNat store events last)
    (threshold : Log.Level) (count : Nat) :
    pass.Ahead (pass.requested threshold store count) (Event.behind count events) last ∧
      (pass.requested threshold store count).store =
        store.commitAll ((Event.records events).take count) := by
  induction count with
  | zero =>
      rw [Event.behind_zero]
      exact ⟨.on course, rfl⟩
  | succ count ih =>
      obtain ⟨ahead, committed⟩ := ih
      have stops := ahead.run_stops threshold 1
      refine ⟨?_, ?_⟩
      · rw [← Event.behind_behind]
        exact stops.ahead
      · rw [Pass.requested, stops.committed, committed, Event.records_behind,
          ← Store.commitAll_append, List.take_add]

/-- A run comes to each of its events with a store in which the records in front of it, and nothing
else, have been committed. -/
theorem Course.comes_to (course : pass.Course offset store events last)
    {before after : List Event} (split : events = before ++ event :: after) (threshold : Log.Level)
    (met : Array Event) (log : Array Log.Entry) :
    ∃ (reached place : Nat) (logged : Array Log.Entry),
      pass.runFrom threshold none offset store met log =
        pass.runFrom threshold none reached (store.commitAll (Event.records before))
          (met ++ before.toArray) logged ∧
      pass.signature.findFrom pass.stream reached = some place ∧ event.place = place ∧
      pass.examine (store.commitAll (Event.records before)) place = .ok event := by
  induction course generalizing before met log with
  | done absent => simp at split
  | @step offset place store last first events found examined rest ih =>
      cases before with
      | nil =>
          cases split
          exact ⟨offset, place, log, by simp [Event.records], found,
            Event.place_of_examine examined, examined⟩
      | cons head before =>
          cases split
          have endlessly : (none : Option Nat) ≠ some 0 := nofun
          have step := @runFrom_step pass offset place store first threshold none endlessly met log
            found examined
          have endless : first.countdown none = none := by cases first <;> rfl
          have committed : (first.commit store).commitAll (Event.records before) =
              store.commitAll (Event.records (first :: before)) := by cases first <;> rfl
          obtain ⟨reached, later, logged, continued, foundLater, same, examinedLater⟩ :=
            ih rfl (met.push first) (log ++ first.log threshold)
          rw [committed] at continued examinedLater
          refine ⟨reached, later, logged, ?_, foundLater, same, examinedLater⟩
          rw [step, endless, continued]
          simp

/-- The records of a course bear the name of the structure. -/
theorem Course.record_named (course : pass.Course offset store events last) {record : Record}
    (member : record ∈ Event.records events) : record.structureName = pass.layout.name := by
  obtain ⟨event, present, same⟩ := List.mem_filterMap.mp member
  cases event with
  | rejected rejection => contradiction
  | found found =>
      cases same
      obtain ⟨place, reached, _, examined, _⟩ := course.examined _ present
      exact (Layout.candidate_head (examine_eq_found.mp examined)).1

theorem Course.takes (course : pass.Course offset store events last) {records : List Record}
    (among : ∀ record ∈ records, record ∈ Event.records events) :
    store.Takes pass.layout.name records (store.commitAll records) :=
  store.takes_commitAll fun record member => course.record_named (among record member)

/-- Behind a number of requests the store has taken in as many records. -/
theorem Course.requested_takes (course : pass.Course pass.start.toNat store events last)
    (threshold : Log.Level) (count : Nat) :
    store.Takes pass.layout.name ((Event.records events).take count)
      (pass.requested threshold store count).store := by
  rw [(course.requested threshold count).2]
  exact course.takes fun record => List.mem_of_mem_take

/-- The next request gives the next record, which is then the last one that the store has taken in.
-/
theorem Course.requested_record (course : pass.Course pass.start.toNat store events last)
    (threshold : Log.Level) {count : Nat} {record : Record}
    (there : (Event.records events)[count]? = some record) :
    let reached := (pass.requested threshold store (count + 1)).store
    reached.latestOf pass.layout.name = some record ∧
      reached.versionOf pass.layout.name = store.versionOf pass.layout.name + (count + 1) := by
  obtain ⟨latest, version, _⟩ := course.requested_takes threshold (count + 1)
  constructor
  · rwa [List.take_add_one, there, Option.toList_some, List.getLast?_concat] at latest
  · rwa [List.length_take_of_le (List.getElem?_eq_some_iff.mp there).1] at version

/-- When a pass gives a record out, the store has just taken it in.  A rejected candidate leaves no
trace there, nor does anything under the name of another structure.  A pass that is left after some
records has met what the whole run meets up to the last of them. -/
theorem run_commits_in_step {document : Document} {streamLength : Option Int} {plan : Plan}
    (compiled : Plan.ofDocument document streamLength = .ok plan) {layout : Layout}
    (declared : layout ∈ plan.layouts) {stream : Bytes} (small : stream.size < 2 ^ 53)
    (options : Options) (threshold : Log.Level) (store : Store) :
    ∃ pass, ofLayout layout stream options = .ok pass ∧
      let run := pass.run threshold none (pass.begin store)
      run.fault = none ∧
      (∀ count,
        let request := pass.run threshold (some 1) (pass.requested threshold store count)
        request.fault = none ∧ request.records = run.records[count]?.toList ∧
        store.Takes layout.name (run.records.take (count + 1)) request.search.store ∧
        ∀ record, run.records[count]? = some record →
          request.search.store.latestOf layout.name = some record ∧
          request.search.store.versionOf layout.name =
            store.versionOf layout.name + (count + 1)) ∧
      (∀ (before : List Event) (event : Event) (after : List Event),
        run.events.toList = before ++ event :: after →
        ∃ (offset place : Nat) (reached : Store) (log : Array Log.Entry),
          run = pass.runFrom threshold none offset reached before.toArray log ∧
          pass.signature.findFrom stream offset = some place ∧ event.place = place ∧
          pass.examine reached place = .ok event ∧
          store.Takes layout.name (Event.records before) reached) ∧
      ∀ count,
        let stopped := pass.run threshold (some count) (pass.begin store)
        stopped.fault = none ∧ stopped.events.toList <+: run.events.toList ∧
        stopped.records = run.records.take count ∧
        stopped.log.toList = stopped.events.toList.flatMap (Event.log threshold) ∧
        (run.records.length < count → stopped.events = run.events) ∧
        (count ≤ run.records.length → ∀ event, stopped.events.toList.getLast? = some event →
          ∃ record, event = .found record) ∧
        store.Takes layout.name (run.records.take count) stopped.search.store := by
  obtain ⟨earlier, wellFormed⟩ := (Plan.wellFormed_ofDocument compiled).layout declared
  obtain ⟨pass, made⟩ := ofLayout_exists stream options wellFormed
  refine ⟨pass, made, ?_⟩
  obtain ⟨fault, _, course, _⟩ :=
    run_course (ofLayout_faultless wellFormed small made) threshold store
  obtain ⟨rfl, _, rfl, rfl⟩ := ofLayout_eq_ok made
  have begun : pass.run threshold none (pass.begin store) =
      pass.runFrom threshold none pass.start.toNat store #[] #[] := rfl
  generalize pass.run threshold none (pass.begin store) = run at fault course begun ⊢
  refine ⟨fault, fun count => ?_, fun before event after split => ?_, fun count => ?_⟩
  · have stops := (course.requested threshold count).1.run_stops threshold 1
    refine ⟨stops.fault, ?_, course.requested_takes threshold (count + 1),
      fun record there => course.requested_record threshold there⟩
    rw [stops.records, Event.records_behind, List.take_one, List.head?_drop]
    rfl
  · obtain ⟨offset, place, log, comes, found, same, examined⟩ :=
      course.comes_to split threshold #[] #[]
    refine ⟨offset, place, _, log, ?_, found, same, examined, course.takes fun record member => ?_⟩
    · rw [begun, comes, Array.empty_append]
    · rw [split, Event.records, List.filterMap_append]
      exact List.mem_append_left _ member
  · have ahead : pass.Ahead (pass.begin store) run.events.toList run.search.store := .on course
    have stops := ahead.run_stops threshold count
    refine ⟨stops.fault, ?_, stops.records, stops.logged, fun few => ?_,
      fun enough event last => ?_, ?_⟩
    · rw [stops.met]
      exact Event.upTo_isPrefix count run.events.toList
    · rw [← Array.toList_inj, stops.met]
      exact Event.upTo_eq_self few
    · rw [stops.met] at last
      exact Event.found_of_getLast?_upTo enough last
    · rw [stops.committed]
      exact course.takes fun record => List.mem_of_mem_take

/-- A block, another that the stream has no room for, and a third one. -/
theorem run_commits_in_step_sample :
    ∃ pass, ofLayout Plan.sampleBlock
        #[0x61, 0x61, 1, 0, 7, 0x61, 0x61, 200, 0, 0x61, 0x61, 0, 0] .default = .ok pass ∧
      let run := pass.run .debug none (pass.begin .empty)
      let second := pass.run .debug (some 1) (pass.requested .debug .empty 1)
      run.fault = none ∧ second.records = run.records[1]?.toList ∧
      (∀ record, run.records[1]? = some record →
        second.search.store.latestOf "block" = some record ∧
        second.search.store.versionOf "block" = 2) ∧
      (pass.run .debug (some 1) (pass.begin .empty)).records = run.records.take 1 := by
  obtain ⟨pass, made, fault, requests, _, stopped⟩ :=
    run_commits_in_step Plan.ofDocument_sampleDocument (by simp : Plan.sampleBlock ∈ _)
      (by decide : (#[0x61, 0x61, 1, 0, 7, 0x61, 0x61, 200, 0, 0x61, 0x61, 0, 0] : Bytes).size <
        2 ^ 53) .default .debug .empty
  obtain ⟨_, given, _, held⟩ := requests 1
  exact ⟨pass, made, fault, given, held, (stopped 1).2.2.1⟩

end Carve.Pass
