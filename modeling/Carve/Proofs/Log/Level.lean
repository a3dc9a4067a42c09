import Carve.Proofs.Pass.Course
import Carve.Query
import Mathlib.Data.List.Forall2

namespace Carve

namespace Log

/-- What a level lets through of a log. -/
def Level.restrict (level : Level) (log : List Entry) : List Entry :=
  log.filter fun entry => level.admits entry.level

@[simp] theorem Level.restrict_nil (level : Level) : level.restrict [] = [] := rfl

@[simp] theorem Level.restrict_append (level : Level) (front back : List Entry) :
    level.restrict (front ++ back) = level.restrict front ++ level.restrict back :=
  List.filter_append ..

theorem Level.restrict_debug (log : List Entry) : Level.restrict .debug log = log :=
  List.filter_eq_self.mpr fun _ _ => rfl

theorem written_level (level : Level) (entry : Entry) :
    written level entry = level.restrict (written .debug entry) := by
  have all : written .debug entry = [entry] := rfl
  rw [all, written, Level.restrict, List.filter_cons, List.filter_nil]

/-- Two entries are the same but for the time that a piece of work has taken. -/
inductive Entry.Alike : Entry → Entry → Prop
  | same (entry : Entry) : Alike entry entry
  | timed (label : String) (elapsed other : Elapsed) (data : Table Datum) :
      Alike (.timed label elapsed data) (.timed label other data)

instance : Std.Refl Entry.Alike := ⟨fun entry => .same entry⟩

theorem Entry.level_timed (label : String) (elapsed : Elapsed) (data : Table Datum) :
    (Entry.timed label elapsed data).level = .debug := rfl

theorem Entry.Alike.level_eq {entry other : Entry} (alike : entry.Alike other) :
    entry.level = other.level := by
  cases alike with
  | same => rfl
  | timed label elapsed other data => rw [level_timed, level_timed]

theorem Entry.Alike.restrict (level : Level) {quiet full : List Entry}
    (alike : List.Forall₂ Entry.Alike quiet full) :
    List.Forall₂ Entry.Alike (level.restrict quiet) (level.restrict full) :=
  List.rel_filter (fun _ _ same => by simp only [Alike.level_eq same]) alike

/-- What the subscribers are handed, and in which order, when entries are logged. -/
def Logger.delivered (logger : Logger) (entries : List Entry) : List (String × Entry) :=
  entries.flatMap fun entry => (logger.log entry).received

theorem Logger.delivered_eq (logger : Logger) (entries : List Entry) :
    logger.delivered entries = (logger.level.restrict entries).flatMap fun entry =>
      logger.subscribers.map fun subscriber => (subscriber.id, entry) := by
  induction entries with
  | nil => rfl
  | cons entry rest ih =>
      rw [delivered, List.flatMap_cons, ← delivered, ih, Level.restrict, Level.restrict,
        List.filter_cons]
      cases admitted : logger.level.admits entry.level <;> simp [log, admitted]

/-- Alike entries handed to the same subscriber. -/
def Handed (one other : String × Entry) : Prop := one.1 = other.1 ∧ one.2.Alike other.2

theorem Logger.delivered_alike (logger : Logger) {entries others : List Entry}
    (alike : List.Forall₂ Entry.Alike entries others) :
    List.Forall₂ Handed (logger.delivered entries) (logger.delivered others) := by
  rw [delivered_eq, delivered_eq]
  refine List.rel_flatMap (Entry.Alike.restrict logger.level alike) fun entry other same => ?_
  rw [List.forall₂_map_left_iff, List.forall₂_map_right_iff]
  exact List.forall₂_same.mpr fun subscriber _ => ⟨rfl, same⟩

/-- A log at a level hands out what one at the lowest would, less what is below the level. -/
theorem Logger.delivered_restrict (logger : Logger) (level : Level) (entries : List Entry) :
    (logger.setLevel level).delivered (level.restrict entries) =
      ((logger.setLevel .debug).delivered entries).filter
        fun handed => level.admits handed.2.level := by
  rw [delivered_eq, delivered_eq, setLevel, setLevel, Level.restrict_debug, List.filter_flatMap]
  induction entries with
  | nil => rfl
  | cons entry rest ih =>
      cases admitted : level.admits entry.level <;>
        simp_all [Level.restrict, List.filter_map, Function.comp_def]

end Log

open Log

/-- An operation at a level against the same one at the lowest level. -/
structure Logged.AtLevel {α : Type} (level : Level) (quiet full : Logged α) : Prop where
  outcome : quiet.outcome = full.outcome
  log : List.Forall₂ Entry.Alike quiet.log (level.restrict full.log)

namespace Pass

/-- A run at a level against the same one at the lowest level. -/
structure Run.AtLevel (level : Level) (quiet full : Run) : Prop where
  events : quiet.events = full.events
  search : quiet.search = full.search
  fault : quiet.fault = full.fault
  log : quiet.log.toList = level.restrict full.log.toList

theorem opening_level (pass : Pass) (level : Level) :
    pass.opening level = level.restrict (pass.opening .debug) := by
  rw [opening, opening]
  cases Hint.clamped? pass.layout.hint pass.stream.size with
  | none => rfl
  | some clamped => exact written_level level _

theorem Event.log_level (level : Level) (event : Event) :
    event.log level = level.restrict (event.log .debug) := by
  cases event with
  | found record => rfl
  | rejected rejection => exact written_level level rejection.entry

theorem runFrom_level (pass : Pass) (level : Level) (limit : Option Nat) (offset : Nat)
    (store : Store) (events : Array Event) {log full : Array Log.Entry}
    (begun : log.toList = level.restrict full.toList) :
    (pass.runFrom level limit offset store events log).AtLevel level
      (pass.runFrom .debug limit offset store events full) := by
  fun_induction pass.runFrom level limit offset store events log generalizing full with
  | case1 offset store events log =>
      rw [runFrom, if_pos rfl]
      exact ⟨rfl, rfl, rfl, begun⟩
  | case2 limit offset store events log wanted absent =>
      rw [runFrom_absent wanted events full absent]
      exact ⟨rfl, rfl, rfl, begun⟩
  | case3 limit offset store events log wanted place found fault failed =>
      rw [runFrom_faulted wanted events full found failed]
      exact ⟨rfl, rfl, rfl, begun⟩
  | case4 limit offset store events log wanted place found event examined ih =>
      rw [runFrom_step wanted events full found examined]
      apply ih
      simp [begun, Event.log_level level event]

theorem run_level (pass : Pass) (level : Level) (limit : Option Nat) (search : Search) :
    (pass.run level limit search).AtLevel level (pass.run .debug limit search) := by
  rw [run, run]
  cases search.offset with
  | none => exact ⟨rfl, rfl, rfl, rfl⟩
  | some offset => exact pass.runFrom_level level limit offset search.store #[] rfl

end Pass

/-- Whether a scan is to stop does not depend on what is logged. -/
def Options.Settled (options : Options) : Prop :=
  ∀ log, options.stopsAfter log = options.stopsAfter []

section Scan

variable (level : Level) (elapsed other : Elapsed)

theorem Session.timing_level (label : String) (counts : List (String × Nat)) :
    List.Forall₂ Entry.Alike (timing ⟨level, elapsed⟩ label counts)
      (level.restrict (timing ⟨.debug, other⟩ label counts)) := by
  rw [timing, timing, ← written_level, written, written, Entry.level_timed, Entry.level_timed]
  cases level.admits .debug with
  | false => exact .nil
  | true => exact .cons (.timed ..) .nil

/-- A signal that no log entry raises is found alike by the two scans. -/
theorem Plan.scanLayouts_level {options : Options} (settled : options.Settled) (stream : Bytes)
    (layouts : List Layout) (store : Store) {log full : List Entry}
    (begun : log = level.restrict full) (scanned : List StructureScan) :
    (scanLayouts ⟨level, elapsed⟩ options stream layouts store log scanned).AtLevel level
      (scanLayouts ⟨.debug, other⟩ options stream layouts store full scanned) := by
  induction layouts generalizing store log full scanned with
  | nil =>
      refine ⟨by simp only [scanLayouts], ?_⟩
      rw [scanLayouts, scanLayouts, Level.restrict_append, ← begun]
      exact List.rel_append (List.forall₂_refl log)
        (Session.timing_level level elapsed other ..)
  | cons layout rest ih =>
      rw [scanLayouts, scanLayouts, settled log, settled full]
      cases options.stopsAfter [] with
      | true => exact ⟨rfl, begun ▸ List.forall₂_refl _⟩
      | false =>
          cases Pass.ofLayout layout stream options with
          | error fault => exact ⟨rfl, begun ▸ List.forall₂_refl _⟩
          | ok pass =>
              have run := pass.run_level level none (pass.begin store)
              have passed : log ++ pass.opening level ++
                    (pass.run level none (pass.begin store)).log.toList =
                  level.restrict (full ++ pass.opening .debug ++
                    (pass.run .debug none (pass.begin store)).log.toList) := by
                rw [Level.restrict_append, Level.restrict_append, ← begun,
                  ← pass.opening_level level, ← run.log]
              simp only [run.fault, run.search, Pass.Run.records, Pass.Run.rejected, run.events]
              cases (pass.run .debug none (pass.begin store)).fault with
              | some fault => exact ⟨rfl, passed ▸ List.forall₂_refl _⟩
              | none =>
                  refine ih _ ?_ _
                  rw [passed, written_level level, ← Level.restrict_append]

theorem Query.scan_level {explicit : Option Options.Given} {environment : List (String × String)}
    (settled : ∀ options, Options.resolve explicit environment = .ok options → options.Settled)
    (query : Query) (stream : Bytes) :
    (query.scan ⟨level, elapsed⟩ environment stream explicit).AtLevel level
      (query.scan ⟨.debug, other⟩ environment stream explicit) := by
  rw [scan, scan]
  cases resolved : Options.resolve explicit environment with
  | error error => exact ⟨rfl, .nil⟩
  | ok options =>
      have scanned := Plan.scanLayouts_level level elapsed other (settled options resolved) stream
        query.plan.layouts .empty (Level.restrict_nil level).symm []
      exact ⟨congrArg (Except.mapError QueryError.scan) scanned.outcome, scanned.log⟩

theorem Plan.build_level (document : Document) (streamLength : Option Int) :
    (build ⟨level, elapsed⟩ document streamLength).AtLevel level
      (build ⟨.debug, other⟩ document streamLength) := by
  rw [build, build]
  cases ofDocument document streamLength with
  | error failure => exact ⟨rfl, .nil⟩
  | ok plan => exact ⟨by simp only, Session.timing_level level elapsed other ..⟩

theorem Query.ofTree_level (tree : Option Tree) (streamLength : Option Int) :
    (ofTree ⟨level, elapsed⟩ tree streamLength).AtLevel level
      (ofTree ⟨.debug, other⟩ tree streamLength) := by
  rw [ofTree, ofTree]
  cases Document.ofTree tree with
  | error issues => exact ⟨rfl, .nil⟩
  | ok document =>
      have built := Plan.build_level level elapsed other document streamLength
      exact ⟨by simp only [built.outcome], built.log⟩

end Scan

section Answer

variable {α β ε ε' : Type}

/-- Two operations in order, the second on what the first gives. -/
def Logged.andThen (first : Logged (Except ε α)) (next : α → Logged (Except ε' β)) :
    Logged (Except (ε ⊕ ε') β) :=
  match first.outcome with
  | .error error => { log := first.log, outcome := .error (.inl error) }
  | .ok value =>
      { log := first.log ++ (next value).log
        outcome := (next value).outcome.mapError .inr }

theorem Logged.AtLevel.andThen {level : Level} {quiet full : Logged (Except ε α)}
    {nextQuiet nextFull : α → Logged (Except ε' β)} (first : quiet.AtLevel level full)
    (next : ∀ value, (nextQuiet value).AtLevel level (nextFull value)) :
    (quiet.andThen nextQuiet).AtLevel level (full.andThen nextFull) := by
  rw [Logged.andThen, Logged.andThen, first.outcome]
  cases full.outcome with
  | error error => exact ⟨rfl, first.log⟩
  | ok value =>
      refine ⟨congrArg (Except.mapError Sum.inr) (next value).outcome, ?_⟩
      rw [Level.restrict_append]
      exact List.rel_append first.log (next value).log

/-- The subscribers of a log are handed at a level what they are handed at the lowest, less what is
below the level. -/
def Logged.Heard (level : Level) (quiet full : Logged α) : Prop :=
  ∀ logger : Logger, List.Forall₂ Handed ((logger.setLevel level).delivered quiet.log)
    (((logger.setLevel .debug).delivered full.log).filter
      fun handed => level.admits handed.2.level)

theorem Logged.AtLevel.heard {level : Level} {quiet full : Logged α}
    (alike : quiet.AtLevel level full) : quiet.Heard level full := by
  intro logger
  rw [← logger.delivered_restrict]
  exact Logger.delivered_alike _ alike.log

/-- How long planning and scanning take. -/
structure Pace where
  planning : Elapsed
  scanning : Elapsed

/-- Planning a document and scanning a stream with the plan. -/
def Plan.answer (level : Level) (pace : Pace) (document : Document) (streamLength : Option Int)
    (environment : List (String × String)) (stream : Bytes) (explicit : Option Options.Given) :
    Logged (Except (PlanFailure ⊕ QueryError) (List StructureScan)) :=
  (build ⟨level, pace.planning⟩ document streamLength).andThen fun plan =>
    ({ plan } : Query).scan ⟨level, pace.scanning⟩ environment stream explicit

/-- Loading a tree and scanning a stream with the query. -/
def Query.answer (level : Level) (pace : Pace) (tree : Option Tree) (streamLength : Option Int)
    (environment : List (String × String)) (stream : Bytes) (explicit : Option Options.Given) :
    Logged (Except (LoadError ⊕ QueryError) (List StructureScan)) :=
  (ofTree ⟨level, pace.planning⟩ tree streamLength).andThen fun query =>
    query.scan ⟨level, pace.scanning⟩ environment stream explicit

/-- The level of the log decides nothing but which entries are let through, as long as the signal
does not depend on them: the outcome is the one at the lowest level, and what is logged and handed
to the subscribers is what is at that level, less the entries below. -/
theorem Query.log_follows_level {explicit : Option Options.Given}
    {environment : List (String × String)}
    (settled : ∀ options, Options.resolve explicit environment = .ok options → options.Settled)
    (level : Level) (pace other : Pace) (streamLength : Option Int) (stream : Bytes) :
    (∀ document,
      let quiet := Plan.answer level pace document streamLength environment stream explicit
      let full := Plan.answer .debug other document streamLength environment stream explicit
      quiet.AtLevel level full ∧ quiet.Heard level full) ∧
    ∀ tree,
      let quiet := answer level pace tree streamLength environment stream explicit
      let full := answer .debug other tree streamLength environment stream explicit
      quiet.AtLevel level full ∧ quiet.Heard level full := by
  refine ⟨fun document => ?_, fun tree => ?_⟩
  · have built := Plan.build_level level pace.planning other.planning document streamLength
    have alike := built.andThen fun plan =>
      scan_level level pace.scanning other.scanning settled { plan } stream
    exact ⟨alike, alike.heard⟩
  · have loaded := ofTree_level level pace.planning other.planning tree streamLength
    have alike := loaded.andThen fun query =>
      scan_level level pace.scanning other.scanning settled query stream
    exact ⟨alike, alike.heard⟩

/-- A structure that is looked for behind an offset. -/
def sampleSkipping : Document where
  byteOrder := none
  constants := none
  structures :=
    [{ name := "mark", signature := .literal "0x61", byteOrder := none
       hint := some (.skip "0x9"), fields := [] }]

def sampleSkippingLayout : Layout where
  name := "mark"
  signature := #[0x61]
  byteOrder := .little
  hint := some (.skip 9)
  fields := []

/-- In a stream that ends in front of that offset nothing is looked for. -/
theorem Plan.answer_sampleSkipping (planning scanning : Elapsed) :
    (answer .warn ⟨planning, scanning⟩ sampleSkipping none [] #[0x61, 0x62] none).log =
      [.skipClamped { offset := 9, length := 2 }] := by
  let pass : Pass := ⟨sampleSkippingLayout, ⟨0x61, []⟩, #[0x61, 0x62], .default⟩
  have absent : pass.signature.findFrom pass.stream 2 = none := by
    rw [Signature.findFrom, Signature.findLead]
    rfl
  have run : pass.run .warn none (pass.begin .empty) = ⟨#[], #[], ⟨none, .empty⟩, none⟩ :=
    Pass.runFrom_absent (by simp) #[] #[] absent
  have planned : ofDocument sampleSkipping none = .ok ⟨.little, [sampleSkippingLayout]⟩ := rfl
  have resolved : Options.resolve none [] = .ok .default := rfl
  have made : Pass.ofLayout sampleSkippingLayout #[0x61, 0x62] .default = .ok pass := rfl
  have unstopped (log : List Entry) : Options.default.stopsAfter log = false := rfl
  simp only [answer, build, planned, Logged.andThen, Query.scan, resolved, scan, scanLayouts, made,
    run, unstopped]
  rfl

/-- Of all that is logged the warning that the hint is past the end gets through, and nothing once
the signal is raised. -/
theorem Query.log_follows_level_sample :
    let atOnce : Options.Given := .object [("signal", .signal .raised)]
    let heard (explicit : Option Options.Given) := Level.restrict .warn
      (Plan.answer .debug ⟨⟨5⟩, ⟨7⟩⟩ sampleSkipping none [] #[0x61, 0x62] explicit).log
    List.Forall₂ Entry.Alike [.skipClamped { offset := 9, length := 2 }] (heard none) ∧
      List.Forall₂ Entry.Alike [] (heard (some atOnce)) := by
  intro atOnce heard
  have settled (explicit : Option Options.Given) (given : explicit = none ∨ explicit = some atOnce)
      (options : Options) (resolved : Options.resolve explicit [] = .ok options) :
      options.Settled := by
    rcases given with rfl | rfl <;> cases resolved <;> exact fun _ => rfl
  have unraised := (log_follows_level (settled none (.inl rfl)) .warn ⟨⟨1⟩, ⟨2⟩⟩ ⟨⟨5⟩, ⟨7⟩⟩ none
    #[0x61, 0x62]).1 sampleSkipping
  have raised := (log_follows_level (settled (some atOnce) (.inr rfl)) .warn ⟨⟨1⟩, ⟨2⟩⟩ ⟨⟨5⟩, ⟨7⟩⟩
    none #[0x61, 0x62]).1 sampleSkipping
  exact ⟨Plan.answer_sampleSkipping .. ▸ unraised.1.log, raised.1.log⟩

end Answer

end Carve
