import Carve.Proofs.Binary64.Numeral
import Carve.Proofs.Document.Form
import Carve.Query

namespace Carve

theorem lookup_map {α β : Type} (change : α → β) (entries : List (String × α)) (key : String) :
    (entries.map fun entry => (entry.1, change entry.2)).lookup key =
      (entries.lookup key).map change := by
  induction entries with
  | nil => rfl
  | cons entry rest ih =>
      rw [List.map_cons, List.lookup_cons, List.lookup_cons, ih]
      split <;> rfl

/-- The number that a text is converted to: what it spells, rounded, or no number. -/
inductive Binary64.Converted (text : String) (number : Binary64) : Prop
  | spelled {numeral : Numeral} (spelled : numeral.Spelled text) (rounds : numeral.Rounds number)
  | nothing (unspelled : ∀ numeral, ¬ Numeral.Spelled text numeral) (none : number = .nan)

namespace Options

/-- A number among the options: its key there, its name in the environment, how great it may be, and
what it is if it is not given. -/
structure Setting where
  key : String
  name : String
  greatest : Option Nat
  default : Nat

namespace Setting

def nearMargin : Setting where
  key := "nearMargin"
  name := "STREAMQ_NEAR_MARGIN"
  greatest := none
  default := 256

def maxSize : Setting where
  key := "maxSize"
  name := "STREAMQ_MAX_SIZE"
  greatest := some (2 ^ 32 - 1)
  default := 2 ^ 32 - 1

def all : List Setting := [nearMargin, maxSize]

theorem forall_mem_all {Holds : Setting → Prop} :
    (∀ setting ∈ all, Holds setting) ↔ Holds nearMargin ∧ Holds maxSize := by
  simp [all]

/-- The number is whole, not negative and not too great. -/
def Fits (setting : Setting) (number : Binary64) (value : Nat) : Prop :=
  number.value? = some (value : ℚ) ∧ ∀ greatest ∈ setting.greatest, value ≤ greatest

def Takes (setting : Setting) (given : Given) (value : Nat) : Prop :=
  ∃ number, given = .tree (.number number) ∧ setting.Fits number value

/-- The value that counts: the explicit one, else that of the environment, else the default. -/
inductive InForce (setting : Setting) (members : List (String × Given))
    (environment : List (String × String)) : Nat → Prop
  | explicit {given : Given} {value : Nat} (present : members.lookup setting.key = some given)
      (takes : setting.Takes given value) : InForce setting members environment value
  | environment {text : String} {value : Nat} (absent : members.lookup setting.key = none)
      (set : environment.lookup setting.name = some text)
      (fits : setting.Fits (.ofText text) value) : InForce setting members environment value
  | default (absent : members.lookup setting.key = none)
      (unset : environment.lookup setting.name = none) :
      InForce setting members environment setting.default

end Setting

/-- What is wrong with explicit options. -/
inductive Misshapen (explicit : Given) : Prop
  | noObject (other : explicit.members? = none)
  | setting {members : List (String × Given)} {setting : Setting} {given : Given}
      (object : explicit.members? = some members) (known : setting ∈ Setting.all)
      (present : members.lookup setting.key = some given)
      (unfit : ∀ value, ¬ setting.Takes given value)
  | signal {members : List (String × Given)} {given : Given}
      (object : explicit.members? = some members) (present : members.lookup "signal" = some given)
      (other : ∀ signal, given ≠ .signal signal)

/-- An environment that sets an option to a text of no fitting number. -/
def Illegible (environment : List (String × String)) : Prop :=
  ∃ setting ∈ Setting.all, ∃ text, environment.lookup setting.name = some text ∧
    ∀ value, ¬ setting.Fits (.ofText text) value

section Check

variable {greatest : Option Nat} {number : Binary64} {given : Given} {whole value : Int}

theorem complaints_eq_nil (valued : number.value? = some (whole : ℚ)) :
    complaints greatest number = [] ↔ 0 ≤ whole ∧ ∀ bound ∈ greatest, whole ≤ bound := by
  have integer : number.toInt?.isNone = false := by
    rw [Binary64.toInt?_eq_some.mpr valued]
    rfl
  have sign : number.isNegative = true ↔ whole < 0 := by
    rw [Binary64.isNegative_iff valued]
    exact_mod_cast Iff.rfl
  cases greatest with
  | none => simp [complaints, integer, sign]
  | some bound =>
      have size : number.exceeds bound = true ↔ (bound : Int) < whole := by
        rw [Binary64.exceeds_iff valued]
        exact_mod_cast Iff.rfl
      simp [complaints, integer, sign, size]

theorem checkNumber_eq_valid : checkNumber greatest given = .valid value ↔
    ∃ number, ∃ size : Nat, given = .tree (.number number) ∧ number.value? = some (size : ℚ) ∧
      (∀ bound ∈ greatest, size ≤ bound) ∧ value = size := by
  constructor
  · intro passed
    unfold checkNumber at passed
    split at passed
    · contradiction
    · next number _ =>
        split at passed
        · next whole known quiet =>
            cases passed
            have valued := Binary64.toInt?_eq_some.mp known
            obtain ⟨nonnegative, bounded⟩ := (complaints_eq_nil valued).mp quiet
            obtain ⟨size, rfl⟩ := Int.eq_ofNat_of_zero_le nonnegative
            refine ⟨number, size, rfl, by exact_mod_cast valued, fun bound given => ?_, rfl⟩
            exact Int.ofNat_le.mp (bounded bound given)
        · contradiction
    · contradiction
  · intro fits
    obtain ⟨number, size, rfl, valued, bounded, rfl⟩ := fits
    have valuedInt : number.value? = some ((size : Int) : ℚ) := by exact_mod_cast valued
    have known := Binary64.toInt?_eq_some.mpr valuedInt
    have quiet : complaints greatest number = [] :=
      (complaints_eq_nil valuedInt).mpr
        ⟨Int.natCast_nonneg size, fun bound given => Int.ofNat_le.mpr (bounded bound given)⟩
    cases number with
    | nan => contradiction
    | finite _ _ _ | infinite _ => simp only [checkNumber, known, quiet]

theorem checkSignal_eq_valid {signal : Signal} :
    checkSignal given = .valid signal ↔ given = .signal signal := by
  cases given <;> simp [checkSignal, Checked.refuse]

end Check

namespace Setting

variable {setting : Setting} {members : List (String × Given)} {key : String}
  {environment : List (String × String)} {choice chosen fallback : Option Int}

/-- The check of the number under a key. -/
def check (setting : Setting) (members : List (String × Given)) (key : String) :
    Checked (Option Int) :=
  Tree.checkOptional members key (checkNumber setting.greatest)

theorem check_eq_valid : setting.check members key = .valid choice ↔
    members.lookup key = none ∧ choice = none ∨
      ∃ given, ∃ value : Nat, members.lookup key = some given ∧ setting.Takes given value ∧
        choice = some (value : Int) := by
  rw [check, Form.checkOptional_eq_valid]
  apply or_congr_right
  simp only [checkNumber_eq_valid, Takes, Fits]
  constructor
  · intro passed
    obtain ⟨given, _, found, ⟨number, size, rfl, valued, bounded, rfl⟩, rfl⟩ := passed
    exact ⟨_, size, found, ⟨number, rfl, valued, bounded⟩, rfl⟩
  · intro fits
    obtain ⟨given, size, found, ⟨number, rfl, valued, bounded⟩, rfl⟩ := fits
    exact ⟨_, _, found, ⟨number, size, rfl, valued, bounded, rfl⟩, rfl⟩

theorem check_exists_iff : (∃ choice, setting.check members key = .valid choice) ↔
    ∀ given, members.lookup key = some given → ∃ value, setting.Takes given value := by
  simp only [check_eq_valid]
  constructor
  · intro passed given found
    obtain ⟨choice, ⟨absent, _⟩ | ⟨other, value, known, takes, _⟩⟩ := passed
    · rw [absent] at found
      contradiction
    · cases known.symm.trans found
      exact ⟨value, takes⟩
  · intro fits
    cases found : members.lookup key with
    | none => exact ⟨none, .inl ⟨rfl, rfl⟩⟩
    | some given =>
        obtain ⟨value, takes⟩ := fits given found
        exact ⟨_, .inr ⟨given, value, rfl, takes, rfl⟩⟩

/-- The environment as members of an object. -/
def converted (environment : List (String × String)) : List (String × Given) :=
  environment.map fun entry => (entry.1, .tree (.number (.ofText entry.2)))

theorem lookup_converted (environment : List (String × String)) (name : String) :
    (converted environment).lookup name =
      (environment.lookup name).map fun text => .tree (.number (.ofText text)) :=
  lookup_map (fun text => Given.tree (.number (.ofText text))) environment name

theorem takes_number {number : Binary64} {value : Nat} :
    setting.Takes (.tree (.number number)) value ↔ setting.Fits number value := by
  simp [Takes]

/-- Of two choices that pass, the explicit one counts. -/
theorem choice_inForce (given : setting.check members setting.key = .valid chosen)
    (set : setting.check (converted environment) setting.name = .valid fallback) :
    ∃ value : Nat, (chosen.or fallback).getD setting.default = value ∧
      setting.InForce members environment value := by
  rcases check_eq_valid.mp given with ⟨absent, rfl⟩ | ⟨tree, value, found, takes, rfl⟩
  · rcases check_eq_valid.mp set with ⟨unset, rfl⟩ | ⟨tree, value, found, takes, rfl⟩
    · rw [lookup_converted, Option.map_eq_none_iff] at unset
      exact ⟨setting.default, rfl, .default absent unset⟩
    · rw [lookup_converted, Option.map_eq_some_iff] at found
      obtain ⟨text, found, rfl⟩ := found
      exact ⟨value, rfl, .environment absent found (takes_number.mp takes)⟩
  · exact ⟨value, rfl, .explicit found takes⟩

theorem InForce.le_greatest {value : Nat} (inForce : setting.InForce members environment value)
    (ordered : ∀ greatest ∈ setting.greatest, setting.default ≤ greatest) :
    ∀ greatest ∈ setting.greatest, value ≤ greatest := by
  cases inForce with
  | explicit given takes =>
      obtain ⟨_, _, _, bounded⟩ := takes
      exact bounded
  | environment absent set fits => exact fits.2
  | default absent unset => exact ordered

end Setting

section Sources

variable {members : List (String × Given)} {environment : List (String × String)} {explicit : Given}

theorem checkOptional_signal {signal : Option Signal} :
    Tree.checkOptional members "signal" checkSignal = .valid signal ↔
      members.lookup "signal" = signal.map .signal := by
  simp only [Form.checkOptional_eq_valid, checkSignal_eq_valid]
  constructor
  · rintro (⟨absent, rfl⟩ | ⟨_, found, present, rfl, rfl⟩)
    · exact absent
    · exact present
  · intro present
    cases signal with
    | none => exact .inl ⟨present, rfl⟩
    | some signal => exact .inr ⟨_, signal, present, rfl, rfl⟩

theorem signal_exists_iff :
    (∃ signal : Option Signal, members.lookup "signal" = signal.map .signal) ↔
      ∀ given, members.lookup "signal" = some given → ∃ signal, given = .signal signal := by
  constructor
  · intro watched given present
    obtain ⟨signal, there⟩ := watched
    obtain ⟨signal, rfl, rfl⟩ := Option.map_eq_some_iff.mp (there.symm.trans present)
    exact ⟨signal, rfl⟩
  · intro signals
    cases present : members.lookup "signal" with
    | none => exact ⟨none, rfl⟩
    | some given =>
        obtain ⟨signal, rfl⟩ := signals given present
        exact ⟨some signal, rfl⟩

theorem checkExplicit_eq_valid {chosen : Choice} {signal : Option Signal} :
    checkExplicit explicit = .valid (chosen, signal) ↔
      ∃ members, explicit.members? = some members ∧
        members.lookup "signal" = signal.map .signal ∧
        Setting.nearMargin.check members Setting.nearMargin.key = .valid chosen.nearMargin ∧
        Setting.maxSize.check members Setting.maxSize.key = .valid chosen.maxSize := by
  unfold checkExplicit
  cases explicit.members? with
  | none => simp [Checked.refuse]
  | some members =>
      simp only [Checked.map_seq, Checked.map_eq_valid, Checked.pair_eq_valid,
        checkOptional_signal, Option.some.injEq, exists_eq_left']
      constructor
      · intro passed
        obtain ⟨⟨⟨nearMargin, maxSize⟩, given⟩, ⟨⟨margin, size⟩, present⟩, same⟩ := passed
        cases same
        exact ⟨present, margin, size⟩
      · intro fits
        obtain ⟨present, margin, size⟩ := fits
        exact ⟨((chosen.nearMargin, chosen.maxSize), signal), ⟨⟨margin, size⟩, present⟩, rfl⟩

theorem checkEnvironment_eq_valid {fallback : Choice} :
    checkEnvironment environment = .valid fallback ↔
      Setting.nearMargin.check (Setting.converted environment) Setting.nearMargin.name =
          .valid fallback.nearMargin ∧
        Setting.maxSize.check (Setting.converted environment) Setting.maxSize.name =
          .valid fallback.maxSize := by
  simp only [checkEnvironment, Checked.map_seq, Checked.map_eq_valid, Checked.pair_eq_valid]
  constructor
  · intro passed
    obtain ⟨⟨nearMargin, maxSize⟩, ⟨margin, size⟩, rfl⟩ := passed
    exact ⟨margin, size⟩
  · intro fits
    exact ⟨(fallback.nearMargin, fallback.maxSize), fits, rfl⟩

theorem checkExplicit_exists_iff :
    (∃ chosen, checkExplicit explicit = .valid chosen) ↔ ¬ Misshapen explicit := by
  constructor
  · intro passed
    obtain ⟨⟨chosen, signal⟩, passed⟩ := passed
    obtain ⟨members, shape, watched, margin, size⟩ := checkExplicit_eq_valid.mp passed
    have each : ∀ setting ∈ Setting.all, ∃ choice,
        setting.check members setting.key = .valid choice :=
      Setting.forall_mem_all.mpr ⟨⟨_, margin⟩, ⟨_, size⟩⟩
    intro misshapen
    cases misshapen with
    | noObject other => simp [shape] at other
    | signal object present other =>
        cases shape.symm.trans object
        obtain ⟨own, rfl⟩ := signal_exists_iff.mp ⟨signal, watched⟩ _ present
        exact other own rfl
    | setting object known present unfit =>
        cases shape.symm.trans object
        obtain ⟨value, takes⟩ := Setting.check_exists_iff.mp (each _ known) _ present
        exact unfit value takes
  · intro shaped
    cases shape : explicit.members? with
    | none => exact absurd (.noObject shape) shaped
    | some members =>
        have each : ∀ setting ∈ Setting.all, ∃ choice,
            setting.check members setting.key = .valid choice := by
          intro setting known
          refine Setting.check_exists_iff.mpr fun given present => ?_
          by_contra unfit
          exact shaped (.setting shape known present (not_exists.mp unfit))
        have watched : ∃ signal : Option Signal,
            members.lookup "signal" = signal.map .signal := by
          refine signal_exists_iff.mpr fun given present => ?_
          by_contra unwatched
          exact shaped (.signal shape present (not_exists.mp unwatched))
        obtain ⟨⟨margin, marginChecked⟩, size, sizeChecked⟩ := Setting.forall_mem_all.mp each
        obtain ⟨signal, present⟩ := watched
        exact ⟨(⟨margin, size⟩, signal),
          checkExplicit_eq_valid.mpr ⟨members, shape, present, marginChecked, sizeChecked⟩⟩

theorem checkEnvironment_exists_iff :
    (∃ fallback, checkEnvironment environment = .valid fallback) ↔ ¬ Illegible environment := by
  have each : (∃ fallback, checkEnvironment environment = .valid fallback) ↔
      ∀ setting ∈ Setting.all, ∃ choice,
        setting.check (Setting.converted environment) setting.name = .valid choice := by
    rw [Setting.forall_mem_all]
    constructor
    · intro passed
      obtain ⟨fallback, passed⟩ := passed
      obtain ⟨margin, size⟩ := checkEnvironment_eq_valid.mp passed
      exact ⟨⟨_, margin⟩, ⟨_, size⟩⟩
    · intro passed
      obtain ⟨⟨margin, marginChecked⟩, size, sizeChecked⟩ := passed
      exact ⟨⟨margin, size⟩, checkEnvironment_eq_valid.mpr ⟨marginChecked, sizeChecked⟩⟩
  simp only [each, Setting.check_exists_iff, Setting.lookup_converted, Option.map_eq_some_iff,
    forall_exists_index, and_imp, forall_apply_eq_imp_iff₂, Setting.takes_number, Illegible]
  push Not
  rfl

end Sources

section Resolve

variable {explicit : Option Given} {environment : List (String × String)} {options : Options}

theorem resolve_eq_explicit :
    (∃ issues, resolve explicit environment = .error (.explicit issues)) ↔
      Misshapen (explicit.getD (.object [])) := by
  rw [← not_iff_not, ← checkExplicit_exists_iff, resolve]
  cases checkExplicit (explicit.getD (.object [])) with
  | invalid issues => simp
  | valid chosen => cases checkEnvironment environment <;> simp

theorem resolve_eq_error : (∃ error, resolve explicit environment = .error error) ↔
    Misshapen (explicit.getD (.object [])) ∨ Illegible environment := by
  rw [← not_iff_not, not_or, ← checkExplicit_exists_iff, ← checkEnvironment_exists_iff, resolve]
  cases checkExplicit (explicit.getD (.object [])) with
  | invalid issues => simp
  | valid chosen => cases checkEnvironment environment <;> simp

theorem resolve_eq_ok (resolved : resolve explicit environment = .ok options) :
    ∃ members, (explicit.getD (.object [])).members? = some members ∧
      ∃ (nearMargin maxSize : Nat) (signal : Option Signal),
        options = { nearMargin, maxSize, signal } ∧
        Setting.nearMargin.InForce members environment nearMargin ∧
        Setting.maxSize.InForce members environment maxSize ∧
        members.lookup "signal" = signal.map .signal := by
  unfold resolve at resolved
  split at resolved
  · contradiction
  · next chosen signal given =>
      split at resolved
      · contradiction
      · next fallback set =>
          cases resolved
          obtain ⟨members, shape, watched, marginGiven, sizeGiven⟩ :=
            checkExplicit_eq_valid.mp given
          obtain ⟨marginSet, sizeSet⟩ := checkEnvironment_eq_valid.mp set
          obtain ⟨margin, marginChosen, marginInForce⟩ :=
            Setting.choice_inForce marginGiven marginSet
          obtain ⟨size, sizeChosen, sizeInForce⟩ := Setting.choice_inForce sizeGiven sizeSet
          refine ⟨members, shape, margin, size, signal, ?_, marginInForce, sizeInForce, watched⟩
          rw [← marginChosen, ← sizeChosen]
          rfl

theorem scan_refused (query : Query) (session : Session) (stream : Bytes) (error : Error) :
    (query.scan session environment stream explicit).outcome = .error (.options error) ↔
      resolve explicit environment = .error error := by
  unfold Query.scan
  cases resolve explicit environment with
  | error other => simp
  | ok options =>
      dsimp only
      cases (query.plan.scan session stream options).outcome <;> simp [Except.mapError]

/-- Options are refused just if the explicit ones have not their shape or the environment sets a
number to what is none that fits, and the explicit ones are found fault with first.  Otherwise each
number is the explicit one, else that of the environment, else its default, and neither negative nor
too great, and the signal is the explicit one. -/
theorem resolve_in_force (explicit : Option Given) (environment : List (String × String)) :
    ((∃ error, resolve explicit environment = .error error) ↔
      Misshapen (explicit.getD (.object [])) ∨ Illegible environment) ∧
    ((∃ issues, resolve explicit environment = .error (.explicit issues)) ↔
      Misshapen (explicit.getD (.object []))) ∧
    (∀ options, resolve explicit environment = .ok options →
      ∃ members, (explicit.getD (.object [])).members? = some members ∧
        ∃ (nearMargin maxSize : Nat) (signal : Option Signal),
          options = { nearMargin, maxSize, signal } ∧
          Setting.nearMargin.InForce members environment nearMargin ∧
          Setting.maxSize.InForce members environment maxSize ∧ maxSize ≤ 2 ^ 32 - 1 ∧
          members.lookup "signal" = signal.map .signal) ∧
    (∀ text, Binary64.Converted text (.ofText text)) ∧
    ∀ (query : Query) (session : Session) (stream : Bytes) (error : Error),
      (query.scan session environment stream explicit).outcome = .error (.options error) ↔
        resolve explicit environment = .error error := by
  refine ⟨resolve_eq_error, resolve_eq_explicit, fun options resolved => ?_, fun text => ?_,
    scan_refused⟩
  · obtain ⟨members, shape, nearMargin, maxSize, signal, same, margin, size, watched⟩ :=
      resolve_eq_ok resolved
    refine ⟨members, shape, nearMargin, maxSize, signal, same, margin, size, ?_, watched⟩
    exact size.le_greatest (by simp [Setting.maxSize]) _ rfl
  · by_cases spelled : ∃ numeral, Numeral.Spelled text numeral
    · obtain ⟨numeral, spelled⟩ := spelled
      exact .spelled spelled (Binary64.ofText_spelled spelled)
    · have nothing := not_exists.mp spelled
      exact .nothing nothing (Binary64.ofText_eq_nan.mpr nothing)

/-- Zero is an explicit value as any other, and a signal may stand beside it. -/
example :
    let given : Given :=
      .object [("nearMargin", .tree (.number .zero)), ("signal", .signal .raised)]
    (resolve given [("STREAMQ_NEAR_MARGIN", "64"), ("STREAMQ_MAX_SIZE", " 0x10\n")]).map
      (fun options => (options.nearMargin, options.maxSize, options.stopsAfter [])) =
        .ok (0, 16, true) := by
  decide +kernel

end Resolve

end Options

end Carve
