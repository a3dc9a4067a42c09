import Carve.Proofs.Pass.Accounting

/-!
Hints only prune.

A search begins the earlier the larger the margin is (`Layout.start_anti`).  One that begins further
back meets candidates in front of the start, and may come to the start in the middle of a signature.
Without a border no occurrence is lost there, so from the start on both searches go through the same
places (`Pass.Course.pruned`).  What the earlier one has committed by then is of the structure
itself and does not count.
-/

namespace Carve

theorem Hint.start_nonneg (hint : Option (Hint Int)) (length : Nat) (window : Int) :
    0 ≤ Hint.start hint length window := by
  unfold Hint.start
  split
  · exact Int.le_refl 0
  · exact Int.le_refl 0
  · split <;> omega
  · exact Int.le_max_left _ _
  · exact Int.le_max_left _ _

theorem Hint.start_anti (hint : Option (Hint Int)) (length : Int) {window wider : Int}
    (ordered : window ≤ wider) : Hint.start hint length wider ≤ Hint.start hint length window := by
  have back (anchor : Int) : Number.sub anchor wider ≤ Number.sub anchor window :=
    Number.sub_mono (Int.le_refl anchor) ordered
  unfold Hint.start
  split
  · exact Int.le_refl 0
  · exact Int.le_refl 0
  · exact Int.le_refl _
  · have further := back length
    omega
  · next anchor =>
      have further := back (min anchor length)
      omega

theorem Layout.start_anti (layout : Layout) (length : Int) {margin wider : Int}
    (ordered : margin ≤ wider) :
    Hint.start layout.hint length (layout.window wider) ≤
      Hint.start layout.hint length (layout.window margin) :=
  Hint.start_anti layout.hint length (Number.add_mono (Int.le_refl _) ordered)

namespace Pass

variable {pass : Pass} {offset front : Nat} {store other last otherLast : Store}
  {events others : List Event}

theorem Event.stride_le (signature : Signature) (event : Event) :
    event.stride signature ≤ signature.size := by
  cases event with
  | found record => exact Nat.le_refl _
  | rejected rejection => exact Nat.succ_le_succ (Nat.zero_le _)

theorem Course.skip (course : pass.Course offset store events last) (ordered : offset ≤ front)
    (nothing : ∀ place, offset ≤ place → place < front →
      ¬ pass.signature.bytes.OccursAt pass.stream place) :
    pass.Course front store events last := by
  have same := Signature.findFrom_congr ordered nothing
  cases course with
  | done absent => exact .done (same ▸ absent)
  | step found examined rest => exact .step (same ▸ found) examined rest

theorem Course.filter_eq_self (course : pass.Course offset store events last) {bound : Int}
    (behind : bound ≤ offset) : events.filter (fun event => bound ≤ event.place) = events := by
  refine List.filter_eq_self.mpr fun event member => ?_
  obtain ⟨place, here, after, _⟩ := course.occurs event member
  exact decide_eq_true (by omega)

theorem Course.filter_suffix (course : pass.Course offset store events last) (bound : Int) :
    events.filter (fun event => bound ≤ event.place) <:+ events := by
  induction course with
  | done absent => exact List.suffix_refl []
  | @step offset place store last event events found examined rest ih =>
      have here := Event.place_of_examine examined
      by_cases behind : bound ≤ place
      · have whole : pass.Course place store (event :: events) last :=
          Course.skip (.step found examined rest) (Signature.findFrom_bounds found).1
            (Signature.findFrom_eq_some found).2
        exact ⟨[], whole.filter_eq_self behind⟩
      · rw [List.filter_cons_of_neg (by simpa [here] using behind)]
        exact ih.trans (List.suffix_cons event events)

/-- A search that begins at `front` meets what one from further back meets from there on. -/
theorem Course.pruned (borderless : pass.signature.bytes.Borderless)
    (course : pass.Course offset store events last)
    (begun : pass.Course front other others otherLast) (ordered : offset ≤ front)
    (same : pass.layout.SameSources store other) :
    others = events.filter fun event => (front : Int) ≤ event.place := by
  induction course with
  | done absent =>
      cases begun with
      | done _ => rfl
      | step found _ _ =>
          have behind := (Signature.findFrom_bounds found).1
          exact absurd (Signature.findFrom_eq_some found).1
            (Signature.findFrom_eq_none absent _ (by omega))
  | @step offset place store last event events found examined rest ih =>
      have here := Event.place_of_examine examined
      obtain ⟨occurs, nothing⟩ := Signature.findFrom_eq_some found
      by_cases inFront : place < front
      · have sameBehind := Event.commit_sources examined same
        have outside : ¬ (front : Int) ≤ event.place := by omega
        rw [List.filter_cons_of_neg (by simpa using outside)]
        by_cases inside : front < place + event.stride pass.signature
        · -- The start lies inside a signature, and the next occurrence behind that signature.
          have stride := event.stride_le pass.signature
          have nothingInside (next : Nat) (lower : front ≤ next)
              (upper : next < place + event.stride pass.signature) :
              ¬ pass.signature.bytes.OccursAt pass.stream next := by
            intro again
            have apart := borderless.apart occurs again (by omega)
            rw [Signature.size_bytes] at apart
            omega
          have skipped := begun.skip (Nat.le_of_lt inside) nothingInside
          rw [rest.filter_eq_self (by omega)]
          exact (rest.determined skipped sameBehind).symm
        · exact ih (Nat.le_of_not_lt inside) sameBehind
      · have whole : pass.Course front store (event :: events) last :=
          Course.skip (.step found examined rest) ordered fun next lower upper =>
            nothing next lower (by omega)
        rw [whole.filter_eq_self (Int.le_refl _)]
        exact (whole.determined begun same).symm

/-- The same search with another hint and another margin. -/
def withHint (pass : Pass) (hint : Option (Hint Int)) (nearMargin : Int) : Pass :=
  { pass with
    layout := { pass.layout with hint }
    options := { pass.options with nearMargin } }

theorem ofLayout_withHint {layout : Layout} {stream : Bytes} {options : Options}
    (made : ofLayout layout stream options = .ok pass) (hint : Option (Hint Int))
    (nearMargin : Int) :
    ofLayout { layout with hint } stream { options with nearMargin } =
      .ok (pass.withHint hint nearMargin) := by
  unfold ofLayout at made ⊢
  split at made
  · contradiction
  · next signature compiled =>
      cases made
      simp only [compiled]
      rfl

theorem Course.of_withHint {hint : Option (Hint Int)} {nearMargin : Int}
    (course : (pass.withHint hint nearMargin).Course offset store events last) :
    pass.Course offset store events last := by
  induction course with
  | done absent => exact .done absent
  | step found examined rest ih => exact .step found examined ih

/-- What a pass meets is what it would meet from further back, from its own start on. -/
theorem run_withHint (faultless : pass.Faultless) (borderless : pass.signature.bytes.Borderless)
    (hint : Option (Hint Int)) (nearMargin : Int)
    (further : (pass.withHint hint nearMargin).start ≤ pass.start) (threshold : Log.Level)
    (store : Store) :
    let other := pass.withHint hint nearMargin
    let run := pass.run threshold none (pass.begin store)
    let whole := other.run threshold none (other.begin store)
    (whole.fault = none ∧ whole.search.offset = none) ∧
      run.events.toList = whole.events.toList.filter (fun event => pass.start ≤ event.place) ∧
      run.events.toList <:+ whole.events.toList := by
  obtain ⟨_, _, course, _⟩ := run_course faultless threshold store
  have faultlessOther : (pass.withHint hint nearMargin).Faultless := faultless
  obtain ⟨fault, stopped, whole, _⟩ := run_course faultlessOther threshold store
  have pruned := whole.of_withHint.pruned borderless course (by omega) (.refl _ _)
  have nonnegative : 0 ≤ pass.start := Hint.start_nonneg _ _ _
  rw [Int.toNat_of_nonneg nonnegative] at pruned
  refine ⟨⟨fault, stopped⟩, pruned, ?_⟩
  rw [pruned]
  exact whole.filter_suffix pass.start

/-- The events of a run with a hint are those of a run without one that lie behind the start, and a
larger margin only puts more events in front. -/
theorem run_prunes {document : Document} {streamLength : Option Int} {plan : Plan}
    (compiled : Plan.ofDocument document streamLength = .ok plan) {layout : Layout}
    (declared : layout ∈ plan.layouts) (borderless : layout.signature.Borderless) {stream : Bytes}
    (small : stream.size < 2 ^ 53) (options : Options) (threshold : Log.Level) (store : Store) :
    ∃ pass bare, ofLayout layout stream options = .ok pass ∧
      ofLayout { layout with hint := none } stream options = .ok bare ∧
      let start := Hint.start layout.hint stream.size (layout.window options.nearMargin)
      let run := pass.run threshold none (pass.begin store)
      let whole := bare.run threshold none (bare.begin store)
      (run.fault = none ∧ run.search.offset = none) ∧
      (whole.fault = none ∧ whole.search.offset = none) ∧
      run.events.toList = whole.events.toList.filter (fun event => start ≤ event.place) ∧
      ∀ nearMargin, options.nearMargin ≤ nearMargin → ∃ wide,
        ofLayout layout stream { options with nearMargin } = .ok wide ∧
        let wider := wide.run threshold none (wide.begin store)
        (wider.fault = none ∧ wider.search.offset = none) ∧
          run.events.toList <:+ wider.events.toList := by
  obtain ⟨earlier, wellFormed⟩ := (Plan.wellFormed_ofDocument compiled).layout declared
  obtain ⟨pass, made⟩ := ofLayout_exists stream options wellFormed
  have faultless := ofLayout_faultless wellFormed small made
  obtain ⟨fault, stopped, _, _⟩ := run_course faultless threshold store
  have withoutHint := ofLayout_withHint made none options.nearMargin
  have withMargin := ofLayout_withHint made layout.hint
  obtain ⟨rfl, signature, rfl, rfl⟩ := ofLayout_eq_ok made
  rw [← signature] at borderless
  obtain ⟨ended, pruned, _⟩ := run_withHint faultless borderless none pass.options.nearMargin
    (Hint.start_nonneg _ _ _) threshold store
  refine ⟨pass, _, made, withoutHint, ⟨fault, stopped⟩, ended, pruned, ?_⟩
  intro nearMargin larger
  obtain ⟨endedWider, _, suffix⟩ := run_withHint faultless borderless pass.layout.hint nearMargin
    (pass.layout.start_anti pass.stream.size larger) threshold store
  exact ⟨_, withMargin nearMargin, endedWider, suffix⟩

/-- A structure that is looked for near the end of the stream. -/
def sampleTrailer : Document where
  byteOrder := none
  constants := none
  structures :=
    [{ name := "trailer", signature := .literal "0x6162", byteOrder := some .big
       hint := some (.near .streamEnd)
       fields :=
         [{ name := "kind", content := .primitive (.integer { signed := false, width := .one })
            align := none, offset := none }] }]

def sampleTrailerLayout : Layout where
  name := "trailer"
  signature := #[0x61, 0x62]
  byteOrder := .big
  hint := some (.near .streamEnd)
  fields :=
    [{ name := "kind", content := .primitive (.integer { signed := false, width := .one })
       align := none, offset := none }]

/-- Of three trailers the last one lies in the window, and the last two with a larger margin. -/
theorem run_prunes_sample :
    let stream : Bytes := #[0x61, 0x62, 1, 0x61, 0x62, 2, 0x61, 0x62, 3]
    ∃ pass bare wide, ofLayout sampleTrailerLayout stream ⟨0, maxSizeLimit, none⟩ = .ok pass ∧
      ofLayout { sampleTrailerLayout with hint := none } stream ⟨0, maxSizeLimit, none⟩ = .ok bare ∧
      ofLayout sampleTrailerLayout stream ⟨3, maxSizeLimit, none⟩ = .ok wide ∧
      let run := pass.run .info none (pass.begin .empty)
      run.events.toList = (bare.run .info none (bare.begin .empty)).events.toList.filter
        (fun event => 6 ≤ event.place) ∧
      run.events.toList <:+ (wide.run .info none (wide.begin .empty)).events.toList := by
  intro stream
  have compiled : Plan.ofDocument sampleTrailer none = .ok ⟨.little, [sampleTrailerLayout]⟩ := rfl
  obtain ⟨pass, bare, made, madeBare, _, _, pruned, wider⟩ :=
    run_prunes compiled (by simp : sampleTrailerLayout ∈ _) (by decide)
      (by decide : stream.size < 2 ^ 53) ⟨0, maxSizeLimit, none⟩ .info .empty
  obtain ⟨wide, madeWide, _, suffix⟩ := wider 3 (by decide)
  exact ⟨pass, bare, wide, made, madeBare, madeWide, pruned, suffix⟩

end Pass

end Carve
