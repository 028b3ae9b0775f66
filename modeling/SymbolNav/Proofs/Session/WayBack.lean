/-
  SymbolNav/Proofs/Session/WayBack.lean
  =====================================
  **The way back leads through the positions that were left.**

  `Trail` says what the history and the operations of a trip have to do with the jumps
  and ways back that have been begun, and `Steers` says it of the cursor, as long as no
  two of them are under way at once.  Whatever happens preserves both.  What is left of
  the history and of the cursor after a whole trip (`way_back`) is then what is left over
  of its jumps.
-/
import SymbolNav.Proofs.Engine.Answers
import SymbolNav.Proofs.Session.Trip

namespace SymbolNav

open Navigation (Nested Matched unmatched retrace)

namespace Trip

/-! ### The trail -/

variable {s : Session} {p₀ : Position} {t t' : Trip} {h : Happening}

/-- What the history and the operations have to do with the ways that have been begun. -/
structure Trail (s : Session) (t : Trip) : Prop where
  sound : ∀ op ∈ t.ongoing.operations, op.Sound
  history : t.ongoing.session.history.positions =
    retrace Jump.origin s.history.positions t.navigations
  backs : ∀ front i target after, t.ways = front ++ (i, .back target) :: after →
    target = (retrace Jump.origin s.history.positions (front.map Prod.snd)).head?
  headings : ∀ i p, t.ongoing.heading? i = some p ↔ ∃ n, (i, n) ∈ t.ways ∧ n.target? = some p

theorem trail_start (s : Session) (p₀ : Position) : Trail s (start s p₀) where
  sound := by simp [start]
  history := rfl
  backs := by simp [start]
  headings := by simp [start, Ongoing.heading?, Ongoing.progressAt?]

theorem navigations_of_ways {more : List (Nat × Navigation)} (ways : t'.ways = t.ways ++ more) :
    t'.navigations = t.navigations ++ more.map Prod.snd := by
  rw [navigations, ways, List.map_append]
  rfl

/-- Where nothing leaves, the trail stays. -/
theorem Trail.kept (trail : Trail s t) (sound : ∀ op ∈ t'.ongoing.operations, op.Sound)
    (headings : t'.ongoing.heading? = t.ongoing.heading?)
    (history : t'.ongoing.session.history = t.ongoing.session.history)
    (ways : t'.ways = t.ways) : Trail s t' where
  sound := sound
  history := by
    rw [history, navigations, ways]
    exact trail.history
  backs := by
    rw [ways]
    exact trail.backs
  headings := by
    rw [headings, ways]
    exact trail.headings

theorem Trail.leaves (trail : Trail s t) (sound : ∀ op ∈ t'.ongoing.operations, op.Sound)
    {i : Nat} {n : Navigation} (free : t.ongoing.heading? i = none)
    (headings : t'.ongoing.heading? = Function.update t.ongoing.heading? i n.target?)
    (back : ∀ target, n = .back target → target = t.ongoing.session.history.peek?)
    (history : t'.ongoing.session.history.positions =
      retrace Jump.origin t.ongoing.session.history.positions [n])
    (ways : t'.ways = t.ways ++ [(i, n)]) : Trail s t' where
  sound := sound
  history := by
    rw [history, trail.history, navigations_of_ways ways, Navigation.retrace_append]
    rfl
  backs := by
    intro front j target after split
    rw [ways] at split
    rcases List.eq_nil_or_concat after with rfl | ⟨after, last, rfl⟩
    · obtain ⟨rfl, same⟩ := List.append_inj' split rfl
      cases same
      rw [back target rfl, History.peek?, trail.history]
      rfl
    · rw [List.concat_eq_append, ← List.cons_append, ← List.append_assoc] at split
      exact trail.backs front j target after (List.append_inj' split rfl).1
  headings := by
    intro j p
    rw [headings, ways]
    by_cases here : j = i
    · subst here
      rw [Function.update_self]
      constructor
      · intro leads
        exact ⟨n, by simp, leads⟩
      · rintro ⟨n', member, leads⟩
        rcases List.mem_append.mp member with old | new
        · cases free.symm.trans ((trail.headings j p).mpr ⟨n', old, leads⟩)
        · cases List.mem_singleton.mp new
          exact leads
    · rw [Function.update_of_ne here, trail.headings]
      have other (n' : Navigation) : (j, n') ∈ t.ways ++ [(i, n)] ↔ (j, n') ∈ t.ways := by
        simp [here]
      simp only [other]

theorem Trail.act? (trail : Trail s t) (happens : t.act? h = some t') : Trail s t' := by
  have sound : ∀ op ∈ t'.ongoing.operations, op.Sound := by
    obtain ⟨-, o, acts, rfl⟩ := act?_eq_some.mp happens
    exact Ongoing.sound_of_act? acts trail.sound
  cases travels_of_act? happens with
  | stays openings headings history cursor ways => exact trail.kept sound headings history ways
  | arrives i p place opens openings headings history cursor ways =>
    exact trail.kept sound headings history ways
  | leaves i n place free openings headings jump back history cursor ways =>
    exact trail.leaves sound free headings back history ways

/-- A way back that has its jump leads to where that has left from. -/
theorem Trail.back_eq (trail : Trail s t) {front after : List (Nat × Navigation)} {i : Nat}
    {target : Option Position} (split : t.ways = front ++ (i, .back target) :: after)
    (nested : Nested t.navigations) :
    ∃ before k j between, front = before ++ (k, .jump j) :: between ∧
      Matched (between.map Prod.snd) ∧ target = some j.origin := by
  have upTo : Nested (front.map Prod.snd ++ [.back target]) := by
    have all : t.navigations = (front.map Prod.snd ++ [.back target]) ++ after.map Prod.snd := by
      simp [navigations, split]
    rw [all] at nested
    exact nested.append_left
  obtain ⟨before, j, between, ahead, matched⟩ := upTo.exists_jump
  have target := trail.backs front i target after split
  rw [ahead, matched.retrace_jump] at target
  obtain ⟨before, rest, rfl, rfl, later⟩ := List.map_eq_append_iff.mp ahead
  obtain ⟨⟨k, n⟩, between, rfl, jump, rfl⟩ := List.map_eq_cons_iff.mp later
  cases jump
  exact ⟨before, k, j, between, rfl, matched, target⟩

theorem Trail.exists_target (trail : Trail s t) (nested : Nested t.navigations) {i : Nat}
    {n : Navigation} (member : (i, n) ∈ t.ways) : ∃ p, n.target? = some p := by
  cases n with
  | jump j => exact ⟨j.target, rfl⟩
  | back target =>
    obtain ⟨front, after, split⟩ := List.append_of_mem member
    obtain ⟨-, -, j, -, -, -, leads⟩ := trail.back_eq split nested
    exact ⟨j.origin, leads⟩

/-! ### The cursor -/

/-- Where the cursor is, or will be once the file is open that is being opened, with the history
below it. -/
structure Steers (s : Session) (p₀ : Position) (t : Trip) : Prop where
  arrived : (∀ i, t.ongoing.opening? i = none) →
    t.cursor :: t.ongoing.session.history.positions =
      retrace Jump.target (p₀ :: s.history.positions) t.navigations
  underWay : ∀ i p, t.ongoing.opening? i = some p →
    p :: t.ongoing.session.history.positions =
      retrace Jump.target (p₀ :: s.history.positions) t.navigations ∧
    ∀ j, j ≠ i → t.ongoing.opening? j = none

theorem steers_start (s : Session) (p₀ : Position) : Steers s p₀ (start s p₀) where
  arrived := fun _ => rfl
  underWay := by simp [start, Ongoing.opening?, Ongoing.progressAt?]

theorem Steers.arrives (steers : Steers s p₀ t) {i : Nat} {p : Position}
    (opens : t.ongoing.opening? i = some p)
    (openings : t'.ongoing.opening? = Function.update t.ongoing.opening? i none)
    (history : t'.ongoing.session.history = t.ongoing.session.history)
    (cursor : t'.cursor = p) (ways : t'.ways = t.ways) : Steers s p₀ t' := by
  obtain ⟨ahead, others⟩ := steers.underWay i p opens
  constructor
  · intro idle
    rw [cursor, history, navigations, ways]
    exact ahead
  · intro j q opens'
    rw [openings] at opens'
    by_cases here : j = i
    · rw [here, Function.update_self] at opens'
      cases opens'
    · rw [Function.update_of_ne here, others j here] at opens'
      cases opens'

theorem Steers.leaves (steers : Steers s p₀ t) (trail : Trail s t') (idle : t.ongoing.idle = true)
    (nested : Nested t'.navigations) {i : Nat} {n : Navigation}
    (openings : t'.ongoing.opening? = Function.update t.ongoing.opening? i n.target?)
    (jump : ∀ j, n = .jump j → j.origin = t.cursor)
    (back : ∀ target, n = .back target → target = t.ongoing.session.history.peek?)
    (history : t'.ongoing.session.history.positions =
      retrace Jump.origin t.ongoing.session.history.positions [n])
    (ways : t'.ways = t.ways ++ [(i, n)]) : Steers s p₀ t' := by
  have closed := Ongoing.idle_iff.mp idle
  have ahead : retrace Jump.target (p₀ :: s.history.positions) t'.navigations =
      retrace Jump.target (t.cursor :: t.ongoing.session.history.positions) [n] := by
    rw [navigations_of_ways ways, Navigation.retrace_append, ← steers.arrived closed]
    rfl
  -- the operation has its file opened, with the history below it
  have leads : ∃ p, n.target? = some p ∧ p :: t'.ongoing.session.history.positions =
      retrace Jump.target (p₀ :: s.history.positions) t'.navigations := by
    cases n with
    | jump j =>
      refine ⟨j.target, rfl, ?_⟩
      rw [ahead, history, ← jump j rfl]
      rfl
    | back target =>
      obtain ⟨-, -, j, -, -, -, target⟩ := trail.back_eq ways nested
      have latest := target.symm.trans (back _ rfl)
      obtain ⟨rest, latest⟩ := List.head?_eq_some_iff.mp latest.symm
      refine ⟨j.origin, target, ?_⟩
      rw [ahead, history, latest]
      rfl
  obtain ⟨p, target, leads⟩ := leads
  constructor
  · intro idle
    have opens := idle i
    rw [openings, Function.update_self, target] at opens
    cases opens
  · intro j q opens
    rw [openings] at opens ⊢
    by_cases here : j = i
    · subst here
      rw [Function.update_self, target] at opens
      cases opens
      refine ⟨leads, fun k other => ?_⟩
      rw [Function.update_of_ne other]
      exact closed k
    · rw [Function.update_of_ne here, closed j] at opens
      cases opens

theorem Steers.act? (steers : t.alone = true → Nested t.navigations → Steers s p₀ t)
    (trail : Trail s t') (happens : t.act? h = some t') (alone : t'.alone = true)
    (nested : Nested t'.navigations) : Steers s p₀ t' := by
  cases travels_of_act? happens with
  | stays openings headings history cursor ways same =>
    have steers := steers (same ▸ alone) (by rwa [navigations, ← ways])
    constructor
    · rw [openings, cursor, history, navigations, ways]
      exact steers.arrived
    · rw [openings, history, navigations, ways]
      exact steers.underWay
  | arrives i p place opens openings headings history cursor ways same =>
    have steers := steers (same ▸ alone) (by rwa [navigations, ← ways])
    exact steers.arrives opens openings history cursor ways
  | leaves i n place free openings headings jump back history cursor ways same =>
    obtain ⟨before, idle⟩ := Bool.and_eq_true_iff.mp (same.symm.trans alone)
    have steers := steers before (by
      rw [navigations_of_ways ways] at nested
      exact nested.append_left)
    exact steers.leaves trail idle nested openings jump back history ways

/-! ### Whole trips -/

theorem play?_cons {happenings : List Happening} :
    t.play? (h :: happenings) = some t' ↔
      ∃ t₁, t.act? h = some t₁ ∧ t₁.play? happenings = some t' := by
  simp [play?, Option.bind_eq_some_iff]

theorem play?_append (t : Trip) (front more : List Happening) :
    t.play? (front ++ more) = (t.play? front).bind (·.play? more) := by
  induction front generalizing t with
  | nil => rfl
  | cons h front ih =>
    rw [List.cons_append, play?, play?, Option.bind_assoc]
    exact congrArg _ (funext ih)

theorem ways_prefix_of_act? (happens : t.act? h = some t') : t.ways <+: t'.ways := by
  obtain ⟨-, o, -, rfl⟩ := act?_eq_some.mp happens
  exact List.prefix_append ..

theorem ways_prefix_of_play? {happenings : List Happening}
    (plays : t.play? happenings = some t') : t.ways <+: t'.ways := by
  induction happenings generalizing t with
  | nil =>
    cases Option.some.inj plays
    exact List.prefix_refl _
  | cons h happenings ih =>
    obtain ⟨t₁, happens, rest⟩ := play?_cons.mp plays
    exact (ways_prefix_of_act? happens).trans (ih rest)

/-- The trail and the cursor, for as long as the trip lasts. -/
structure OnTheWay (s : Session) (p₀ : Position) (t : Trip) : Prop where
  trail : Trail s t
  steers : t.alone = true → Nested t.navigations → Steers s p₀ t

theorem onTheWay_start (s : Session) (p₀ : Position) : OnTheWay s p₀ (start s p₀) :=
  ⟨trail_start s p₀, fun _ _ => steers_start s p₀⟩

theorem OnTheWay.act? (way : OnTheWay s p₀ t) (happens : t.act? h = some t') :
    OnTheWay s p₀ t' :=
  have trail := way.trail.act? happens
  ⟨trail, Steers.act? way.steers trail happens⟩

theorem OnTheWay.play? {happenings : List Happening} (way : OnTheWay s p₀ t)
    (plays : t.play? happenings = some t') : OnTheWay s p₀ t' := by
  induction happenings generalizing t with
  | nil =>
    cases Option.some.inj plays
    exact way
  | cons h happenings ih =>
    obtain ⟨t₁, happens, rest⟩ := play?_cons.mp plays
    exact ih (way.act? happens) rest

/-- What an operation that is not on the way does moves neither the history nor the cursor. -/
theorem Travels.unmoved (travels : Travels t h t') (trail : Trail s t)
    (off : ∀ i, t.ongoing.place? h = some i → i ∉ t'.places) :
    t'.ongoing.session.history = t.ongoing.session.history ∧ t'.cursor = t.cursor := by
  cases travels with
  | stays openings headings history cursor => exact ⟨history, cursor⟩
  | arrives i p place opens openings headings history cursor ways =>
    obtain ⟨n, member, -⟩ := (trail.headings i p).mp (Ongoing.heading?_of_opening? opens)
    refine absurd ?_ (off i place)
    rw [places, ways]
    exact List.mem_map_of_mem (f := Prod.fst) member
  | leaves i n place free openings headings jump back history cursor ways =>
    refine absurd ?_ (off i place)
    simp [places, ways]

/-- **There and back.**  What a trip of which no part goes further back than it has come leaves
behind. -/
structure ThereAndBack (s : Session) (p₀ : Position) (happenings : List Happening) (t : Trip) :
    Prop where
  /-- A way back opens the position that its jump has left, and returns it. -/
  returns : ∀ front i target after, t.ways = front ++ (i, .back target) :: after →
    ∃ before k j between, front = before ++ (k, .jump j) :: between ∧
      Matched (between.map Prod.snd) ∧ target = some j.origin ∧
      ∃ op, t.ongoing.operations[i]? = some op ∧
        (op.progress = .waits (.opening j.origin) ∧ opened op.effects = [] ∨
          op.progress = .returned (.position (some j.origin)) ∧ opened op.effects = [j.origin])
  history : t.ongoing.session.history.positions =
    ((unmatched t.navigations).map Jump.origin).reverse ++ s.history.positions
  cursor : t.alone = true → t.ongoing.idle = true →
    t.cursor = ((unmatched t.navigations).getLast?.map Jump.target).getD p₀
  home : Matched t.navigations → t.ongoing.session.history = s.history ∧
    (t.alone = true → t.ongoing.idle = true → t.cursor = p₀)
  /-- Lookups, builds, and questions that have been called off or overtaken are not on the way. -/
  off : ∀ i op, t.ongoing.operations[i]? = some op →
    op.request.isAside = true ∨ op.progress = .returned (.position none) ∨
      (∃ e, op.progress = .returned (.failed e)) → i ∉ t.places
  unmoved : ∀ front h after t₁ t₂, happenings = front ++ h :: after →
    (start s p₀).play? front = some t₁ → t₁.act? h = some t₂ →
    (∀ i, t₁.ongoing.place? h = some i → i ∉ t.places) →
    t₂.ongoing.session.history = t₁.ongoing.session.history ∧ t₂.cursor = t₁.cursor

/-- An operation on the way opens what it leads to, or has opened and returned it. -/
theorem Trail.leads (trail : Trail s t) {i : Nat} {n : Navigation} {p : Position}
    (member : (i, n) ∈ t.ways) (target : n.target? = some p) :
    ∃ op, t.ongoing.operations[i]? = some op ∧
      (op.progress = .waits (.opening p) ∧ opened op.effects = [] ∨
        op.progress = .returned (.position (some p)) ∧ opened op.effects = [p]) := by
  have heads := (trail.headings i p).mpr ⟨n, member, target⟩
  obtain ⟨progress, here, heads⟩ := Option.bind_eq_some_iff.mp heads
  obtain ⟨op, place, rfl⟩ := Option.map_eq_some_iff.mp here
  have sound := (trail.sound op (List.mem_of_getElem? place)).opened
  refine ⟨op, place, ?_⟩
  cases progress : op.progress with
  | returned answer =>
    rw [progress] at heads sound
    cases answer with
    | position q =>
      cases (show q = some p from heads)
      exact .inr ⟨rfl, sound⟩
    | _ => cases heads
  | waits reason =>
    rw [progress] at heads sound
    cases reason with
    | opening q =>
      cases heads
      exact .inl ⟨rfl, sound⟩
    | _ => cases heads

theorem way_back {s : Session} {p₀ : Position} {happenings : List Happening} {t : Trip}
    (plays : (start s p₀).play? happenings = some t) (nested : Nested t.navigations) :
    ThereAndBack s p₀ happenings t := by
  have way := (onTheWay_start s p₀).play? plays
  have trail := way.trail
  have history := trail.history
  rw [nested.retrace_eq] at history
  have cursor (alone : t.alone = true) (idle : t.ongoing.idle = true) :
      t.cursor = ((unmatched t.navigations).getLast?.map Jump.target).getD p₀ := by
    have ahead := (way.steers alone nested).arrived (Ongoing.idle_iff.mp idle)
    rw [nested.retrace_eq] at ahead
    have first := congrArg List.head? ahead
    rw [List.head?_cons, List.head?_append, List.head?_reverse, List.getLast?_map,
      List.head?_cons, Option.or_some] at first
    exact Option.some.inj first
  exact {
    returns := by
      intro front i target after split
      obtain ⟨before, k, j, between, front, matched, leads⟩ := trail.back_eq split nested
      have member : (i, .back target) ∈ t.ways := by simp [split]
      exact ⟨before, k, j, between, front, matched, leads, trail.leads member leads⟩
    history := history
    cursor := cursor
    home := by
      intro matched
      rw [matched.unmatched_eq] at history cursor
      exact ⟨congrArg History.mk history, cursor⟩
    off := by
      intro i op place still member
      obtain ⟨⟨i, n⟩, onWay, rfl⟩ := List.mem_map.mp member
      obtain ⟨p, target⟩ := trail.exists_target nested onWay
      have heads := (trail.headings i p).mpr ⟨n, onWay, target⟩
      simp only [Ongoing.heading?, Ongoing.progressAt?, place, Option.map_some,
        Option.bind_some] at heads
      have none : op.progress.heading? = none := by
        rcases still with aside | none | ⟨e, failed⟩
        · have sound := trail.sound op (List.mem_of_getElem? place)
          exact Progress.heading?_of_isAside (sound.aside aside)
        · rw [none]
          rfl
        · rw [failed]
          rfl
      cases none.symm.trans heads
    unmoved := by
      intro front h after t₁ t₂ split before happens off
      rw [split, play?_append, before, Option.bind_some, play?, happens, Option.bind_some] at plays
      have trail := ((onTheWay_start s p₀).play? before).trail
      refine (travels_of_act? happens).unmoved trail (fun i place member => off i place ?_)
      exact ((ways_prefix_of_play? plays).map Prod.fst).subset member }

section RoundTrip

open Engine.Sample

/-- The editor while the cursor is at `p`. -/
def viewAt (p : Position) : EditorView := ⟨none, none, some p⟩

def here : Position := ⟨⟨"/b"⟩, 3, 1⟩

/-- The item that is jumped to first. -/
def firstItem : Item := ⟨⟨"/c"⟩, "g", 7, 0, 1, "g()", "x"⟩

/-- What `question` finds. -/
def foundItem : Item := ⟨⟨"/a"⟩, "f", 1, 0, 1, "f()", "x"⟩

/-- A jump, a question that is overtaken, a pick of what the next one finds, a lookup, and both
ways back. -/
def roundTrip : List Happening :=
  let first := viewAt firstItem.position
  let found := viewAt foundItem.position
  [.begin (viewAt here) (.jump firstItem), .resume 0 (viewAt here) (.opened none),
    .begin first (.run question), .begin first (.run question)] ++
  ((toTheEnd 1 ++ toTheEnd 2).map .engine) ++
  [.resume 1 first .settled, .resume 2 first .settled, .resume 2 first (.picked (some foundItem)),
    .resume 2 first (.opened none), .begin found (.look .definitions "f"),
    .begin found .pop, .resume 4 found (.opened none),
    .begin first .pop, .resume 5 first (.opened none)]

/-- Both jumps are gone back from, and everything is as it was. -/
theorem way_back_roundTrip :
    let s : Session := { Session.new root engine with history := ⟨[foundItem.position]⟩ }
    ∃ t, (start s here).play? roundTrip = some t ∧ Nested t.navigations ∧
      t.navigations.length = 4 ∧ t.ongoing.session.history = s.history ∧ t.cursor = here := by
  intro s
  let there : List Navigation :=
    [.jump ⟨here, firstItem.position⟩, .jump ⟨firstItem.position, foundItem.position⟩,
      .back (some firstItem.position), .back (some here)]
  have ends : ((start s here).play? roundTrip).map
      (fun t => (t.navigations, t.alone, t.ongoing.idle)) = some (there, true, true) := by
    decide +kernel
  obtain ⟨t, plays, ended⟩ := Option.map_eq_some_iff.mp ends
  obtain ⟨navigations, rest⟩ := Prod.mk.inj ended
  obtain ⟨alone, idle⟩ := Prod.mk.inj rest
  have matched : Matched t.navigations := by
    rw [navigations]
    exact ⟨by decide, by decide⟩
  obtain ⟨history, cursor⟩ := (way_back plays matched.nested).home matched
  exact ⟨t, plays, matched.nested, by rw [navigations]; rfl, history, cursor alone idle⟩

end RoundTrip

end Trip

end SymbolNav
