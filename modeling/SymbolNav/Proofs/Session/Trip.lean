/-
  SymbolNav/Proofs/Session/Trip.lean
  ==================================
  **A session and an editor that follows it.**

  The editor opens each file that it is asked for, and from then on its cursor is
  there.  Beside the operations a `Trip` carries the cursor and the jumps and ways back
  that have been begun, each with the place of its operation.  Everything else may happen
  at the same time.

  What happens to a trip is one of three things (`Travels`): an operation leaves for
  somewhere, one arrives there, or nothing moves.  Only the first touches the history,
  and only the second the cursor.
-/
import SymbolNav.Proofs.History.Retrace
import SymbolNav.Proofs.Session.Bearings
import SymbolNav.Proofs.Session.Switching

namespace SymbolNav

open Navigation (retrace)

/-! ### Trips -/

/-- The jump to an item from where the cursor is. -/
def EditorView.jump? (v : EditorView) (item : Item) : Option Navigation :=
  v.position.map (fun here => .jump ⟨here, item.position⟩)

def Session.way? (v : EditorView) (s : Session) : Request → Option Navigation
  | .jump item => v.jump? item
  | .pop => some (.back s.history.peek?)
  | _ => none

def Waiting.way? (v : EditorView) : Waiting → Reply → Option Navigation
  | .pick _, .picked (some item) => v.jump? item
  | _, _ => none

namespace Ongoing

/-- The place of the operation that goes on when this happens. -/
def place? (o : Ongoing) : Happening → Option Nat
  | .begin _ _ => some o.operations.length
  | .resume i _ _ => some i
  | .engine _ => none

/-- The file that the operation at the place `i` has opened just now. -/
def opening? (o : Ongoing) (i : Nat) : Option Position := (o.progressAt? i).bind Progress.opening?

/-- Where the operation at the place `i` leads. -/
def heading? (o : Ongoing) (i : Nat) : Option Position := (o.progressAt? i).bind Progress.heading?

/-- No file is being opened. -/
def idle (o : Ongoing) : Bool := o.operations.all (fun op => op.progress.opening?.isNone)

/-- The jump or the way back that begins when this happens, with the place of its operation. -/
def way? (o : Ongoing) : Happening → Option (Nat × Navigation)
  | .begin view request => (o.session.way? view request).map (o.operations.length, ·)
  | .resume i view reply =>
    match o.progressAt? i with
    | some (.waits reason) => (reason.way? view reply).map (i, ·)
    | _ => none
  | .engine _ => none

/-- The position that the cursor is brought to when this happens. -/
def arrival? (o : Ongoing) : Happening → Option Position
  | .resume i _ (.opened none) => o.opening? i
  | _ => none

end Ongoing

/-- The editor shows the cursor where it is, and opens the file that it is asked for. -/
def Happening.Shows (cursor : Position) : Happening → Prop
  | .begin view _ => view.position = some cursor
  | .resume _ _ (.opened failure) => failure = none
  | .resume _ view _ => view.position = some cursor
  | .engine _ => True

instance (cursor : Position) (h : Happening) : Decidable (h.Shows cursor) := by
  cases h with
  | begin view request => exact inferInstanceAs (Decidable (view.position = some cursor))
  | resume i view reply =>
    cases reply with
    | opened failure => exact inferInstanceAs (Decidable (failure = none))
    | _ => exact inferInstanceAs (Decidable (view.position = some cursor))
  | engine a => exact inferInstanceAs (Decidable True)

/-- A session with an editor that follows it. -/
structure Trip where
  ongoing : Ongoing
  /-- The position that was opened last. -/
  cursor : Position
  /-- The jumps and ways back so far, with the places of their operations. -/
  ways : List (Nat × Navigation)
  /-- Each of them has begun when no file was being opened. -/
  alone : Bool

namespace Trip

def start (s : Session) (p₀ : Position) : Trip := ⟨⟨s, []⟩, p₀, [], true⟩

def navigations (t : Trip) : List Navigation := t.ways.map Prod.snd

/-- The places of the operations that have left for somewhere. -/
def places (t : Trip) : List Nat := t.ways.map Prod.fst

def act? (t : Trip) (h : Happening) : Option Trip :=
  if h.Shows t.cursor then
    (t.ongoing.act? h).map fun o =>
      { ongoing := o
        cursor := (t.ongoing.arrival? h).getD t.cursor
        ways := t.ways ++ (t.ongoing.way? h).toList
        alone := t.alone && (t.ongoing.idle || (t.ongoing.way? h).isNone) }
  else none

def play? (t : Trip) : List Happening → Option Trip
  | [] => some t
  | h :: happenings => (t.act? h).bind (·.play? happenings)

end Trip

namespace Ongoing

variable {o o' : Ongoing} {i : Nat} {m : Move}

theorem idle_iff : o.idle = true ↔ ∀ i, o.opening? i = none := by
  rw [idle, List.all_eq_true]
  constructor
  · intro none i
    cases place : o.operations[i]? with
    | none => simp [opening?, progressAt?, place]
    | some op => simpa [opening?, progressAt?, place] using none op (List.mem_of_getElem? place)
  · intro none op member
    obtain ⟨i, place⟩ := List.mem_iff_getElem?.mp member
    simpa [opening?, progressAt?, place] using none i

theorem heading?_of_opening? {p : Position} (opens : o.opening? i = some p) :
    o.heading? i = some p := by
  obtain ⟨progress, here, opening⟩ := Option.bind_eq_some_iff.mp opens
  simp [heading?, here, Progress.heading?, opening]

theorem Does.opening (does : Does o o' i m) :
    o'.opening? = Function.update o.opening? i m.progress.opening? := by
  funext j
  by_cases here : j = i
  · rw [here, Function.update_self, opening?, does.now]
    rfl
  · rw [Function.update_of_ne here, opening?, does.others j here]
    rfl

theorem Does.heading (does : Does o o' i m) :
    o'.heading? = Function.update o.heading? i m.progress.heading? := by
  funext j
  by_cases here : j = i
  · rw [here, Function.update_self, heading?, does.now]
    rfl
  · rw [Function.update_of_ne here, heading?, does.others j here]
    rfl

/-- An operation of which the part leads to no position, and that has not led to any before. -/
theorem Does.still (does : Does o o' i m) (free : o.heading? i = none)
    (stays : Session.Stays o.session m) :
    o'.opening? = o.opening? ∧ o'.heading? = o.heading? := by
  have closed : o.opening? i = none := by
    by_contra opens
    obtain ⟨p, opens⟩ := Option.ne_none_iff_exists'.mp opens
    cases free.symm.trans (heading?_of_opening? opens)
  constructor
  · rw [does.opening, stays.opening, Function.update_eq_self_iff, closed]
  · rw [does.heading, Progress.heading?, stays.opening, stays.position,
      Function.update_eq_self_iff, free]
    rfl

end Ongoing

namespace Trip

variable {t t' : Trip} {h : Happening}

/-- The three things that can happen to a trip. -/
inductive Travels (t : Trip) (h : Happening) (t' : Trip) : Prop
  | stays (openings : t'.ongoing.opening? = t.ongoing.opening?)
      (headings : t'.ongoing.heading? = t.ongoing.heading?)
      (history : t'.ongoing.session.history = t.ongoing.session.history)
      (cursor : t'.cursor = t.cursor) (ways : t'.ways = t.ways) (alone : t'.alone = t.alone)
  | arrives (i : Nat) (p : Position) (place : t.ongoing.place? h = some i)
      (opens : t.ongoing.opening? i = some p)
      (openings : t'.ongoing.opening? = Function.update t.ongoing.opening? i none)
      (headings : t'.ongoing.heading? = t.ongoing.heading?)
      (history : t'.ongoing.session.history = t.ongoing.session.history)
      (cursor : t'.cursor = p) (ways : t'.ways = t.ways) (alone : t'.alone = t.alone)
  | leaves (i : Nat) (n : Navigation) (place : t.ongoing.place? h = some i)
      (free : t.ongoing.heading? i = none)
      (openings : t'.ongoing.opening? = Function.update t.ongoing.opening? i n.target?)
      (headings : t'.ongoing.heading? = Function.update t.ongoing.heading? i n.target?)
      (jump : ∀ j, n = .jump j → j.origin = t.cursor)
      (back : ∀ target, n = .back target → target = t.ongoing.session.history.peek?)
      (history : t'.ongoing.session.history.positions =
        retrace Jump.origin t.ongoing.session.history.positions [n])
      (cursor : t'.cursor = t.cursor) (ways : t'.ways = t.ways ++ [(i, n)])
      (alone : t'.alone = (t.alone && t.ongoing.idle))

theorem act?_eq_some : t.act? h = some t' ↔
    h.Shows t.cursor ∧ ∃ o, t.ongoing.act? h = some o ∧
      t' = ⟨o, (t.ongoing.arrival? h).getD t.cursor, t.ways ++ (t.ongoing.way? h).toList,
        t.alone && (t.ongoing.idle || (t.ongoing.way? h).isNone)⟩ := by
  unfold act?
  split
  case isTrue shows =>
    simp only [Option.map_eq_some_iff, shows, true_and]
    exact exists_congr fun o => and_congr_right fun _ => eq_comm
  case isFalse hides => exact iff_of_false nofun (fun ⟨shows, _⟩ => hides shows)

section Travels

variable {o o' : Ongoing} {cursor : Position} {ways : List (Nat × Navigation)} {alone : Bool}
  {i : Nat} {m : Move}

/-- A part that leads to no position. -/
theorem travels_of_stays (does : Ongoing.Does o o' i m) (free : o.heading? i = none)
    (stays : Session.Stays o.session m) (way : o.way? h = none) (arrival : o.arrival? h = none) :
    Travels ⟨o, cursor, ways, alone⟩ h ⟨o', (o.arrival? h).getD cursor,
      ways ++ (o.way? h).toList, alone && (o.idle || (o.way? h).isNone)⟩ := by
  obtain ⟨openings, headings⟩ := does.still free stays
  have history : o'.session.history = o.session.history := by
    rw [does.session]
    exact stays.history
  exact .stays openings headings history (by simp [arrival]) (by simp [way]) (by simp [way])

/-- A part that jumps from where the cursor is. -/
theorem travels_of_jump {v : EditorView} {item : Item} (shown : v.position = some cursor)
    (does : Ongoing.Does o o' i (Session.jump v o.session item)) (free : o.heading? i = none)
    (place : o.place? h = some i) (way : o.way? h = (v.jump? item).map (i, ·))
    (arrival : o.arrival? h = none) :
    Travels ⟨o, cursor, ways, alone⟩ h ⟨o', (o.arrival? h).getD cursor,
      ways ++ (o.way? h).toList, alone && (o.idle || (o.way? h).isNone)⟩ := by
  have jump : Session.jump v o.session item =
      { o.session with history := o.session.history.push cursor }.wait []
        (.opening item.position) := by
    simp only [Session.jump, shown]
  have way : o.way? h = some (i, .jump ⟨cursor, item.position⟩) := by
    rw [way, EditorView.jump?, shown]
    rfl
  rw [jump] at does
  refine .leaves i (.jump ⟨cursor, item.position⟩) place free does.opening does.heading ?_ nofun
    ?_ (by simp [arrival]) (by simp [way]) (by simp [way])
  · intro j same
    cases same
    rfl
  · show o'.session.history.positions = _
    rw [does.session]
    rfl

theorem travels_of_pop (does : Ongoing.Does o o' i o.session.pop) (free : o.heading? i = none)
    (place : o.place? h = some i) (way : o.way? h = some (i, .back o.session.history.peek?))
    (arrival : o.arrival? h = none) :
    Travels ⟨o, cursor, ways, alone⟩ h ⟨o', (o.arrival? h).getD cursor,
      ways ++ (o.way? h).toList, alone && (o.idle || (o.way? h).isNone)⟩ := by
  have opening : o.session.pop.progress.opening? = o.session.history.peek? := by
    unfold Session.pop
    dsimp only
    split
    case h_1 p latest => exact latest.symm
    case h_2 none => exact none.symm
  have heading : o.session.pop.progress.heading? = o.session.history.peek? := by
    unfold Session.pop
    dsimp only
    split
    case h_1 p latest => exact latest.symm
    case h_2 none => exact none.symm
  have dropped : o.session.pop.session.history.positions = o.session.history.positions.tail := by
    unfold Session.pop
    dsimp only
    split
    case h_1 => rfl
    case h_2 none =>
      rw [List.head?_eq_none_iff.mp none]
      exact List.head?_eq_none_iff.mp none
  refine .leaves i (.back o.session.history.peek?) place free ?_ ?_ nofun ?_ ?_
    (by simp [arrival]) (by simp [way]) (by simp [way])
  · rw [does.opening, opening]
    rfl
  · rw [does.heading, heading]
    rfl
  · intro target same
    cases same
    rfl
  · show o'.session.history.positions = _
    rw [does.session, dropped]
    rfl

end Travels

theorem heading?_of_waits {o : Ongoing} {i : Nat} {reason : Waiting}
    (waits : o.progressAt? i = some (.waits reason)) (unopened : ∀ p, reason ≠ .opening p) :
    o.heading? i = none := by
  rw [Ongoing.heading?, waits]
  cases reason with
  | opening p => exact absurd rfl (unopened p)
  | _ => rfl

/-- Whatever happens to a trip is one of the three. -/
theorem travels_of_act? (happens : t.act? h = some t') : Travels t h t' := by
  obtain ⟨shows, o', acts, rfl⟩ := act?_eq_some.mp happens
  obtain ⟨o, cursor, ways, alone⟩ := t
  cases h with
  | begin view request =>
    have does := Ongoing.does_begin acts
    have free : o.heading? o.operations.length = none := by
      simp [Ongoing.heading?, Ongoing.progressAt?]
    cases request with
    | pop => exact travels_of_pop does free rfl rfl rfl
    | jump item => exact travels_of_jump shows does free rfl rfl rfl
    | _ =>
      exact travels_of_stays does free (Session.stays_begin view (by simp) (by simp)) rfl rfl
  | engine a =>
    obtain ⟨e', -, rfl⟩ := Option.map_eq_some_iff.mp acts
    exact .stays rfl rfl rfl rfl (List.append_nil _) (by simp [Ongoing.way?])
  | resume i view reply =>
    obtain ⟨reason, m, waits, resumes, does⟩ := Ongoing.does_resume acts
    have way : o.way? (.resume i view reply) = (reason.way? view reply).map (i, ·) := by
      simp [Ongoing.way?, waits]
    by_cases opening : ∃ p, reason = .opening p
    · obtain ⟨p, rfl⟩ := opening
      have opens : o.opening? i = some p := by simp [Ongoing.opening?, waits, Progress.opening?]
      have unmoved : o.way? (.resume i view reply) = none := by
        rw [way]
        cases reply <;> rfl
      cases reply with
      | opened failure =>
        cases (show failure = none from shows)
        cases Option.some.inj resumes
        have arrival : o.arrival? (.resume i view (.opened none)) = some p := opens
        refine .arrives i p rfl opens does.opening ?_ ?_ (by simp [arrival]) (by simp [unmoved])
          (by simp [unmoved])
        · rw [does.heading, Function.update_eq_self_iff, Ongoing.heading?_of_opening? opens]
          rfl
        · exact congrArg Session.history does.session
      | _ => cases resumes
    · have unopened := not_exists.mp opening
      have free := heading?_of_waits waits unopened
      by_cases picked : ∃ item, reply = .picked (some item)
      · obtain ⟨item, rfl⟩ := picked
        cases reason with
        | pick p =>
          cases Option.some.inj resumes
          exact travels_of_jump shows does free rfl way rfl
        | _ => cases resumes
      · have stays := Session.stays_resume (not_exists.mp picked) unopened resumes
        refine travels_of_stays does free stays ?_ ?_
        · rw [way, Option.map_eq_none_iff]
          unfold Waiting.way?
          split
          case h_1 item => exact absurd ⟨item, rfl⟩ picked
          case h_2 => rfl
        · unfold Ongoing.arrival?
          split
          case h_1 i' view' same =>
            cases same
            rw [Ongoing.opening?, waits]
            cases reason with
            | opening p => exact absurd rfl (unopened p)
            | _ => rfl
          case h_2 => rfl

end Trip

end SymbolNav
