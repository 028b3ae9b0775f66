/-
  SymbolNav/Proofs/Watch/Loop.lean
  ================================
  **One report for each change, and almost none after a stop.**

  The loop takes deliveries in the order in which they come, and for each of them it
  reports one path or none (`Sound`).  Whether it is to go on it looks only between
  two deliveries.  So when it is stopped, it may be about to take one more, and it
  takes three steps of its own at most (`Winds`).
-/
import SymbolNav.Watch.Loop
import Mathlib.Tactic.Common

namespace SymbolNav.Watch

/-! ### Deliveries for which something is done -/

/-- The delivery reports a change, and the path is the first of the event that the watch accepts. -/
inductive Triggers (w : Watch) : Delivery → Path → Prop
  | change {kind : EventKind} {before after : List Path} {p : Path}
      (changes : kind ∈ [.created, .removed, .written, .renamed, .modified])
      (passed : ∀ q ∈ before, w.accepts q = false) (accepted : w.accepts p = true) :
      Triggers w (.event ⟨kind, before ++ p :: after⟩) p

theorem isChange_iff {kind : EventKind} :
    kind.isChange = true ↔ kind ∈ [.created, .removed, .written, .renamed, .modified] := by
  cases kind <;> decide

/-! ### Steps to the end -/

/-- How many steps of its own the loop still takes once it has been stopped. -/
def Turn.left : Turn → Nat
  | .taking => 3
  | .acting _ => 2
  | .looking => 1
  | .ended => 0

/-- How many deliveries the loop still takes once it has been stopped. -/
def Turn.room : Turn → Nat
  | .taking => 1
  | _ => 0

theorem Turn.within (t : Turn) : t.left ≤ 3 ∧ t.room ≤ 1 := by
  cases t <;> simp [left, room]

namespace Loop

theorem reportOf_eq_some_iff {w : Watch} {d : Delivery} {p : Path} :
    reportOf w d = some p ↔ Triggers w d p := by
  constructor
  · intro reports
    cases d with
    | fault message => cases reports
    | event e =>
      obtain ⟨kind, paths⟩ := e
      obtain ⟨changes, found⟩ := Option.ite_none_right_eq_some.mp reports
      obtain ⟨accepted, before, after, rfl, passed⟩ := List.find?_eq_some_iff_append.mp found
      exact .change (isChange_iff.mp changes) (by simpa using passed) accepted
  · rintro ⟨changes, passed, accepted⟩
    refine (if_pos (isChange_iff.mpr changes)).trans ?_
    exact List.find?_eq_some_iff_append.mpr ⟨accepted, _, _, rfl, by simpa using passed⟩

/-! ### The cases of a step -/

/-- What a step leads to. -/
inductive Moves (l : Loop) : Step → Loop → Prop
  | deliver {d} (connected : l.connected = true) :
      Moves l (.deliver d) { l with queue := l.queue ++ [d] }
  | hangUp : Moves l .hangUp { l with connected := false }
  | stop : Moves l .stop { l with running := false }
  | goOn (turn : l.turn = .looking) (running : l.running = true) :
      Moves l .look { l with turn := .taking }
  | finish (turn : l.turn = .looking) (stopped : l.running = false) :
      Moves l .look { l with turn := .ended }
  | take {d rest} (turn : l.turn = .taking) (queue : l.queue = d :: rest) :
      Moves l .take { l with turn := .acting d, queue := rest, taken := l.taken ++ [d] }
  | wait (turn : l.turn = .taking) (queue : l.queue = []) (connected : l.connected = true) :
      Moves l .take { l with turn := .looking }
  | lose (turn : l.turn = .taking) (queue : l.queue = []) (alone : l.connected = false) :
      Moves l .take { l with turn := .ended }
  | act {d} (turn : l.turn = .acting d) :
      Moves l .act { l with
        turn := .looking, reported := l.reported ++ (reportOf l.watch d).toList }

section Moves

variable {w : Watch} {l l' : Loop} {s : Step} {steps : List Step}

theorem moves_of_step? (h : l.step? s = some l') : Moves l s l' := by
  cases s with
  | deliver d =>
    obtain ⟨connected, same⟩ := Option.ite_none_right_eq_some.mp h
    cases Option.some.inj same
    exact .deliver connected
  | hangUp => cases h; exact .hangUp
  | stop => cases h; exact .stop
  | look =>
    simp only [step?] at h
    split at h
    case h_2 => cases h
    case h_1 turn =>
      cases Option.some.inj h
      by_cases running : l.running = true
      · rw [if_pos running]
        exact .goOn turn running
      · rw [if_neg running]
        exact .finish turn (by simpa using running)
  | take =>
    simp only [step?] at h
    split at h
    case h_3 => cases h
    case h_1 d rest turn queue => cases Option.some.inj h; exact .take turn queue
    case h_2 turn queue =>
      cases Option.some.inj h
      by_cases connected : l.connected = true
      · rw [if_pos connected]
        exact .wait turn queue connected
      · rw [if_neg connected]
        exact .lose turn queue (by simpa using connected)
  | act =>
    simp only [step?] at h
    split at h
    case h_2 => cases h
    case h_1 d turn => cases Option.some.inj h; exact .act turn

/-- The loop is never stuck: until it is over, it can take a step of its own. -/
theorem exists_own_step (goes : l.turn ≠ .ended) :
    ∃ s, s.isOwn = true ∧ (l.step? s).isSome = true := by
  cases turn : l.turn with
  | looking => exact ⟨.look, rfl, by simp [step?, turn]⟩
  | taking =>
    refine ⟨.take, rfl, ?_⟩
    cases queue : l.queue <;> simp [step?, turn, queue]
  | acting d => exact ⟨.act, rfl, by simp [step?, turn]⟩
  | ended => exact absurd turn goes

theorem play?_cons :
    l.play? (s :: steps) = some l' ↔ ∃ m, l.step? s = some m ∧ m.play? steps = some l' :=
  Option.bind_eq_some_iff

theorem play?_append {before after : List Step} :
    l.play? (before ++ after) = some l' ↔
      ∃ m, l.play? before = some m ∧ m.play? after = some l' := by
  induction before generalizing l with
  | nil => simp [play?]
  | cons s before ih =>
    simp only [List.cons_append, play?_cons, ih]
    constructor
    · rintro ⟨k, happens, m, first, second⟩
      exact ⟨m, ⟨k, happens, first⟩, second⟩
    · rintro ⟨m, ⟨k, happens, first⟩, second⟩
      exact ⟨k, happens, m, first, second⟩

/-! ### What has been done -/

/-- The loop has taken the first of the deliveries, and has acted on all of these but the one that
it has in hand. -/
structure Sound (w : Watch) (deliveries : List Delivery) (l : Loop) : Prop where
  watch : l.watch = w
  queue : l.taken ++ l.queue = deliveries
  reported : ∃ done, l.taken = done ++ l.turn.inHand ∧ l.reported = done.filterMap (reportOf w)

theorem sound_new (w : Watch) : Sound w [] (new w) :=
  ⟨rfl, rfl, [], rfl, rfl⟩

variable {deliveries : List Delivery}

theorem Sound.moves (sound : Sound w deliveries l) (h : Moves l s l') :
    Sound w (deliveries ++ delivered [s]) l' := by
  obtain ⟨watch, queue, done, taken, reported⟩ := sound
  have idle : deliveries ++ [] = deliveries := List.append_nil _
  cases h with
  | deliver => exact ⟨watch, by rw [← queue, List.append_assoc]; rfl, done, taken, reported⟩
  | hangUp => exact ⟨watch, queue.trans idle.symm, done, taken, reported⟩
  | stop => exact ⟨watch, queue.trans idle.symm, done, taken, reported⟩
  | goOn turn | finish turn | wait turn | lose turn =>
    rw [turn] at taken
    exact ⟨watch, queue.trans idle.symm, done, taken, reported⟩
  | take turn more =>
    rw [turn] at taken
    refine ⟨watch, ?_, done, ?_, reported⟩
    · rw [← queue, more]
      simp [delivered]
    · simpa [Turn.inHand] using taken
  | @act d turn =>
    rw [turn] at taken
    refine ⟨watch, queue.trans idle.symm, done ++ [d], by simpa [Turn.inHand] using taken, ?_⟩
    rw [watch, reported, List.filterMap_append]
    cases reports : reportOf w d <;> simp [reports]

theorem Sound.play? (sound : Sound w deliveries l) (plays : l.play? steps = some l') :
    Sound w (deliveries ++ delivered steps) l' := by
  induction steps generalizing l deliveries with
  | nil =>
    cases plays
    simpa [delivered] using sound
  | cons s steps ih =>
    obtain ⟨m, happens, further⟩ := play?_cons.mp plays
    have later := ih (sound.moves (moves_of_step? happens)) further
    rwa [List.append_assoc, delivered, delivered, ← List.filterMap_append] at later

/-! ### The end -/

/-- A loop that has been stopped takes some steps of its own towards its end. -/
structure Winds (l : Loop) (own : Nat) (l' : Loop) : Prop where
  stopped : l'.running = false
  left : own + l'.turn.left ≤ l.turn.left
  taken : ∃ more, l'.taken = l.taken ++ more ∧ more.length + l'.turn.room ≤ l.turn.room

theorem Winds.trans {own own' : Nat} {l'' : Loop} (h : Winds l own l') (h' : Winds l' own' l'') :
    Winds l (own + own') l'' where
  stopped := h'.stopped
  left := by
    have := h.left
    have := h'.left
    omega
  taken := by
    obtain ⟨first, taken, fits⟩ := h.taken
    obtain ⟨second, taken', fits'⟩ := h'.taken
    refine ⟨first ++ second, by rw [taken', taken, List.append_assoc], ?_⟩
    rw [List.length_append]
    omega

theorem Winds.of_idle (stopped : l'.running = false) (turn : l'.turn = l.turn)
    (taken : l'.taken = l.taken) : Winds l 0 l' :=
  ⟨stopped, by rw [turn]; omega, [], by rw [taken, List.append_nil], by rw [turn]; simp⟩

theorem Moves.winds (h : Moves l s l') (stopped : l.running = false) :
    Winds l (if s.isOwn then 1 else 0) l' := by
  cases h with
  | deliver | hangUp => exact .of_idle stopped rfl rfl
  | stop => exact .of_idle rfl rfl rfl
  | goOn _ running =>
    rw [stopped] at running
    cases running
  | finish turn | act turn =>
    exact ⟨stopped, by simp [turn, Turn.left, Step.isOwn], [], by simp, by simp [turn, Turn.room]⟩
  | wait turn | lose turn =>
    exact ⟨stopped, by simp [turn, Turn.left, Step.isOwn], [], by simp, by simp [turn, Turn.room]⟩
  | @take d rest turn =>
    exact ⟨stopped, by simp [turn, Turn.left, Step.isOwn], [d], rfl, by simp [turn, Turn.room]⟩

theorem winds_of_play? (plays : l.play? steps = some l') (stopped : l.running = false) :
    Winds l (steps.countP Step.isOwn) l' := by
  induction steps generalizing l with
  | nil =>
    cases plays
    exact .of_idle stopped rfl rfl
  | cons s steps ih =>
    obtain ⟨m, happens, further⟩ := play?_cons.mp plays
    have first := (moves_of_step? happens).winds stopped
    have whole := first.trans (ih further first.stopped)
    rwa [Nat.add_comm, ← List.countP_cons] at whole

end Moves

/-- **One report for each change, and at most one more delivery after a stop.**

Of the deliveries that the loop has taken, which are the first of all that came, it has acted on
all but the one in hand.  Those that trigger something are reported by their paths, each once and
in order, and no others.  From a stop on it takes at most one more delivery and three more steps of
its own, and nothing but its end keeps it from taking a step. -/
theorem reports_once (w : Watch) {steps : List Step} {l : Loop}
    (plays : (new w).play? steps = some l) :
    (∃ report : Delivery → Option Path, (∀ d p, report d = some p ↔ Triggers w d p) ∧
      ∃ done, l.taken = done ++ l.turn.inHand ∧ l.taken ++ l.queue = delivered steps ∧
        l.reported = done.filterMap report) ∧
    ∀ before after l₁, steps = before ++ .stop :: after →
      (new w).play? before = some l₁ →
        (∃ last, l.taken = l₁.taken ++ last ∧ last.length ≤ 1) ∧
        after.countP Step.isOwn ≤ 3 ∧
        (l.turn ≠ .ended → ∃ s, s.isOwn = true ∧ (l.step? s).isSome = true) := by
  constructor
  · obtain ⟨-, queue, done, taken, reported⟩ := (sound_new w).play? plays
    exact ⟨reportOf w, fun _ _ => reportOf_eq_some_iff, done, taken, queue, reported⟩
  · rintro before after l₁ rfl first
    obtain ⟨m, first', later⟩ := play?_append.mp plays
    cases first.symm.trans first'
    obtain ⟨m, stops, further⟩ := play?_cons.mp later
    cases Option.some.inj stops
    obtain ⟨-, left, last, taken, fits⟩ := winds_of_play? further rfl
    have := l₁.turn.within
    refine ⟨⟨last, taken, ?_⟩, ?_, exists_own_step⟩
    · dsimp only at fits
      omega
    · dsimp only at left
      omega

namespace Sample

/-! A file is made together with others, its permissions are set, and it is renamed from a hidden
directory and removed; the loop is stopped when it is about to take the renaming. -/

def sources : Watch := .of [".C"] ⟨"/r"⟩

def untilStop : List Step :=
  [.look, .deliver (.event ⟨.created, [⟨"/r/b.txt"⟩, ⟨"/r/a.c"⟩, ⟨"/r/b.c"⟩]⟩), .take, .act,
    .look, .deliver (.event ⟨.metadata, [⟨"/r/a.c"⟩]⟩), .take, .act, .look,
    .deliver (.event ⟨.renamed, [⟨"/r/.x/a.c"⟩, ⟨"/r/b.c"⟩]⟩),
    .deliver (.event ⟨.removed, [⟨"/r/a.c"⟩]⟩)]

def afterStop : List Step := [.take, .act, .look]

end Sample

open Sample in
/-- The renaming is still reported, and what comes after it is not. -/
theorem reports_once_late :
    ∃ l l₁, (new sources).play? (untilStop ++ .stop :: afterStop) = some l ∧
      (new sources).play? untilStop = some l₁ ∧ l.turn = .ended ∧ l.queue.length = 1 ∧
      l.reported = [⟨"/r/a.c"⟩, ⟨"/r/b.c"⟩] ∧
      (∃ report done, (∀ d p, report d = some p ↔ Triggers sources d p) ∧
        l.taken = done ∧ l.reported = done.filterMap report) ∧
      ∃ last, l.taken = l₁.taken ++ last ∧ last.length = 1 := by
  have plays : ((new sources).play? (untilStop ++ .stop :: afterStop)).isSome := by decide +kernel
  have first : ((new sources).play? untilStop).isSome := by decide +kernel
  have seen : ((new sources).play? (untilStop ++ .stop :: afterStop)).map
      (fun l => (l.turn, l.queue.length, l.taken.length, l.reported)) =
        some (.ended, 1, 3, [⟨"/r/a.c"⟩, ⟨"/r/b.c"⟩]) := by decide +kernel
  have seen₁ : ((new sources).play? untilStop).map (·.taken.length) = some 2 := by decide +kernel
  obtain ⟨l, plays⟩ := Option.isSome_iff_exists.mp plays
  obtain ⟨l₁, first⟩ := Option.isSome_iff_exists.mp first
  rw [plays] at seen
  rw [first] at seen₁
  obtain ⟨turn, queue, taken, reported⟩ : l.turn = .ended ∧ l.queue.length = 1 ∧
      l.taken.length = 3 ∧ l.reported = [⟨"/r/a.c"⟩, ⟨"/r/b.c"⟩] := by simpa using seen
  have taken₁ : l₁.taken.length = 2 := by simpa using seen₁
  obtain ⟨⟨report, triggers, done, all, -, reports⟩, late⟩ := reports_once sources plays
  obtain ⟨⟨last, more, -⟩, -⟩ := late untilStop afterStop l₁ rfl first
  refine ⟨l, l₁, plays, first, turn, queue, reported, ⟨report, done, triggers, ?_, reports⟩,
    last, more, ?_⟩
  · simpa [turn, Turn.inHand] using all
  · rw [more, List.length_append] at taken
    omega

end Loop

end SymbolNav.Watch
