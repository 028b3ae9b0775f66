/-
  SymbolNav/Proofs/Engine/Lifecycle.lean
  ======================================
  **From the start of a run to its end**, as it can be seen from outside.

  A run reads, waits for its tasks and settles, or it gives up and settles; a step
  takes it no further than to the next of these (`Phase.Next`).  What is seen of it
  at every moment since its start (`seen`), repetitions left out, is therefore the
  beginning of one of two sequences.

  A run that has settled has no task left.  Only tasks change items and counters,
  so it stays as it is from then on (`run?_of_settled`).
-/
import Mathlib.Data.List.Destutter
import SymbolNav.Proofs.Engine.Answers

namespace SymbolNav

open Run (Moves)

/-! ### Phases -/

/-- A step leaves a run in its phase or takes it to the next one. -/
inductive Phase.Next : Phase → Phase → Prop
  | stay (p : Phase) : Next p p
  | drain : Next .running .draining
  | giveUp (e : Error) : Next .running (.aborting e)
  | settle : Next .draining (.settled none)
  | settleFailed (e : Error) : Next (.aborting e) (.settled (some e))

theorem Run.Moves.next {s : Surroundings} {r r' : Run} {step : Run.Step}
    (moves : Moves s r step r') : r.phase.Next r'.phase := by
  cases moves with
  | breakOff running => rw [running]; exact .giveUp _
  | drain running unread ending => rw [running]; exact .drain
  | fail running unread ending => rw [running]; exact .giveUp _
  | close draining tasks => rw [draining]; exact .settle
  | closeFailed aborting tasks => rw [aborting]; exact .settleFailed _
  | _ => exact .stay _

/-- What may be seen of a run from a phase on, repetitions left out. -/
def Phase.courses : Phase → List (List RunState)
  | .running => [[.running, .draining, .settled], [.running, .settled]]
  | .draining => [[.draining, .settled]]
  | .aborting _ => [[.running, .settled]]
  | .settled _ => [[.settled]]

theorem Phase.exists_course (p : Phase) : ∃ course ∈ p.courses, [p.state] <+: course := by
  cases p <;> simp [courses, state]

theorem Phase.Next.courses {p p' : Phase} (next : p.Next p') {states : List RunState}
    (h : ∃ course ∈ p'.courses, (p'.state :: states).destutter (· ≠ ·) <+: course) :
    ∃ course ∈ p.courses, (p.state :: p'.state :: states).destutter (· ≠ ·) <+: course := by
  rw [List.destutter_cons_cons]
  rw [List.destutter_cons'] at h
  rcases h with ⟨course, member, begins⟩
  cases next with
  | stay => exact ⟨course, member, by simpa using begins⟩
  | drain =>
    rcases List.mem_singleton.mp member with rfl
    refine ⟨_, List.mem_cons_self, ?_⟩
    simpa [state] using begins
  | giveUp e =>
    rcases List.mem_singleton.mp member with rfl
    refine ⟨_, List.mem_cons_of_mem _ List.mem_cons_self, ?_⟩
    simpa [state] using begins
  | settle =>
    rcases List.mem_singleton.mp member with rfl
    refine ⟨_, List.mem_cons_self, ?_⟩
    simpa [state] using begins
  | settleFailed e =>
    rcases List.mem_singleton.mp member with rfl
    refine ⟨_, List.mem_cons_self, ?_⟩
    simpa [state] using begins

/-- The phases of a run whose process has ended well. -/
def Phase.Drained (p : Phase) : Prop := p = .draining ∨ p = .settled none

theorem Phase.Next.drained {p p' : Phase} (next : p.Next p') (drained : p.Drained) :
    p'.Drained := by
  cases next <;> simp_all [Phase.Drained]

theorem Run.Moves.tasks_ne_nil {s : Surroundings} {r r' : Run} {step : Run.Step}
    (moves : Moves s r step r') {failure : Option Error} (settled : r.phase = .settled failure) :
    r.tasks ≠ [] := by
  cases moves <;> simp_all

namespace Engine

/-! ### What is seen of a run -/

/-- What is seen of a run now and after each action: nothing before it has been started, and from
then on where it is. -/
def seen (generation : Nat) (e : Engine) : List Action → List (Option RunState)
  | [] => [(e.run? generation).map Run.state]
  | a :: actions =>
    (e.run? generation).map Run.state ::
      match e.act? a with
      | none => []
      | some e' => e'.seen generation actions

section Seen

variable {e e' : Engine} {g : Nat} {r : Run}

/-- An action leaves a run as it is or is a step of it. -/
theorem exists_of_act? {a : Action} (happens : e.act? a = some e') (run : e.run? g = some r) :
    ∃ r', e'.run? g = some r' ∧
      (r' = r ∨ ∃ step, a = .step g step ∧ Moves e.surroundings r step r') := by
  have plays : e.play? [a] = some e' := play?_cons.mpr ⟨e', happens, rfl⟩
  rcases follow?_pathOf plays run with ⟨r', found, follows⟩
  refine ⟨r', found, ?_⟩
  rw [pathOf_cons happens] at follows
  cases own : a.stepOf? g with
  | none =>
    rw [own] at follows
    exact .inl (Option.some.inj follows).symm
  | some step =>
    rw [own] at follows
    rcases Option.bind_eq_some_iff.mp follows with ⟨r₁, steps, rest⟩
    cases Option.some.inj rest
    refine .inr ⟨step, ?_, Run.moves_of_step? steps⟩
    cases a with
    | step g' step' =>
      simp only [Action.stepOf?] at own
      split at own
      case isTrue same => cases Option.some.inj own; rw [same]
      case isFalse => cases own
    | _ => cases own

theorem exists_next_of_act? {a : Action} (happens : e.act? a = some e') (run : e.run? g = some r) :
    ∃ r', e'.run? g = some r' ∧ r.phase.Next r'.phase := by
  rcases exists_of_act? happens run with ⟨r', found, rfl | ⟨step, -, moves⟩⟩
  · exact ⟨r', found, .stay _⟩
  · exact ⟨r', found, moves.next⟩

/-- A run is seen at every moment, and what is seen of it belongs to its phase. -/
theorem exists_seen {actions : List Action} (plays : e.play? actions = some e')
    (run : e.run? g = some r) :
    ∃ states, seen g e actions = (r.state :: states).map some ∧
      ∃ course ∈ r.phase.courses, (r.state :: states).destutter (· ≠ ·) <+: course := by
  induction actions generalizing e r with
  | nil =>
    refine ⟨[], by simp [seen, run], ?_⟩
    rw [List.destutter_singleton]
    exact r.phase.exists_course
  | cons a actions ih =>
    rcases play?_cons.mp plays with ⟨e₁, happens, rest⟩
    rcases exists_next_of_act? happens run with ⟨r₁, found, next⟩
    rcases ih rest found with ⟨states, all, courses⟩
    refine ⟨r₁.state :: states, ?_, next.courses courses⟩
    simp [seen, run, happens, all]

theorem drained_of_play? {actions : List Action} {r' : Run} (plays : e.play? actions = some e')
    (run : e.run? g = some r) (run' : e'.run? g = some r') (drained : r.phase.Drained) :
    r'.phase.Drained := by
  rcases follow?_pathOf plays run with ⟨r₁, found, follows⟩
  cases Option.some.inj (found.symm.trans run')
  apply Run.follow_induction (P := fun r => r.phase.Drained) drained follows
  intro x _ r r' drained moves
  exact moves.next.drained drained

theorem head_mem_seen (actions : List Action) (run : e.run? g = some r) :
    some r.state ∈ seen g e actions := by
  cases actions <;> simp [seen, run]

/-- A run is seen waiting for its tasks if and only if its process has ended well. -/
theorem draining_mem_seen_iff {actions : List Action} {r' : Run}
    (plays : e.play? actions = some e') (run : e.run? g = some r) (run' : e'.run? g = some r')
    (unsettled : r.phase ≠ .settled none) :
    some .draining ∈ seen g e actions ↔ r'.phase.Drained := by
  induction actions generalizing e r with
  | nil =>
    cases Option.some.inj plays
    cases Option.some.inj (run.symm.trans run')
    cases phase : r'.phase <;> simp_all [seen, Run.state, Phase.state, Phase.Drained]
  | cons a actions ih =>
    rcases play?_cons.mp plays with ⟨e₁, happens, rest⟩
    rcases exists_next_of_act? happens run with ⟨r₁, found, next⟩
    have all : seen g e (a :: actions) = some r.state :: seen g e₁ actions := by
      simp [seen, run, happens]
    rw [all, List.mem_cons]
    by_cases drained : r₁.phase.Drained
    · -- it is seen waiting now, or has been just before it settled
      have waits : some .draining = some r.state ∨ some .draining ∈ seen g e₁ actions := by
        rcases drained with draining | settled
        · right
          have shown := head_mem_seen actions found
          rwa [Run.state, draining] at shown
        · left
          rw [settled] at next
          unfold Run.state
          generalize r.phase = p at next unsettled
          cases next with
          | stay => exact absurd rfl unsettled
          | settle => rfl
      exact iff_of_true waits (drained_of_play? rest found run' drained)
    · have before : some .draining ≠ some r.state := by
        intro same
        have draining : r.phase = .draining := by
          cases phase : r.phase <;> simp_all [Run.state, Phase.state]
        exact drained (next.drained (.inl draining))
      have unsettled₁ : r₁.phase ≠ .settled none := fun settled => drained (.inr settled)
      rw [ih rest found unsettled₁]
      constructor
      · rintro (now | later)
        · exact absurd now before
        · exact later
      · intro later
        exact .inr later

theorem run?_of_settled {actions : List Action} {failure : Option Error}
    (plays : e.play? actions = some e') (run : e.run? g = some r)
    (settled : r.phase = .settled failure) (finished : r.tasks = []) : e'.run? g = some r := by
  induction actions generalizing e with
  | nil => cases Option.some.inj plays; exact run
  | cons a actions ih =>
    rcases play?_cons.mp plays with ⟨e₁, happens, rest⟩
    rcases exists_of_act? happens run with ⟨r₁, found, rfl | ⟨step, -, moves⟩⟩
    · exact ih rest found
    · exact absurd finished (moves.tasks_ne_nil settled)

end Seen

/-! ### The lifecycle -/

/-- The state of the run `r` that was started as `o`, up to now and from now on. -/
structure Lifecycle (o : Start) (e : Engine) (r : Run) : Prop where
  /-- A run is seen from its start on, and only ever further on its way. -/
  states : ∃ states : List RunState, seen o.run.generation o.after o.later = states.map some ∧
    (states.destutter (· ≠ ·) <+: [.running, .draining, .settled] ∨
      states.destutter (· ≠ ·) <+: [.running, .settled])
  /-- It waits for its tasks, and settles well, only after all of the output has been read and the
  process has ended with success. -/
  drained : r.state = .draining ∨ (∃ s, e.result? o.run.generation = some (.ok s)) →
    ∃ response machine, o.before.Responds o.run.spec o.run.cwd response machine ∧
      Run.consumed o.run r = response.lines ∧ response.exitCode = some 0
  /-- It has a result if and only if it has settled. -/
  settles : (∃ result, e.result? o.run.generation = some result) ↔ r.state = .settled
  ok : ∀ result, e.result? o.run.generation = some result →
    ((∃ s, result = .ok s) ↔ some .draining ∈ seen o.run.generation o.after o.later)
  finished : r.state = .settled → r.tasks = []
  final : r.state = .settled → ∀ more e', e.play? more = some e' →
    e'.run? o.run.generation = some r

theorem state_eq_settled {r : Run} : r.state = .settled ↔ ∃ failure, r.phase = .settled failure := by
  cases phase : r.phase <;> simp [Run.state, phase, Phase.state]

theorem drained_iff {r : Run} (latest : Nat) :
    r.phase.Drained ↔ r.state = .draining ∨ ∃ s, r.result? latest = some (.ok s) := by
  cases phase : r.phase with
  | settled failure =>
    cases failure <;> simp [Phase.Drained, Run.state, phase, Phase.state, Run.result?]
  | _ => simp [Phase.Drained, Run.state, phase, Phase.state, Run.result?]

/-- A run whose process has ended well has read all of the output. -/
theorem Since.consumed_eq {o : Start} {e : Engine} {r : Run} (h : Since o e r)
    (drained : r.phase.Drained) :
    ∃ response machine, o.before.Responds o.run.spec o.run.cwd response machine ∧
      Run.consumed o.run r = response.lines ∧ response.exitCode = some 0 := by
  rcases opening_of_started? h.started with
    ⟨spec, cwd, discards, response, machine, run, responds, -⟩
  rcases h.course.placed.drained drained with ⟨unread, ending⟩
  have asked : o.run.spec = spec ∧ o.run.cwd = cwd := by rw [run]; exact ⟨rfl, rfl⟩
  have output : o.run.unread = response.lines := by rw [run]; rfl
  have failure : o.run.ending = response.failure? := by rw [run]; rfl
  refine ⟨response, machine, ?_, ?_, ?_⟩
  · rw [asked.1, asked.2]
    exact responds
  · rw [← output, ← h.course.consumed_append, unread, List.append_nil]
  · exact failure?_eq_none (failure.symm.trans ending)

theorem run?_of_mem_starts {host : Host} {config : Config} {actions : List Action} {e : Engine}
    (reached : (new host config).play? actions = some e) {o : Start}
    (start : o ∈ (new host config).starts actions) :
    o.after.run? o.run.generation = some o.run ∧ o.run.phase = .running := by
  rcases exists_earlier_of_mem_starts reached start with ⟨earlier, -, first, happens, started, -⟩
  have numbered := numbered_of_play? (numbered_new host config) first
  rcases run?_of_started? numbered happens started with ⟨found, -, -, fresh, -⟩
  exact ⟨found, fresh.running⟩

/-- A run that has come to something has waited for its tasks, if it settled well, and only then. -/
theorem Since.ok_iff {o : Start} {e : Engine} {r : Run} (h : Since o e r)
    (begins : o.after.run? o.run.generation = some o.run) (running : o.run.phase = .running)
    {answer : Except Error Run.Settled} (comes : r.result? e.latest = some answer) :
    (∃ s, answer = .ok s) ↔ some .draining ∈ seen o.run.generation o.after o.later := by
  have unsettled : o.run.phase ≠ .settled none := by simp [running]
  rw [draining_mem_seen_iff h.plays begins h.found unsettled, drained_iff e.latest, comes]
  constructor
  · rintro ⟨s, rfl⟩
    exact .inr ⟨s, rfl⟩
  · rintro (draining | ⟨s, ok⟩)
    · have none : r.result? e.latest = none := by
        cases phase : r.phase <;> simp_all [Run.state, Phase.state, Run.result?]
      rw [none] at comes
      cases comes
    · exact ⟨s, Option.some.inj ok⟩

theorem Since.states {o : Start} {e : Engine} {r : Run} (h : Since o e r)
    (begins : o.after.run? o.run.generation = some o.run) (running : o.run.phase = .running) :
    ∃ states : List RunState, seen o.run.generation o.after o.later = states.map some ∧
      (states.destutter (· ≠ ·) <+: [.running, .draining, .settled] ∨
        states.destutter (· ≠ ·) <+: [.running, .settled]) := by
  rcases exists_seen h.plays begins with ⟨states, all, course, member, shown⟩
  refine ⟨_, all, ?_⟩
  rw [running] at member
  rcases List.mem_cons.mp member with rfl | member
  · exact .inl shown
  · cases List.mem_singleton.mp member
    exact .inr shown

/-- **The lifecycle of a run.**  Whatever happens to an engine, in any order, each of its runs goes
from reading to waiting for its tasks to its end, or from reading to its end; it settles well in
the first case only, and without any task; and what has settled stays as it is. -/
theorem lifecycle {host : Host} {config : Config} {actions : List Action} {e : Engine}
    (reached : (new host config).play? actions = some e) {o : Start}
    (start : o ∈ (new host config).starts actions) :
    ∃ r, e.run? o.run.generation = some r ∧ Lifecycle o e r := by
  rcases since_of_mem_starts reached start with ⟨r, since⟩
  rcases run?_of_mem_starts reached start with ⟨begins, running⟩
  have result : e.result? o.run.generation = r.result? e.latest := by
    rw [result?, since.found]
    rfl
  refine ⟨r, since.found, ?_⟩
  constructor
  case states => exact since.states begins running
  case drained =>
    intro drained
    rw [result] at drained
    exact since.consumed_eq ((drained_iff e.latest).mpr drained)
  case settles =>
    rw [result, state_eq_settled]
    unfold Run.result?
    cases r.phase with
    | settled failure => cases failure <;> simp
    | _ => simp
  case ok =>
    intro answer comes
    exact since.ok_iff begins running (result.symm.trans comes)
  case finished =>
    intro settled
    rcases state_eq_settled.mp settled with ⟨failure, phase⟩
    exact since.course.placed.finished failure phase
  case final =>
    intro settled more e' plays
    rcases state_eq_settled.mp settled with ⟨failure, phase⟩
    exact run?_of_settled plays since.found phase (since.course.placed.finished failure phase)

open Sample in
/-- A run is brought to its end while a newer one has just been started. -/
theorem lifecycle_toTheEnd :
    ∃ e o r, engine.play? (.startComplete question root :: .start question root :: toTheEnd 1) =
        some e ∧
      o ∈ engine.starts (.startComplete question root :: .start question root :: toTheEnd 1) ∧
      e.run? o.run.generation = some r ∧ r.generation = 1 ∧ r.state = .settled ∧ r.tasks = [] ∧
      some .draining ∈ seen o.run.generation o.after o.later := by
  have ends : (((engine.play?
      (.startComplete question root :: .start question root :: toTheEnd 1)).bind
      (·.run? 1)).filter (fun r => r.phase = .settled none)).isSome := by decide +kernel
  rcases Option.isSome_iff_exists.mp ends with ⟨r, seen⟩
  rcases Option.filter_eq_some_iff.mp seen with ⟨found, settled⟩
  rcases Option.bind_eq_some_iff.mp found with ⟨e, plays, found⟩
  have phase := of_decide_eq_true settled
  have state : r.state = .settled := state_eq_settled.mpr ⟨none, phase⟩
  rcases exists_start plays (List.mem_of_find?_eq_some found) with ⟨o, start, same, there⟩
  rcases lifecycle plays start with ⟨r', found', law⟩
  cases Option.some.inj (found'.symm.trans there)
  refine ⟨e, o, r, plays, start, there, generation_of_run? found, state, law.finished state, ?_⟩
  have comes : e.result? o.run.generation = some (.ok
      ⟨r.spec, r.cwd, r.items.reverse, r.stats, r.supersededAt e.latest⟩) := by
    rw [result?, there]
    exact Run.result?_eq_ok.mpr ⟨phase, rfl⟩
  exact (law.ok _ comes).mp ⟨_, rfl⟩

end Engine

end SymbolNav
