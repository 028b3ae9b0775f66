/-
  SymbolNav/Proofs/Engine/Semaphore.lean
  ======================================
  **No run reads more files at a time than it may, and none is ever stuck.**

  The permits of a run are its own: it gets as many as the settings allow at its
  start, one at least, and no later change of the settings and no other run has a
  part in them.  Along its path through whatever happens to the engine, the
  permits that are left and those that are held stay as many as they were.

  So the bound on the readers holds at every moment (`Supplied.bounded`).  And
  where tasks have not come to their end and none of them holds a permit, all
  permits are left, so that a waiting task can obtain one (`Supplied.unstuck`);
  this is so however other tasks have ended, for an end that kept its permit would
  have broken the balance.
-/
import SymbolNav.Proofs.Engine.Answers
import SymbolNav.Proofs.Run.Semaphore

namespace SymbolNav.Engine

/-- The permits of the run `r` that was started as `o`, of which `left` are left. -/
structure Supplied (o : Start) (e : Engine) (r : Run) (left : Nat) : Prop where
  balanced : left + r.holders = max 1 o.before.config.maxConcurrentReads
  /-- No more tasks are between obtaining a permit and their end than the settings allowed. -/
  bounded : r.holders ≤ max 1 o.before.config.maxConcurrentReads
  /-- A waiting task obtains a permit if one is left, and goes on waiting if none is. -/
  obtains : ∀ i hit, r.tasks[i]? = some ⟨hit, .queued⟩ →
    e.step? o.run.generation (.permit i) =
      if 0 < left then some (e.updateRun o.run.generation (fun _ => r.obtained e.latest i))
      else none
  /-- Where some tasks have not come to their end and none of them holds a permit, one of them can
  obtain one. -/
  unstuck : (∃ t ∈ r.tasks, t.stage = .queued ∨ t.stage = .reading) →
    (∀ t ∈ r.tasks, t.stage ≠ .reading) →
    ∃ i hit, r.tasks[i]? = some ⟨hit, .queued⟩ ∧
      e.step? o.run.generation (.permit i) =
        some (e.updateRun o.run.generation (fun _ => r.obtained e.latest i))

/-- A run starts with as many permits as the settings allow, and with all of them. -/
theorem limit_of_started? {e : Engine} {a : Action} {run : Run}
    (started : e.started? a = some run) :
    run.limit = max 1 e.config.maxConcurrentReads ∧ run.holders = 0 := by
  obtain ⟨spec, cwd, discards, response, machine, rfl, -, -⟩ := opening_of_started? started
  exact ⟨rfl, rfl⟩

/-- **Permits are neither lost nor multiplied.**  Whatever happens to an engine, in any order, no
more tasks of a run read their source lines at a time than the settings allowed when it was
started, one at least; and as long as it has tasks that have not come to their end, one of them
holds a permit or can obtain one. -/
theorem permits_conserved {host : Host} {config : Config} {actions : List Action} {e : Engine}
    (reached : (new host config).play? actions = some e) {o : Start}
    (start : o ∈ (new host config).starts actions) :
    ∃ r, e.run? o.run.generation = some r ∧
      Supplied o e r
        (o.run.permitsLeft o.run.limit (pathOf o.run.generation o.after o.later)) := by
  obtain ⟨earlier, -, first, happens, started, rest⟩ := exists_earlier_of_mem_starts reached start
  have numbered := numbered_of_play? (numbered_new host config) first
  obtain ⟨r, found, follows, course⟩ := exists_course numbered happens started rest
  obtain ⟨limit, unheld⟩ := limit_of_started? started
  have kept : r.limit = o.run.limit := course.kept.limit
  have atStart : o.run.limit + o.run.holders = o.run.limit := by omega
  have balanced := Run.permitsLeft_add_holders follows atStart
  generalize o.run.permitsLeft o.run.limit (pathOf o.run.generation o.after o.later) = left
    at balanced ⊢
  have obtains : ∀ i hit, r.tasks[i]? = some ⟨hit, .queued⟩ →
      e.step? o.run.generation (.permit i) =
        if 0 < left then some (e.updateRun o.run.generation (fun _ => r.obtained e.latest i))
        else none := by
    intro i hit waits
    have steps := Run.step?_permit e.surroundings waits course.unclosed balanced
    simp only [step?, found, steps]
    split <;> rfl
  refine ⟨r, found, ?_⟩
  constructor
  case balanced => omega
  case bounded => omega
  case obtains => exact obtains
  case unstuck =>
    intro unfinished unread
    have none : r.holders = 0 := by
      apply List.countP_eq_zero.mpr
      intro t member
      simpa using unread t member
    obtain ⟨i, hit, waits⟩ := Run.exists_waiting unfinished none
    have spare : 0 < left := by omega
    refine ⟨i, hit, waits, ?_⟩
    rw [obtains i hit waits, if_pos spare]

namespace Sample

/-! An indexer that reports two hits, source lines that nobody can read without crashing, and
settings that allow no reading at all. -/

def pair : Response :=
  ⟨[97, 32, 102, 32, 50, 32, 120, 10, 97, 32, 103, 32, 51, 32, 121, 10], [], some 0⟩

def brittle : Host :=
  { machine with program := fun _ files => (pair, files), sources := some (fun _ _ => .crashed) }

def idle : Config := { settings with maxConcurrentReads := 0 }

/-- Of two tasks, one obtains a permit and crashes. -/
def oneCrashes : List Action :=
  [.start question root, .step 1 .readLine, .step 1 .readLine, .step 1 (.permit 0),
    .step 1 (.resolve 0)]

end Sample

open Sample in
/-- Where settings allow no reading there is one permit, and when the first task has crashed with
it, the other one can obtain it. -/
theorem permits_conserved_crash :
    ∃ e o r, (new brittle idle).play? oneCrashes = some e ∧
      o ∈ (new brittle idle).starts oneCrashes ∧ e.run? o.run.generation = some r ∧
      o.before.config.maxConcurrentReads = 0 ∧ r.tasks.map Task.stage = [.crashed, .queued] ∧
      r.holders ≤ 1 ∧
      ∃ i hit, r.tasks[i]? = some ⟨hit, .queued⟩ ∧
        (e.step? o.run.generation (.permit i)).isSome := by
  have ends : ((((new brittle idle).play? oneCrashes).bind (·.run? 1)).filter
      (fun r => r.tasks.map Task.stage = [.crashed, .queued])).isSome := by decide +kernel
  have allowed : ((new brittle idle).starts oneCrashes).all
      (·.before.config.maxConcurrentReads = 0) := by decide +kernel
  obtain ⟨r, seen⟩ := Option.isSome_iff_exists.mp ends
  obtain ⟨found, crashed⟩ := Option.filter_eq_some_iff.mp seen
  obtain ⟨e, plays, found⟩ := Option.bind_eq_some_iff.mp found
  obtain ⟨o, start, -, there⟩ := exists_start plays (List.mem_of_find?_eq_some found)
  have none : o.before.config.maxConcurrentReads = 0 := by
    simpa using List.all_eq_true.mp allowed o start
  have stages : r.tasks.map Task.stage = [.crashed, .queued] := of_decide_eq_true crashed
  obtain ⟨r', found', law⟩ := permits_conserved plays start
  cases Option.some.inj (found'.symm.trans there)
  have bounded := law.bounded
  rw [none] at bounded
  -- the stages tell that one task waits and none reads
  have waiting : Stage.queued ∈ r.tasks.map Task.stage := by simp [stages]
  obtain ⟨t, member, waits⟩ := List.mem_map.mp waiting
  have unread : ∀ t ∈ r.tasks, t.stage ≠ .reading := by
    intro t member reads
    have reading : Stage.reading ∈ r.tasks.map Task.stage := reads ▸ List.mem_map_of_mem member
    simp [stages] at reading
  obtain ⟨i, hit, place, obtains⟩ := law.unstuck ⟨t, member, .inl waits⟩ unread
  exact ⟨e, o, r, plays, start, there, none, stages, bounded, i, hit, place, by simp [obtains]⟩

end SymbolNav.Engine
