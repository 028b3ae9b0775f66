/-
  SymbolNav/Proofs/Run/Semaphore.lean
  ===================================
  **The permits of a run, counted beside it.**

  A step hands out a permit as long as fewer tasks hold one than the limit allows.
  A semaphore knows nothing of tasks.  It is a number of permits that are left:
  a task that obtains one takes it away, and every way in which a task can end has
  to give it back.  `permitsLeft` keeps that number along a path of the run, with
  each of these ways spelled out.

  None of them forgets its permit and none gives back a permit that it has not
  taken: what is left and what is held make up the limit, at every moment
  (`permitsLeft_add_holders`).  So the guard of the step is that of the semaphore
  (`step?_permit`): a waiting task obtains a permit if and only if one is left.
-/
import SymbolNav.Proofs.Run.Step

namespace SymbolNav.Run

/-! ### Permits that are left -/

/-- The permits that are left after a step, of `left` before it.  A task that is let in takes one,
and gives it back at once if it is too late; a task that comes to its end gives back its own,
whether it has kept its item or dropped it, could not read its line or crashed; and so does a task
that is aborted while it holds one. -/
def permitsAfter (s : Surroundings) (r : Run) (left : Nat) : Step → Nat
  | .permit _ =>
    if r.closed then left
    else if r.dropsAt s.latest then left - 1 + 1
    else left - 1
  | .resolve _ => left + 1
  | .abort i =>
    match r.tasks[i]? with
    | some ⟨_, .reading⟩ => left + 1
    | _ => left
  | .readLine | .breakOff _ | .endOutput | .join _ | .close => left

/-- The permits that are left at the end of a path, of `left` at its start. -/
def permitsLeft (r : Run) (left : Nat) : List (Surroundings × Step) → Nat
  | [] => left
  | (s, step) :: path =>
    match r.step? s step with
    | some r' => r'.permitsLeft (permitsAfter s r left step) path
    | none => left

/-- The run after a waiting task has obtained a permit: the task reads its source line, or it drops
its hit because it is too late. -/
def obtained (r : Run) (latest task : Nat) : Run :=
  if r.dropsAt latest then r.discardOne.setStage task .ended else r.setStage task .reading

/-! ### What is left and what is held -/

/-- The permits that a task holds at this stage. -/
def heldAt : Stage → Nat
  | .reading => 1
  | .queued | .ended | .crashed => 0

theorem holders_of_split {r : Run} {before after : List Task} {t : Task}
    (tasks : r.tasks = before ++ t :: after) :
    r.holders = before.countP (·.stage = .reading) + heldAt t.stage +
      after.countP (·.stage = .reading) := by
  rw [holders, tasks, List.countP_append, List.countP_cons]
  cases t.stage <;> simp [heldAt]
  omega

section Balance

variable {s : Surroundings} {r r' : Run} {left left' : Nat}

/-- Where one task changes its stage, nobody else takes or gives back a permit. -/
theorem balanced_of_changed {before after : List Task} {hit : Hit} {stage stage' : Stage}
    (tasks : r.tasks = before ++ ⟨hit, stage⟩ :: after)
    (tasks' : r'.tasks = before ++ ⟨hit, stage'⟩ :: after) (limit : r'.limit = r.limit)
    (balanced : left + r.holders = r.limit)
    (exchanged : left' + heldAt stage' = left + heldAt stage) :
    left' + r'.holders = r'.limit := by
  have first : r.holders = _ + heldAt stage + _ := holders_of_split tasks
  have last : r'.holders = _ + heldAt stage' + _ := holders_of_split tasks'
  omega

/-- Where one task goes, only its own permit goes with it. -/
theorem balanced_of_gone {before after : List Task} {hit : Hit} {stage : Stage}
    (tasks : r.tasks = before ++ ⟨hit, stage⟩ :: after) (tasks' : r'.tasks = before ++ after)
    (limit : r'.limit = r.limit) (balanced : left + r.holders = r.limit)
    (exchanged : left' = left + heldAt stage) : left' + r'.holders = r'.limit := by
  have first : r.holders = _ + heldAt stage + _ := holders_of_split tasks
  have last : r'.holders = before.countP (·.stage = .reading) +
      after.countP (·.stage = .reading) := by
    rw [holders, tasks', List.countP_append]
  omega

/-- **Every step keeps the balance** of the permits that are left and those that are held. -/
theorem Moves.permits {step : Step} (moves : Moves s r step r')
    (balanced : left + r.holders = r.limit) :
    permitsAfter s r left step + r'.holders = r'.limit := by
  cases moves with
  | hit running unread parses => simpa [permitsAfter, holders] using balanced
  | junk running unread parses => exact balanced
  | breakOff running => exact balanced
  | drain running unread ending => exact balanced
  | fail running unread ending => exact balanced
  | refuse tasks closed =>
    refine balanced_of_changed tasks rfl rfl balanced ?_
    simp [permitsAfter, closed, heldAt]
  | discardEarly tasks closed room drops =>
    have spare : 0 < left := by omega
    refine balanced_of_changed tasks rfl rfl balanced ?_
    simp only [permitsAfter, closed, drops, heldAt, Bool.false_eq_true, if_false, if_true]
    omega
  | begin tasks closed room keeps =>
    have spare : 0 < left := by omega
    refine balanced_of_changed tasks rfl rfl balanced ?_
    simp only [permitsAfter, closed, keeps, heldAt, Bool.false_eq_true, if_false]
    omega
  | discardLate tasks resolves drops =>
    refine balanced_of_changed tasks rfl rfl balanced ?_
    rfl
  | keep tasks resolves keeps =>
    refine balanced_of_changed tasks rfl rfl balanced ?_
    rfl
  | unreadable tasks resolves =>
    refine balanced_of_changed tasks rfl rfl balanced ?_
    rfl
  | crash tasks resolves =>
    refine balanced_of_changed tasks rfl rfl balanced ?_
    rfl
  | joinEnded draining tasks =>
    refine balanced_of_gone tasks rfl rfl balanced ?_
    rfl
  | joinCrashed draining tasks =>
    refine balanced_of_gone tasks rfl rfl balanced ?_
    rfl
  | @abort before task after e aborting tasks =>
    obtain ⟨hit, stage⟩ := task
    refine balanced_of_gone tasks rfl rfl balanced ?_
    simp only [permitsAfter, getElem?_of_split tasks]
    cases stage <;> rfl
  | close draining tasks => exact balanced
  | closeFailed aborting tasks => exact balanced

/-- **What is left and what is held make up the limit**, along every path. -/
theorem permitsLeft_add_holders {path : List (Surroundings × Step)}
    (follows : r.follow? path = some r') (balanced : left + r.holders = r.limit) :
    r.permitsLeft left path + r'.holders = r'.limit := by
  induction path generalizing r left with
  | nil =>
    cases Option.some.inj follows
    exact balanced
  | cons x path ih =>
    obtain ⟨r₁, happens, rest⟩ := Option.bind_eq_some_iff.mp follows
    have first := (moves_of_step? happens).permits balanced
    simp only [permitsLeft, happens]
    exact ih rest first

end Balance

/-! ### Obtaining a permit -/

section Obtaining

variable {r : Run} {left : Nat}

/-- A waiting task obtains a permit if and only if one is left. -/
theorem step?_permit (s : Surroundings) {i : Nat} {hit : Hit}
    (waits : r.tasks[i]? = some ⟨hit, .queued⟩) (unclosed : r.closed = false)
    (balanced : left + r.holders = r.limit) :
    r.step? s (.permit i) = if 0 < left then some (r.obtained s.latest i) else none := by
  have guard : r.holders < r.limit ↔ 0 < left := by omega
  simp only [step?, waits, unclosed, guard, obtained, Bool.false_eq_true, if_false]
  split
  · split <;> rfl
  · rfl

/-- Where a task has not come to its end and none holds a permit, one waits. -/
theorem exists_waiting (unfinished : ∃ t ∈ r.tasks, t.stage = .queued ∨ t.stage = .reading)
    (unheld : r.holders = 0) : ∃ (i : Nat) (hit : Hit), r.tasks[i]? = some ⟨hit, .queued⟩ := by
  obtain ⟨⟨hit, stage⟩, member, waits | reads⟩ := unfinished
  · obtain ⟨i, place⟩ := List.mem_iff_getElem?.mp member
    cases waits
    exact ⟨i, hit, place⟩
  · have none := List.countP_eq_zero.mp unheld ⟨hit, stage⟩ member
    exact absurd reads (by simpa using none)

end Obtaining

end SymbolNav.Run
