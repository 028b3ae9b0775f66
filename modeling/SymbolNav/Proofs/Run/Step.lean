/-
  SymbolNav/Proofs/Run/Step.lean
  ==============================
  **What one step of a run can do**, said once.  `Run.Moves` lists the cases of
  `Run.step?`, each with its guard and with the run before and after it spelled
  out, and `step?_eq_some_iff` says that these are all of them.  Every invariant
  of a run is a case analysis over `Moves`; none opens the step function again.

  Two consequences need no invariant and stand here as well.  A run keeps what it
  was started with (`Kept`).  And its steps come to an end: every one of them
  takes something from `Run.work`, which a run at its start has four of for every
  line of the output.
-/
import SymbolNav.Run.Schedule

namespace SymbolNav.Run

/-! ### Tasks by their place -/

section Tasks

variable {r : Run} {t : Task} {before after : List Task}

/-- A task stands in its place among the others. -/
theorem exists_split {i : Nat} (h : r.tasks[i]? = some t) :
    ∃ before after, r.tasks = before ++ t :: after ∧ before.length = i := by
  obtain ⟨hlt, rfl⟩ := List.getElem?_eq_some_iff.mp h
  refine ⟨r.tasks.take i, r.tasks.drop (i + 1), ?_, by simp; omega⟩
  rw [List.getElem_cons_drop, List.take_append_drop]

theorem getElem?_of_split (h : r.tasks = before ++ t :: after) :
    r.tasks[before.length]? = some t := by
  simp [h]

theorem setStage_of_split (h : r.tasks = before ++ t :: after) (stage : Stage) :
    r.setStage before.length stage =
      { r with tasks := before ++ { t with stage } :: after } := by
  have hlt : before.length < r.tasks.length := by simp [h]
  simp only [setStage, List.modify_eq_take_cons_drop hlt]
  simp [h]

theorem forget_of_split (h : r.tasks = before ++ t :: after) :
    r.forget before.length = { r with tasks := before ++ after } := by
  simp [forget, h, List.eraseIdx_append_of_length_le]

end Tasks

/-! ### The cases of a step

The places of tasks are read off the task lists before and after, so that the
invariants below speak about lists and not about indices. -/

/-- What a step leads to. -/
inductive Moves (s : Surroundings) (r : Run) : Step → Run → Prop
  | hit {line rest hit} (running : r.phase = .running) (unread : r.unread = line :: rest)
      (parses : Hit.parse line = .ok hit) :
      Moves s r .readLine { r with
        unread := rest, tasks := ⟨hit, .queued⟩ :: r.tasks,
        stats := { r.stats with hits := r.stats.hits + 1 } }
  | junk {line rest fault} (running : r.phase = .running) (unread : r.unread = line :: rest)
      (parses : Hit.parse line = .error fault) :
      Moves s r .readLine { r with
        unread := rest, stats := { r.stats with droppedLines := r.stats.droppedLines + 1 } }
  | breakOff {message} (running : r.phase = .running) :
      Moves s r (.breakOff message) { r with phase := .aborting (.io message) }
  | drain (running : r.phase = .running) (unread : r.unread = []) (ending : r.ending = none) :
      Moves s r .endOutput { r with phase := .draining }
  | fail {e} (running : r.phase = .running) (unread : r.unread = [])
      (ending : r.ending = some e) :
      Moves s r .endOutput { r with phase := .aborting e }
  | refuse {before hit after} (tasks : r.tasks = before ++ ⟨hit, .queued⟩ :: after)
      (closed : r.closed = true) :
      Moves s r (.permit before.length) { r with tasks := before ++ ⟨hit, .ended⟩ :: after }
  | discardEarly {before hit after} (tasks : r.tasks = before ++ ⟨hit, .queued⟩ :: after)
      (closed : r.closed = false) (room : r.holders < r.limit)
      (drops : r.dropsAt s.latest = true) :
      Moves s r (.permit before.length) { r with
        tasks := before ++ ⟨hit, .ended⟩ :: after,
        stats := { r.stats with discarded := r.stats.discarded + 1 } }
  | begin {before hit after} (tasks : r.tasks = before ++ ⟨hit, .queued⟩ :: after)
      (closed : r.closed = false) (room : r.holders < r.limit)
      (keeps : r.dropsAt s.latest = false) :
      Moves s r (.permit before.length) { r with tasks := before ++ ⟨hit, .reading⟩ :: after }
  | discardLate {before hit after item} (tasks : r.tasks = before ++ ⟨hit, .reading⟩ :: after)
      (resolves : r.resolution s.reader hit = .value item) (drops : r.dropsAt s.latest = true) :
      Moves s r (.resolve before.length) { r with
        tasks := before ++ ⟨hit, .ended⟩ :: after,
        stats := { r.stats with discarded := r.stats.discarded + 1 } }
  | keep {before hit after item} (tasks : r.tasks = before ++ ⟨hit, .reading⟩ :: after)
      (resolves : r.resolution s.reader hit = .value item) (keeps : r.dropsAt s.latest = false) :
      Moves s r (.resolve before.length) { r with
        tasks := before ++ ⟨hit, .ended⟩ :: after, items := item :: r.items }
  | unreadable {before hit after e} (tasks : r.tasks = before ++ ⟨hit, .reading⟩ :: after)
      (resolves : r.resolution s.reader hit = .failed e) :
      Moves s r (.resolve before.length) { r with
        tasks := before ++ ⟨hit, .ended⟩ :: after,
        stats := { r.stats with droppedItems := r.stats.droppedItems + 1 } }
  | crash {before hit after} (tasks : r.tasks = before ++ ⟨hit, .reading⟩ :: after)
      (resolves : r.resolution s.reader hit = .crashed) :
      Moves s r (.resolve before.length) { r with tasks := before ++ ⟨hit, .crashed⟩ :: after }
  | joinEnded {before hit after} (draining : r.phase = .draining)
      (tasks : r.tasks = before ++ ⟨hit, .ended⟩ :: after) :
      Moves s r (.join before.length) { r with tasks := before ++ after }
  | joinCrashed {before hit after} (draining : r.phase = .draining)
      (tasks : r.tasks = before ++ ⟨hit, .crashed⟩ :: after) :
      Moves s r (.join before.length) { r with
        tasks := before ++ after,
        stats := { r.stats with droppedItems := r.stats.droppedItems + 1 } }
  | abort {before task after e} (aborting : r.phase = .aborting e)
      (tasks : r.tasks = before ++ task :: after) :
      Moves s r (.abort before.length) { r with tasks := before ++ after }
  | close (draining : r.phase = .draining) (tasks : r.tasks = []) :
      Moves s r .close { r with phase := .settled none }
  | closeFailed {e} (aborting : r.phase = .aborting e) (tasks : r.tasks = []) :
      Moves s r .close { r with phase := .settled (some e) }

section Moves

variable {s : Surroundings} {r r' : Run}

private theorem moves_readLine (h : r.step? s .readLine = some r') : Moves s r .readLine r' := by
  simp only [step?] at h
  split at h
  case h_2 => cases h
  case h_1 line rest running unread =>
    cases Option.some.inj h
    unfold takeLine
    split
    case h_1 hit parses => exact .hit running unread parses
    case h_2 fault parses => exact .junk running unread parses

private theorem moves_endOutput (h : r.step? s .endOutput = some r') :
    Moves s r .endOutput r' := by
  simp only [step?] at h
  split at h
  case h_2 => cases h
  case h_1 running unread =>
    split at h
    case h_1 ending => cases Option.some.inj h; exact .drain running unread ending
    case h_2 e ending => cases Option.some.inj h; exact .fail running unread ending

private theorem moves_permit {i : Nat} (h : r.step? s (.permit i) = some r') :
    Moves s r (.permit i) r' := by
  simp only [step?] at h
  split at h
  case h_2 => cases h
  case h_1 hit place =>
    obtain ⟨before, after, tasks, rfl⟩ := exists_split place
    split at h
    case isTrue closed =>
      cases Option.some.inj h
      rw [setStage_of_split tasks]
      exact .refuse tasks closed
    case isFalse closed =>
      have closed : r.closed = false := by simpa using closed
      split at h
      case isFalse => cases h
      case isTrue room =>
        split at h
        case isTrue drops =>
          cases Option.some.inj h
          rw [setStage_of_split (r := r.discardOne) tasks]
          exact .discardEarly tasks closed room drops
        case isFalse keeps =>
          cases Option.some.inj h
          rw [setStage_of_split tasks]
          exact .begin tasks closed room (by simpa using keeps)

private theorem moves_resolve {i : Nat} (h : r.step? s (.resolve i) = some r') :
    Moves s r (.resolve i) r' := by
  simp only [step?] at h
  split at h
  case h_2 => cases h
  case h_1 hit place =>
    obtain ⟨before, after, tasks, rfl⟩ := exists_split place
    split at h
    case h_1 item resolves =>
      split at h
      case isTrue drops =>
        cases Option.some.inj h
        rw [setStage_of_split (r := r.discardOne) tasks]
        exact .discardLate tasks resolves drops
      case isFalse keeps =>
        cases Option.some.inj h
        rw [setStage_of_split (r := { r with items := item :: r.items }) tasks]
        exact .keep tasks resolves (by simpa using keeps)
    case h_2 e resolves =>
      cases Option.some.inj h
      rw [setStage_of_split (r := r.dropOne) tasks]
      exact .unreadable tasks resolves
    case h_3 resolves =>
      cases Option.some.inj h
      rw [setStage_of_split tasks]
      exact .crash tasks resolves

private theorem moves_join {i : Nat} (h : r.step? s (.join i) = some r') :
    Moves s r (.join i) r' := by
  simp only [step?] at h
  split at h
  case h_1 hit draining place =>
    obtain ⟨before, after, tasks, rfl⟩ := exists_split place
    cases Option.some.inj h
    rw [forget_of_split tasks]
    exact .joinEnded draining tasks
  case h_2 hit draining place =>
    obtain ⟨before, after, tasks, rfl⟩ := exists_split place
    cases Option.some.inj h
    rw [forget_of_split (r := r.dropOne) tasks]
    exact .joinCrashed draining tasks
  case h_3 => cases h

private theorem moves_abort {i : Nat} (h : r.step? s (.abort i) = some r') :
    Moves s r (.abort i) r' := by
  simp only [step?] at h
  split at h
  case h_1 e t aborting place =>
    obtain ⟨before, after, tasks, rfl⟩ := exists_split place
    cases Option.some.inj h
    rw [forget_of_split tasks]
    exact .abort aborting tasks
  case h_2 => cases h

/-- The cases of `Moves` are all that a step can do. -/
theorem moves_of_step? {step : Step} (h : r.step? s step = some r') : Moves s r step r' := by
  cases step with
  | readLine => exact moves_readLine h
  | breakOff message =>
    simp only [step?] at h
    split at h
    case h_1 running => cases Option.some.inj h; exact .breakOff running
    case h_2 => cases h
  | endOutput => exact moves_endOutput h
  | permit i => exact moves_permit h
  | resolve i => exact moves_resolve h
  | join i => exact moves_join h
  | abort i => exact moves_abort h
  | close =>
    simp only [step?] at h
    split at h
    case h_1 draining tasks => cases Option.some.inj h; exact .close draining tasks
    case h_2 e aborting tasks => cases Option.some.inj h; exact .closeFailed aborting tasks
    case h_3 => cases h

/-- And each of them is something that a step does. -/
theorem Moves.step? {step : Step} (h : Moves s r step r') : r.step? s step = some r' := by
  cases h with
  | hit running unread parses => simp [Run.step?, running, unread, takeLine, parses]
  | junk running unread parses => simp [Run.step?, running, unread, takeLine, parses]
  | breakOff running => simp [Run.step?, running]
  | drain running unread ending => simp [Run.step?, running, unread, ending]
  | fail running unread ending => simp [Run.step?, running, unread, ending]
  | refuse tasks closed =>
    simp [Run.step?, getElem?_of_split tasks, closed, setStage_of_split tasks]
  | @discardEarly before _ _ tasks closed room drops =>
    have happens : r.step? s (.permit before.length) =
        some (r.discardOne.setStage before.length .ended) := by
      simp [Run.step?, getElem?_of_split tasks, closed, room, drops]
    exact happens.trans (congrArg some (setStage_of_split (r := r.discardOne) tasks .ended))
  | begin tasks closed room keeps =>
    simp [Run.step?, getElem?_of_split tasks, closed, room, keeps, setStage_of_split tasks]
  | @discardLate before _ _ _ tasks resolves drops =>
    have happens : r.step? s (.resolve before.length) =
        some (r.discardOne.setStage before.length .ended) := by
      simp [Run.step?, getElem?_of_split tasks, resolves, drops]
    exact happens.trans (congrArg some (setStage_of_split (r := r.discardOne) tasks .ended))
  | @keep _ _ _ item tasks resolves keeps =>
    have placed := setStage_of_split (r := { r with items := item :: r.items }) tasks .ended
    simp [Run.step?, getElem?_of_split tasks, resolves, keeps, placed]
  | @unreadable before _ _ _ tasks resolves =>
    have happens : r.step? s (.resolve before.length) =
        some (r.dropOne.setStage before.length .ended) := by
      simp [Run.step?, getElem?_of_split tasks, resolves]
    exact happens.trans (congrArg some (setStage_of_split (r := r.dropOne) tasks .ended))
  | crash tasks resolves =>
    simp [Run.step?, getElem?_of_split tasks, resolves, setStage_of_split tasks]
  | joinEnded draining tasks =>
    simp [Run.step?, draining, getElem?_of_split tasks, forget_of_split tasks]
  | @joinCrashed before _ _ draining tasks =>
    have happens : r.step? s (.join before.length) = some (r.dropOne.forget before.length) := by
      simp [Run.step?, draining, getElem?_of_split tasks]
    exact happens.trans (congrArg some (forget_of_split (r := r.dropOne) tasks))
  | abort aborting tasks =>
    simp [Run.step?, aborting, getElem?_of_split tasks, forget_of_split tasks]
  | close draining tasks => simp [Run.step?, draining, tasks]
  | closeFailed aborting tasks => simp [Run.step?, aborting, tasks]

theorem step?_eq_some_iff {step : Step} : r.step? s step = some r' ↔ Moves s r step r' :=
  ⟨moves_of_step?, Moves.step?⟩

end Moves

/-! ### What a run keeps -/

/-- What a run was started with. -/
structure Kept (o r : Run) : Prop where
  spec : r.spec = o.spec
  cwd : r.cwd = o.cwd
  commandLine : r.commandLine = o.commandLine
  generation : r.generation = o.generation
  discards : r.discards = o.discards
  limit : r.limit = o.limit
  closed : r.closed = o.closed
  ending : r.ending = o.ending

theorem Kept.refl (r : Run) : Kept r r := ⟨rfl, rfl, rfl, rfl, rfl, rfl, rfl, rfl⟩

theorem Kept.trans {o r r' : Run} (h : Kept o r) (h' : Kept r r') : Kept o r' where
  spec := h'.spec.trans h.spec
  cwd := h'.cwd.trans h.cwd
  commandLine := h'.commandLine.trans h.commandLine
  generation := h'.generation.trans h.generation
  discards := h'.discards.trans h.discards
  limit := h'.limit.trans h.limit
  closed := h'.closed.trans h.closed
  ending := h'.ending.trans h.ending

theorem Moves.kept {s : Surroundings} {r r' : Run} {step : Step} (h : Moves s r step r') :
    Kept r r' := by
  cases h <;> exact ⟨rfl, rfl, rfl, rfl, rfl, rfl, rfl, rfl⟩

/-- **Steps preserve what each of them preserves.**  The one induction over courses: what holds
of a run at some moment, and is preserved by every step that happens, holds ever after. -/
theorem follow_induction {P : Run → Prop} {path : List (Surroundings × Step)} {r r' : Run}
    (start : P r) (follows : r.follow? path = some r')
    (step : ∀ x ∈ path, ∀ r r', P r → Moves x.1 r x.2 r' → P r') : P r' := by
  induction path generalizing r with
  | nil => cases Option.some.inj follows; exact start
  | cons x path ih =>
    obtain ⟨r₁, happens, rest⟩ := Option.bind_eq_some_iff.mp follows
    have first : P r₁ := step x List.mem_cons_self r r₁ start (moves_of_step? happens)
    exact ih first rest (fun y hy => step y (List.mem_cons_of_mem x hy))

theorem kept_of_follow? {path : List (Surroundings × Step)} {r r' : Run}
    (follows : r.follow? path = some r') : Kept r r' :=
  follow_induction (P := Kept r) (Kept.refl r) follows (fun _ _ _ _ h moves => h.trans moves.kept)

/-! ### The steps come to an end -/

/-- The steps that a task may still take. -/
def stageWork : Stage → Nat
  | .queued => 3
  | .reading => 2
  | .ended | .crashed => 1

def tasksWork : List Task → Nat
  | [] => 0
  | t :: tasks => stageWork t.stage + tasksWork tasks

theorem tasksWork_append (tasks more : List Task) :
    tasksWork (tasks ++ more) = tasksWork tasks + tasksWork more := by
  induction tasks with
  | nil => simp [tasksWork]
  | cons t tasks ih => simp [tasksWork, ih, Nat.add_assoc]

/-- The steps that a phase leaves, apart from those of lines and tasks. -/
def phaseWork : Phase → Nat
  | .running => 2
  | .draining | .aborting _ => 1
  | .settled _ => 0

/-- A bound on the steps that a run may still take. -/
def work (r : Run) : Nat :=
  4 * r.unread.length + tasksWork r.tasks + phaseWork r.phase

/-- Every step takes something from the work that is left. -/
theorem Moves.work_lt {s : Surroundings} {r r' : Run} {step : Step} (h : Moves s r step r') :
    r'.work < r.work := by
  cases h with
  | hit running unread parses => simp [work, unread, tasksWork, stageWork]; omega
  | junk running unread parses => simp [work, unread]
  | breakOff running => simp [work, running, phaseWork]
  | drain running unread ending => simp [work, running, phaseWork]
  | fail running unread ending => simp [work, running, phaseWork]
  | refuse tasks closed => simp [work, tasks, tasksWork_append, tasksWork, stageWork]
  | discardEarly tasks closed room drops =>
    simp [work, tasks, tasksWork_append, tasksWork, stageWork]
  | begin tasks closed room keeps => simp [work, tasks, tasksWork_append, tasksWork, stageWork]
  | discardLate tasks resolves drops => simp [work, tasks, tasksWork_append, tasksWork, stageWork]
  | keep tasks resolves keeps => simp [work, tasks, tasksWork_append, tasksWork, stageWork]
  | unreadable tasks resolves => simp [work, tasks, tasksWork_append, tasksWork, stageWork]
  | crash tasks resolves => simp [work, tasks, tasksWork_append, tasksWork, stageWork]
  | joinEnded draining tasks => simp [work, tasks, tasksWork_append, tasksWork, stageWork]
  | joinCrashed draining tasks => simp [work, tasks, tasksWork_append, tasksWork, stageWork]
  | @abort _ task _ _ aborting tasks =>
    have positive : 0 < stageWork task.stage := by cases task.stage <;> decide
    simp only [work, tasks, tasksWork_append, tasksWork]
    omega
  | close draining tasks => simp [work, draining, phaseWork]
  | closeFailed aborting tasks => simp [work, aborting, phaseWork]

/-- A course takes no more steps than there was work at its start. -/
theorem length_add_work_le {path : List (Surroundings × Step)} {r r' : Run}
    (follows : r.follow? path = some r') : path.length + r'.work ≤ r.work := by
  induction path generalizing r with
  | nil => cases Option.some.inj follows; simp
  | cons x path ih =>
    obtain ⟨r₁, happens, rest⟩ := Option.bind_eq_some_iff.mp follows
    have first := (moves_of_step? happens).work_lt
    have later := ih rest
    simp only [List.length_cons]
    omega

/-! ### Some step can happen -/

section Progress

variable {r : Run} (s : Surroundings)

/-- A task that reads its source line can come to its end. -/
theorem exists_resolve {before after : List Task} {hit : Hit}
    (tasks : r.tasks = before ++ ⟨hit, .reading⟩ :: after) :
    ∃ r', Moves s r (.resolve before.length) r' := by
  cases resolves : r.resolution s.reader hit with
  | value item =>
    cases drops : r.dropsAt s.latest with
    | true => exact ⟨_, .discardLate tasks resolves drops⟩
    | false => exact ⟨_, .keep tasks resolves drops⟩
  | failed e => exact ⟨_, .unreadable tasks resolves⟩
  | crashed => exact ⟨_, .crash tasks resolves⟩

/-- A task that waits for a permit gets one, or another task holds it and can come to its end. -/
theorem exists_permit_or_resolve {before after : List Task} {hit : Hit} (room : 0 < r.limit)
    (tasks : r.tasks = before ++ ⟨hit, .queued⟩ :: after) :
    ∃ i r', Moves s r (.permit i) r' ∨ Moves s r (.resolve i) r' := by
  cases closed : r.closed with
  | true => exact ⟨_, _, .inl (.refuse tasks closed)⟩
  | false =>
    by_cases free : r.holders < r.limit
    · cases drops : r.dropsAt s.latest with
      | true => exact ⟨_, _, .inl (.discardEarly tasks closed free drops)⟩
      | false => exact ⟨_, _, .inl (.begin tasks closed free drops)⟩
    · have held : 0 < r.tasks.countP (·.stage = .reading) := by
        unfold holders at free
        omega
      obtain ⟨⟨hit', stage⟩, member, reads⟩ := List.countP_pos_iff.mp held
      obtain rfl : stage = .reading := by simpa using reads
      obtain ⟨before', after', tasks'⟩ := List.append_of_mem member
      obtain ⟨r', moves⟩ := exists_resolve s tasks'
      exact ⟨_, r', .inr moves⟩

/-- **A run that has not settled is never stuck**, whatever the other runs do: some step of it
can happen that is no failure to read the output. -/
theorem exists_moves (room : 0 < r.limit) (unsettled : ∀ failure, r.phase ≠ .settled failure) :
    ∃ step r', (∀ message, step ≠ .breakOff message) ∧ Moves s r step r' := by
  cases phase : r.phase with
  | running =>
    cases unread : r.unread with
    | cons line rest =>
      cases parses : Hit.parse line with
      | ok hit => exact ⟨.readLine, _, by simp, .hit phase unread parses⟩
      | error fault => exact ⟨.readLine, _, by simp, .junk phase unread parses⟩
    | nil =>
      cases ending : r.ending with
      | none => exact ⟨.endOutput, _, by simp, .drain phase unread ending⟩
      | some e => exact ⟨.endOutput, _, by simp, .fail phase unread ending⟩
  | draining =>
    cases tasks : r.tasks with
    | nil => exact ⟨.close, _, by simp, .close phase tasks⟩
    | cons task rest =>
      obtain ⟨hit, stage⟩ := task
      have tasks : r.tasks = [] ++ ⟨hit, stage⟩ :: rest := tasks
      cases stage with
      | queued =>
        obtain ⟨i, r', moves | moves⟩ := exists_permit_or_resolve s room tasks
        · exact ⟨.permit i, r', by simp, moves⟩
        · exact ⟨.resolve i, r', by simp, moves⟩
      | reading =>
        obtain ⟨r', moves⟩ := exists_resolve s tasks
        exact ⟨_, r', by simp, moves⟩
      | ended => exact ⟨_, _, by simp, .joinEnded phase tasks⟩
      | crashed => exact ⟨_, _, by simp, .joinCrashed phase tasks⟩
  | aborting e =>
    cases tasks : r.tasks with
    | nil => exact ⟨.close, _, by simp, .closeFailed phase tasks⟩
    | cons task rest =>
      have tasks : r.tasks = [] ++ task :: rest := tasks
      exact ⟨_, _, by simp, .abort phase tasks⟩
  | settled failure => exact absurd phase (unsettled failure)

end Progress

end SymbolNav.Run
