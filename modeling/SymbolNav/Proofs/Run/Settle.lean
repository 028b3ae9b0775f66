/-
  SymbolNav/Proofs/Run/Settle.lean
  ================================
  **Bringing a run to its end is one of its ways to the end.**

  The steps of `Run.settle` that can happen, in their order, are a path from the
  run to its end (`exists_follow_settle`); so all that is known of paths is known
  of it.  And a run that is brought to its end before anything else happens to
  it has settled then (`settle_settled`).
-/
import Mathlib.Data.List.Induction
import SymbolNav.Proofs.Run.Ledger

namespace SymbolNav.Run

variable (s : Surroundings)

/-! ### A path -/

theorem follow?_append {r : Run} {path more : List (Surroundings × Step)} :
    r.follow? (path ++ more) = (r.follow? path).bind (·.follow? more) := by
  induction path generalizing r with
  | nil => rfl
  | cons x path ih =>
    simp only [List.cons_append, follow?]
    cases happens : r.step? x.1 x.2 with
    | none => rfl
    | some r₁ => exact ih

/-- Steps of which those that cannot happen are passed over are a path of the others. -/
theorem exists_follow_after (r : Run) (steps : List Step) :
    ∃ path, r.follow? path = some (r.after s steps) ∧ ∀ x ∈ path, x.1 = s ∧ x.2 ∈ steps := by
  induction steps generalizing r with
  | nil => exact ⟨[], rfl, by simp⟩
  | cons step steps ih =>
    cases happens : r.step? s step with
    | none =>
      obtain ⟨path, follows, known⟩ := ih r
      refine ⟨path, ?_, fun x hx => ⟨(known x hx).1, List.mem_cons_of_mem _ (known x hx).2⟩⟩
      simpa [after, happens] using follows
    | some r₁ =>
      obtain ⟨path, follows, known⟩ := ih r₁
      refine ⟨(s, step) :: path, ?_, ?_⟩
      · simpa [follow?, after, happens] using follows
      · refine List.forall_mem_cons.mpr ⟨⟨rfl, List.mem_cons_self⟩, ?_⟩
        exact fun x hx => ⟨(known x hx).1, List.mem_cons_of_mem _ (known x hx).2⟩

theorem breakOff_not_mem_reading (r : Run) (message : String) :
    .breakOff message ∉ r.reading := by
  simp [reading, List.mem_replicate]

theorem breakOff_not_mem_completing (r : Run) (message : String) :
    .breakOff message ∉ r.completing := by
  unfold completing
  split <;> simp [List.mem_replicate]

/-- The end of a run is reached along a path on which the output is read to its end. -/
theorem exists_follow_settle (r : Run) :
    ∃ path, r.follow? path = some (r.settle s) ∧
      ∀ x ∈ path, x.1 = s ∧ ∀ message, x.2 ≠ .breakOff message := by
  obtain ⟨path, follows, known⟩ := exists_follow_after s r r.reading
  obtain ⟨path', follows', known'⟩ :=
    exists_follow_after s (r.after s r.reading) (r.after s r.reading).completing
  refine ⟨path ++ path', ?_, ?_⟩
  · rw [follow?_append, follows]
    exact follows'
  · intro x member
    rcases List.mem_append.mp member with first | last
    · refine ⟨(known x first).1, fun message broken => ?_⟩
      exact breakOff_not_mem_reading r message (broken ▸ (known x first).2)
    · refine ⟨(known' x last).1, fun message broken => ?_⟩
      exact breakOff_not_mem_completing _ message (broken ▸ (known' x last).2)

/-! ### The end -/

/-- Every task of the run waits for a permit, and the run has permits to give. -/
structure Waits (r : Run) : Prop where
  room : 0 < r.limit
  unclosed : r.closed = false
  queued : ∀ t ∈ r.tasks, t.stage = .queued

theorem Fresh.waits {r : Run} (fresh : Fresh r) (room : 0 < r.limit) : Waits r :=
  ⟨room, fresh.unclosed, by simp [fresh.tasks]⟩

theorem after_cons {r : Run} {step : Step} {steps : List Step} :
    r.after s (step :: steps) = ((r.step? s step).getD r).after s steps := rfl

theorem after_append {r : Run} (steps : List Step) {more : List Step} :
    r.after s (steps ++ more) = (r.after s steps).after s more := List.foldl_append

/-- Lines have been read, and the hits among them have become tasks that wait. -/
structure HasRead (r r' : Run) (read : List String) : Prop where
  waits : Waits r'
  kept : Kept r r'
  running : r'.phase = .running
  unread : r.unread = read ++ r'.unread
  items : r'.items = r.items
  hits : r'.tasks.map Task.hit = (Hit.ofLines read).reverse ++ r.tasks.map Task.hit

theorem HasRead.trans {r r₁ r' : Run} {read more : List String} (first : HasRead r r₁ read)
    (second : HasRead r₁ r' more) : HasRead r r' (read ++ more) := by
  constructor
  · exact second.waits
  · exact first.kept.trans second.kept
  · exact second.running
  · rw [first.unread, second.unread, List.append_assoc]
  · exact second.items.trans first.items
  · rw [second.hits, first.hits, Hit.ofLines, Hit.ofLines, Hit.ofLines]
    rw [List.filterMap_append, List.reverse_append, List.append_assoc]

theorem hasRead_line {r : Run} (waits : Waits r) (running : r.phase = .running) {line : String}
    {rest : List String} (unread : r.unread = line :: rest) :
    HasRead r (r.after s [.readLine]) [line] := by
  cases parses : Hit.parse line with
  | ok hit =>
    have moves := Moves.hit (s := s) running unread parses
    rw [after_cons, moves.step?]
    constructor
    · exact ⟨waits.room, waits.unclosed, List.forall_mem_cons.mpr ⟨rfl, waits.queued⟩⟩
    · exact moves.kept
    · exact running
    · exact unread
    · rfl
    · simp [after, Hit.ofLines, parses, Except.toOption]
  | error fault =>
    have moves := Moves.junk (s := s) running unread parses
    rw [after_cons, moves.step?]
    constructor
    · exact ⟨waits.room, waits.unclosed, waits.queued⟩
    · exact moves.kept
    · exact running
    · exact unread
    · rfl
    · simp [after, Hit.ofLines, parses, Except.toOption]

theorem hasRead_of_reading {r : Run} (waits : Waits r) (running : r.phase = .running) :
    HasRead r (r.after s (List.replicate r.unread.length .readLine)) r.unread ∧
      (r.after s (List.replicate r.unread.length .readLine)).unread = [] := by
  generalize lines : r.unread = unread
  induction unread generalizing r with
  | nil => exact ⟨⟨waits, .refl r, running, by simp [after], rfl, rfl⟩, lines⟩
  | cons line rest ih =>
    have first := hasRead_line s waits running lines
    have unread : (r.after s [.readLine]).unread = rest := by
      have split := first.unread
      rw [lines] at split
      exact (List.cons.inj split).2.symm
    rcases ih first.waits first.running unread with ⟨others, none⟩
    rw [List.length_cons, List.replicate_succ, ← List.singleton_append, after_append]
    exact ⟨first.trans others, none⟩

/-- Of the task at a place: it is at its end, whether that has been noticed or not, and its hit has
come to its item unless results are dropped. -/
structure Over (r r' : Run) (before : List Task) (hit : Hit) (after : List Task) : Prop where
  kept : Kept r r'
  phase : r'.phase = r.phase
  tasks : r'.tasks = before ++ ⟨hit, .ended⟩ :: after ∨ r'.tasks = before ++ ⟨hit, .crashed⟩ :: after
  items : r.dropsAt s.latest = false →
    r'.items = (r.resolution s.reader hit).value?.toList ++ r.items

/-- The source line of a task is read. -/
theorem over_of_resolve {r : Run} {before after : List Task} {hit : Hit}
    (tasks : r.tasks = before ++ ⟨hit, .reading⟩ :: after) :
    Over s r (r.after s [.resolve before.length]) before hit after := by
  have ends {r' : Run} (moves : Moves s r (.resolve before.length) r') :
      r.after s [.resolve before.length] = r' := by
    rw [after_cons, moves.step?]
    rfl
  cases resolves : r.resolution s.reader hit with
  | value item =>
    cases drops : r.dropsAt s.latest with
    | true =>
      have moves := Moves.discardLate tasks resolves drops
      rw [ends moves]
      exact ⟨moves.kept, rfl, .inl rfl, by simp [drops]⟩
    | false =>
      have moves := Moves.keep tasks resolves drops
      rw [ends moves]
      exact ⟨moves.kept, rfl, .inl rfl, by simp [resolves, Outcome.value?]⟩
  | failed e =>
    have moves := Moves.unreadable (s := s) tasks resolves
    rw [ends moves]
    exact ⟨moves.kept, rfl, .inl rfl, by simp [resolves, Outcome.value?]⟩
  | crashed =>
    have moves := Moves.crash (s := s) tasks resolves
    rw [ends moves]
    exact ⟨moves.kept, rfl, .inr rfl, by simp [resolves, Outcome.value?]⟩

/-- A task gets its permit, and has its source line read or is dropped before. -/
theorem over_of_permit {r : Run} {before after : List Task} {hit : Hit} (unclosed : r.closed = false)
    (free : r.holders < r.limit) (tasks : r.tasks = before ++ ⟨hit, .queued⟩ :: after) :
    Over s r (r.after s [.permit before.length, .resolve before.length]) before hit after := by
  cases drops : r.dropsAt s.latest with
  | true =>
    have moves := Moves.discardEarly tasks unclosed free drops
    rw [after_cons, moves.step?, Option.getD_some, after_cons]
    simp only [step?, List.getElem?_append_right (Nat.le_refl _), Nat.sub_self,
      List.getElem?_cons_zero]
    exact ⟨moves.kept, rfl, .inl rfl, by simp [drops]⟩
  | false =>
    have moves := Moves.begin tasks unclosed free drops
    rw [after_cons, moves.step?, Option.getD_some]
    obtain ⟨kept, phase, atEnd, items⟩ := over_of_resolve s
      (r := { r with tasks := before ++ ⟨hit, .reading⟩ :: after }) rfl
    exact ⟨moves.kept.trans kept, phase, atEnd, items⟩

/-- One task less waits, and its hit has come to its item unless results are dropped. -/
structure Completes (r r' : Run) (hit : Hit) (rest : List Task) : Prop where
  waits : Waits r'
  kept : Kept r r'
  draining : r'.phase = .draining
  tasks : r'.tasks = rest
  items : r.dropsAt s.latest = false →
    r'.items = (r.resolution s.reader hit).value?.toList ++ r.items

/-- A task that waits comes to its end in three steps, of which one may be passed over. -/
theorem completes_of_waits {r : Run} {before after : List Task} {t : Task} (waits : Waits r)
    (draining : r.phase = .draining) (tasks : r.tasks = before ++ t :: after) :
    Completes s r
      (r.after s [.permit before.length, .resolve before.length, .join before.length]) t.hit
      (before ++ after) := by
  obtain ⟨hit, stage⟩ := t
  obtain rfl : stage = .queued := waits.queued ⟨hit, stage⟩ (by simp [tasks])
  have others : ∀ t ∈ before ++ after, t.stage = .queued := by
    intro t member
    apply waits.queued
    rw [tasks]
    rcases List.mem_append.mp member with first | last
    · exact List.mem_append_left _ first
    · exact List.mem_append_right _ (List.mem_cons_of_mem _ last)
  have free : r.holders < r.limit := by
    have none : r.holders = 0 :=
      List.countP_eq_zero.mpr (fun t ht => by simp [waits.queued t ht])
    have room := waits.room
    omega
  have ends := over_of_permit s waits.unclosed free tasks
  have split : r.after s [.permit before.length, .resolve before.length, .join before.length] =
      (r.after s [.permit before.length, .resolve before.length]).after s [.join before.length] :=
    after_append s [.permit before.length, .resolve before.length]
  rw [split]
  generalize r.after s [.permit before.length, .resolve before.length] = r₁ at ends
  obtain ⟨kept, phase, atEnd, items⟩ := ends
  have room : 0 < r₁.limit := kept.limit ▸ waits.room
  have unclosed : r₁.closed = false := kept.closed.trans waits.unclosed
  have draining : r₁.phase = .draining := phase.trans draining
  rcases atEnd with ended | crashed
  · have moves := Moves.joinEnded (s := s) draining ended
    rw [after_cons, moves.step?]
    exact ⟨⟨room, unclosed, others⟩, kept.trans moves.kept, draining, rfl, items⟩
  · have moves := Moves.joinCrashed (s := s) draining crashed
    rw [after_cons, moves.step?]
    exact ⟨⟨room, unclosed, others⟩, kept.trans moves.kept, draining, rfl, items⟩

theorem drained_of_completing {r : Run} (waits : Waits r) (draining : r.phase = .draining) :
    ∃ r', r.after s ((List.range r.tasks.length).reverse.flatMap
        (fun i => [.permit i, .resolve i, .join i])) = r' ∧
      r'.phase = .draining ∧ r'.tasks = [] := by
  generalize present : r.tasks = tasks
  induction tasks using List.reverseRecOn generalizing r with
  | nil => exact ⟨r, rfl, draining, present⟩
  | append_singleton rest t ih =>
    have completes := completes_of_waits s waits draining present
    rw [List.append_nil] at completes
    rw [List.length_append, List.length_singleton, List.range_succ, List.reverse_append,
      List.reverse_singleton, List.singleton_append, List.flatMap_cons, after_append]
    exact ih completes.waits completes.draining completes.tasks

theorem aborted_of_completing {r : Run} {e : Error} (aborting : r.phase = .aborting e) :
    ∃ r', r.after s (List.replicate r.tasks.length (.abort 0)) = r' ∧
      r'.phase = .aborting e ∧ r'.tasks = [] := by
  generalize present : r.tasks = tasks
  induction tasks generalizing r with
  | nil => exact ⟨r, rfl, aborting, present⟩
  | cons t rest ih =>
    have happens : r.step? s (.abort 0) = some (r.forget 0) := by
      simp [step?, aborting, present]
    rw [List.length_cons, List.replicate_succ, after_cons, happens, Option.getD_some]
    exact ih aborting (by simp [forget, present])

/-- **A run that nothing has happened to is at its end when it has been brought there.** -/
theorem settle_settled {r : Run} (fresh : Fresh r) (room : 0 < r.limit) :
    ∃ failure, (r.settle s).phase = .settled failure := by
  rcases hasRead_of_reading s (fresh.waits room) fresh.running with ⟨read, unread⟩
  have waits := read.waits
  have running := read.running
  unfold settle
  simp only [reading, after_append]
  generalize r.after s (List.replicate r.unread.length .readLine) = r₁ at *
  cases ending : r₁.ending with
  | none =>
    have drains : r₁.after s [.endOutput] = { r₁ with phase := .draining } := by
      simp [after, step?, running, unread, ending]
    rw [drains]
    obtain ⟨r₂, completed, draining, tasks⟩ :=
      drained_of_completing (r := { r₁ with phase := .draining }) s
        ⟨waits.room, waits.unclosed, waits.queued⟩ rfl
    refine ⟨none, ?_⟩
    simp only [completing, after_append, completed]
    simp [after, step?, draining, tasks]
  | some e =>
    have fails : r₁.after s [.endOutput] = { r₁ with phase := .aborting e } := by
      simp [after, step?, running, unread, ending]
    rw [fails]
    obtain ⟨r₂, completed, aborting, tasks⟩ :=
      aborted_of_completing (r := { r₁ with phase := .aborting e }) s rfl
    refine ⟨some e, ?_⟩
    simp only [completing, after_append, completed]
    simp [after, step?, aborting, tasks]

end SymbolNav.Run
