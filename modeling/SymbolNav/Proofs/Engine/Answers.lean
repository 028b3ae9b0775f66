/-
  SymbolNav/Proofs/Engine/Answers.lean
  ====================================
  **What the runs of an engine come to**, in any order of all that can happen.

  A question all of whose results are wanted is answered in full, just as if the
  lines were read and resolved one after the other (`settles_to_reference`), and
  so is one that is waited for at once (`queryComplete_fullAnswer`).  Of any run,
  also of one that drops late results, every hit is accounted for exactly once
  (`hits_conserved`).
-/
import SymbolNav.Proofs.Engine.Course
import SymbolNav.Proofs.Run.Reference
import SymbolNav.Proofs.Run.Settle

namespace SymbolNav.Engine

open Run (consumed pending)

/-! ### Full answers -/

/-- The action asks a question all of whose results are wanted. -/
inductive AsksForAll (e : Engine) (spec : QuerySpec) (cwd : Path) : Action → Prop
  | complete : AsksForAll e spec cwd (.startComplete spec cwd)
  | keeping (keeps : e.config.discardSuperseded = false) : AsksForAll e spec cwd (.start spec cwd)

/-- The result is the full answer: the failure of the indexer, whatever it wrote before, or all
that its lines resolve to one after the other, in any order. -/
def FullAnswer (spec : QuerySpec) (cwd : Path) (reader : SourceReader) (response : Response) :
    Except Error Run.Settled → Prop
  | .error e => response.exitCode ≠ some 0 ∧
      e = .processFailure response.exitCode (tidy response.stderr)
  | .ok s => response.exitCode = some 0 ∧ s.spec = spec ∧ s.cwd = cwd ∧
      s.items.Perm (spec.itemsOf reader cwd (Hit.ofLines response.lines)) ∧
      s.stats = spec.statsOf reader cwd response.lines

theorem failure?_eq_none {response : Response} (h : response.failure? = none) :
    response.exitCode = some 0 := by
  unfold Response.failure? at h
  split at h
  case isTrue succeeded => simpa [Response.succeeded] using succeeded
  case isFalse => cases h

theorem failure?_eq_some {response : Response} {e : Error} (h : response.failure? = some e) :
    response.exitCode ≠ some 0 ∧ e = .processFailure response.exitCode (tidy response.stderr) := by
  unfold Response.failure? at h
  split at h
  case isTrue => cases h
  case isFalse failed =>
    exact ⟨by simpa [Response.succeeded] using failed, (Option.some.inj h).symm⟩

theorem readLimit_le_permitBound {config : Config}
    (h : config.maxConcurrentReads ≤ permitBound) : config.readLimit ≤ permitBound :=
  Nat.max_le.mpr ⟨by decide, h⟩

section Asking

variable {e : Engine} {spec : QuerySpec} {cwd : Path} {response : Response} {machine : Host}

/-- When the indexer can be started and there can be as many permits as the settings ask for,
asking starts a run. -/
theorem spawn_of_launch (discards : Bool)
    (responds : e.Responds spec cwd response machine)
    (within : e.config.readLimit ≤ permitBound) :
    e.spawn spec cwd discards = (.value (e.opening spec cwd discards response), { e with
      host := machine, latest := e.latest + 1,
      runs := e.runs ++ [e.opening spec cwd discards response],
      lastQuery := some (commandLine e.config.indexer (e.config.argsFor spec)) }) := by
  have cases := spawns e spec cwd discards
  generalize e.spawn spec cwd discards = result at cases ⊢
  cases cases with
  | refused launch => cases responds.symm.trans launch
  | crashed responds' beyond => exact absurd within (Nat.not_le_of_lt beyond)
  | asked responds' within => cases responds.symm.trans responds'; rfl

/-- A question all of whose results are wanted starts a run that drops nothing. -/
theorem AsksForAll.started {a : Action} (asks : AsksForAll e spec cwd a)
    (responds : e.Responds spec cwd response machine)
    (within : e.config.readLimit ≤ permitBound) :
    ∃ e₁, e.act? a = some e₁ ∧ e.started? a = some (e.opening spec cwd false response) := by
  have value := congrArg Prod.fst (spawn_of_launch false responds within)
  cases asks with
  | complete => exact ⟨_, rfl, by simp [started?, startComplete, value, Outcome.value?]⟩
  | keeping keeps => exact ⟨_, rfl, by simp [started?, start, keeps, value, Outcome.value?]⟩

end Asking

/-- A run whose results never came too late settles well with the full answer, if it settles
well. -/
theorem fullAnswer_of_course {path : List (Surroundings × Run.Step)} {e : Engine}
    {spec : QuerySpec} {cwd : Path} {discards : Bool} {response : Response}
    {reader : SourceReader} {r : Run}
    (course : Run.Course path (e.opening spec cwd discards response) r)
    (reads : ∀ x ∈ path, x.1.reader = reader)
    (keeps : ∀ x ∈ path, (e.opening spec cwd discards response).dropsAt x.1.latest = false)
    {latest : Nat} {s : Run.Settled} (h : r.result? latest = some (.ok s)) :
    FullAnswer spec cwd reader response (.ok s) := by
  obtain ⟨settled, rfl⟩ := Run.result?_eq_ok.mp h
  obtain ⟨items, stats⟩ :=
    course.settled_complete reads settled (course.discarded_eq_zero keeps)
  have ending := (course.placed.drained (.inr settled)).2
  exact ⟨failure?_eq_none ending, course.kept.spec, course.kept.cwd, items, stats⟩

/-- A run that drops nothing settles with the full answer, unless its output could not be read. -/
theorem answer_of_course {path : List (Surroundings × Run.Step)} {e : Engine}
    {spec : QuerySpec} {cwd : Path} {response : Response} {reader : SourceReader} {r : Run}
    (course : Run.Course path (e.opening spec cwd false response) r)
    (reads : ∀ x ∈ path, x.1.reader = reader)
    {latest : Nat} {result : Except Error Run.Settled} (h : r.result? latest = some result) :
    FullAnswer spec cwd reader response result ∨
      ∃ s message, (s, .breakOff message) ∈ path ∧ result = .error (.io message) := by
  cases result with
  | ok s => exact .inl (fullAnswer_of_course course reads (fun _ _ => rfl) h)
  | error failure =>
    have settled := Run.result?_eq_error.mp h
    have gaveUp : r.error? = some failure := by simp [Run.error?, settled]
    rcases course.error_cases gaveUp with ending | ⟨s, message, member, rfl⟩
    · exact .inl (failure?_eq_some ending)
    · exact .inr ⟨s, message, member, rfl⟩

/-- **A question all of whose results are wanted is answered in full.**

Asking it starts a run, and then anything may happen, in any order, as long as source lines come
from one reader.  The run takes at most four steps for every line of the output and two more; until
it has settled, some step of it can happen, whatever the other runs do; and it settles with the full
answer, unless the output itself could not be read to its end. -/
theorem settles_to_reference {host : Host} {config : Config} {before : List Action} {e : Engine}
    (reached : (new host config).play? before = some e)
    {spec : QuerySpec} {cwd : Path} {a : Action} (asks : AsksForAll e spec cwd a)
    {response : Response} {machine : Host}
    (responds : e.Responds spec cwd response machine)
    (within : e.config.maxConcurrentReads ≤ permitBound) :
    ∃ run e₁, e.act? a = some e₁ ∧ e.started? a = some run ∧
      ∀ later e₂, e₁.play? later = some e₂ → ∀ reader, e₁.ReadsFrom reader later →
        (later.filterMap (Action.stepOf? run.generation)).length ≤
            4 * response.lines.length + 2 ∧
          (e₂.result? run.generation = none →
            ∃ step, (∀ message, step ≠ .breakOff message) ∧
              (e₂.step? run.generation step).isSome) ∧
          ∀ result, e₂.result? run.generation = some result →
            FullAnswer spec cwd reader response result ∨
              ∃ message, .step run.generation (.breakOff message) ∈ later ∧
                result = .error (.io message) := by
  have within := readLimit_le_permitBound within
  have numbered := numbered_of_play? (numbered_new host config) reached
  obtain ⟨e₁, happens, started⟩ := asks.started responds within
  refine ⟨_, e₁, happens, started, ?_⟩
  intro later e₂ plays reader reads
  obtain ⟨r, found, follows, course⟩ := exists_course numbered happens started plays
  refine ⟨?_, ?_, ?_⟩
  · have bound := Run.length_add_work_le follows
    have atStart : (e.opening spec cwd false response).work = 4 * response.lines.length + 2 := by
      simp [opening, Run.opened, Run.work, Run.tasksWork, Run.phaseWork]
    rw [← map_snd_pathOf plays, List.length_map]
    omega
  · intro unsettled
    have room := (run?_of_started? numbered happens started).2.2.2.2
    rw [← course.kept.limit] at room
    have onItsWay : ∀ failure, r.phase ≠ .settled failure := by
      intro failure settled
      cases failure <;> simp [result?, found, Run.result?, settled] at unsettled
    obtain ⟨step, r', reads, moves⟩ := Run.exists_moves e₂.surroundings room onItsWay
    exact ⟨step, reads, by simp [step?, found, moves.step?]⟩
  · intro result comes
    simp only [result?, found, Option.bind_some] at comes
    rcases answer_of_course course (reader_of_mem_pathOf plays reads) comes with
      full | ⟨s, message, member, broken⟩
    · exact .inl full
    · exact .inr ⟨message, mem_of_mem_pathOf plays member, broken⟩

namespace Sample

/-! An indexer that reports a hit and writes a line that is none, on a machine with one source
line, and settings under which superseded runs drop what comes late. -/

def response : Response := ⟨[97, 32, 102, 32, 50, 32, 120, 10, 63, 10], [], some 0⟩

def reader : SourceReader := fun _ _ => .text "f()"

def machine : Host where
  files := ⟨[([['i']], .file [] true)], []⟩
  searchPath := []
  program := fun _ files => (response, files)
  calls := []
  sources := some reader

def settings : Config := { Config.standard with indexer := "/i", discardSuperseded := true }

def engine : Engine := new machine settings

def root : Path := ⟨"/"⟩

def question : QuerySpec := ⟨.symbol, "f"⟩

/-- A run reads the output and brings its task to the end. -/
def toTheEnd (generation : Nat) : List Action :=
  [Run.Step.readLine, .readLine, .endOutput, .permit 0, .resolve 0, .join 0, .close].map
    (.step generation)

/-- A hit waits for its permit when a newer question is asked. -/
def overtaken : List Action :=
  [.start question root, .step 1 .readLine, .start question root, .step 1 (.permit 0)]

end Sample

open Sample in
/-- A question is asked for all of its results, and a second one before any line is read. -/
theorem settles_to_reference_superseded :
    ∃ e₁ e₂ s, engine.act? (.startComplete question root) = some e₁ ∧
      e₁.play? (.start question root :: toTheEnd 1) = some e₂ ∧ e₂.result? 1 = some (.ok s) ∧
      s.items.Perm (question.itemsOf reader root (Hit.ofLines response.lines)) := by
  have reached : (new machine settings).play? [] = some engine := rfl
  have asks : AsksForAll engine question root (.startComplete question root) := .complete
  obtain ⟨machine', responds⟩ : ∃ machine', engine.Responds question root response machine' :=
    ⟨_, by rfl⟩
  obtain ⟨run, e₁, happens, started, answered⟩ :=
    settles_to_reference reached asks responds (by decide)
  have number : run.generation = 1 := by
    have first : (engine.started? (.startComplete question root)).map
        Run.generation = some 1 := by decide +kernel
    simpa [started] using first
  have ends : (((engine.act? (.startComplete question root)).bind
      (·.play? (.start question root :: toTheEnd 1))).bind (·.result? 1)
      |>.filter (·.isOk)).isSome := by decide +kernel
  rw [happens, Option.bind_some] at ends
  obtain ⟨result, seen⟩ := Option.isSome_iff_exists.mp ends
  obtain ⟨comes, ok⟩ := Option.filter_eq_some_iff.mp seen
  obtain ⟨e₂, plays, comes⟩ := Option.bind_eq_some_iff.mp comes
  cases result with
  | error e => cases ok
  | ok s =>
    have given : e₁.host.sources = some reader :=
      sources_of_act? happens (fun _ => by simp)
    have reads : e₁.ReadsFrom reader (.start question root :: toTheEnd 1) :=
      readsFrom_of_sources given (by simp [toTheEnd])
    obtain ⟨-, -, full⟩ := answered _ e₂ plays reader reads
    rcases full (.ok s) (number ▸ comes) with ⟨-, -, -, items, -⟩ | ⟨message, -, broken⟩
    · exact ⟨e₁, e₂, s, happens, plays, comes, items⟩
    · cases broken

/-! ### Waiting at once -/

/-- A run that is waited for as soon as it has been started comes to its end. -/
theorem await_of_started? {e e₁ : Engine} {a : Action} {run : Run} (numbered : Numbered e)
    (happens : e.act? a = some e₁) (started : e.started? a = some run) :
    ∃ result, (e₁.await run.generation).1 = .ofExcept result ∧
      (run.settle e₁.surroundings).result? e₁.latest = some result := by
  obtain ⟨found, -, -, fresh, room⟩ := run?_of_started? numbered happens started
  obtain ⟨failure, settled⟩ := Run.settle_settled e₁.surroundings fresh room
  obtain ⟨result, comes⟩ :
      ∃ result, (run.settle e₁.surroundings).result? e₁.latest = some result := by
    cases failure <;> simp [Run.result?, settled]
  have there : (e₁.settle run.generation).result? run.generation = some result := by
    have found' := run?_updateRun_self (f := (·.settle e₁.surroundings)) found (fun r own => by
      obtain ⟨path, follows, -⟩ := Run.exists_follow_settle e₁.surroundings r
      exact (Run.kept_of_follow? follows).generation.trans own)
    simp only [result?, settle, found', Option.bind_some]
    exact comes
  exact ⟨result, by simp [await, there], comes⟩

/-- Asking a question and waiting for the whole answer gives the full answer. -/
theorem queryComplete_fullAnswer {e : Engine} (numbered : Numbered e) {spec : QuerySpec}
    {cwd : Path} {response : Response} {machine : Host}
    (responds : e.Responds spec cwd response machine)
    (within : e.config.maxConcurrentReads ≤ permitBound) :
    ∃ result, (e.queryComplete spec cwd).1 = .ofExcept result ∧
      FullAnswer spec cwd machine.reader response result := by
  have within := readLimit_le_permitBound within
  obtain ⟨e₁, host, spawned⟩ : ∃ e₁ : Engine, e₁.host = machine ∧
      e.startComplete spec cwd = (.value (e.opening spec cwd false response), e₁) :=
    ⟨_, rfl, spawn_of_launch false responds within⟩
  have happens : e.act? (.startComplete spec cwd) = some e₁ := by simp [act?, spawned]
  have started : e.started? (.startComplete spec cwd) =
      some (e.opening spec cwd false response) := by
    simp [started?, spawned, Outcome.value?]
  obtain ⟨result, awaits, comes⟩ := await_of_started? numbered happens started
  obtain ⟨path, follows, known⟩ :=
    Run.exists_follow_settle e₁.surroundings (e.opening spec cwd false response)
  have course := Run.course_of_follow? (run?_of_started? numbered happens started).2.2.2.1 follows
  have reads : ∀ x ∈ path, x.1.reader = machine.reader := by
    intro x member
    rw [(known x member).1, ← host]
    rfl
  refine ⟨result, ?_, ?_⟩
  · simp [queryComplete, spawned, awaitStarted, awaits]
  · rcases answer_of_course course reads comes with full | ⟨s, message, member, -⟩
    · exact full
    · exact absurd rfl ((known _ member).2 message)

/-! ### Conservation -/

/-- The run `r`, as it is now, has accounted for everything since its start. -/
structure Conserves (o : Start) (r : Run) : Prop where
  /-- No task is ever refused its permit, which would leave no trace of its hit. -/
  permits : r.closed = false
  reading : consumed o.run r ++ r.unread = o.run.unread
  lines : (consumed o.run r).length = r.stats.hits + r.stats.droppedLines
  hits : r.error? = none →
    r.stats.hits =
      r.items.length + r.stats.droppedItems + r.stats.discarded + (pending r).length
  settled : ∀ latest s, r.result? latest = some (.ok s) →
    s.stats.hits = s.items.length + s.stats.droppedItems + s.stats.discarded
  /-- Each item belongs to a hit of its own, which resolved to it when its line was read. -/
  origins : ∃ origins : List (Hit × Item), origins.map Prod.snd = r.items ∧
    (origins.map Prod.fst).Subperm (Hit.ofLines (consumed o.run r)) ∧
    ∀ x ∈ origins, ∃ y ∈ pathOf o.run.generation o.after o.later,
      o.run.resolution y.1.reader x.1 = .value x.2
  items : ∀ reader, o.after.ReadsFrom reader o.later →
    r.items.Subperm (o.run.spec.itemsOf reader o.run.cwd (Hit.ofLines (consumed o.run r)))

theorem Since.conserves {o : Start} {e : Engine} {r : Run} (h : Since o e r) : Conserves o r where
  permits := h.course.unclosed
  reading := h.course.consumed_append
  lines := h.course.lines_eq
  hits := h.course.conserved
  settled := by
    intro latest s settles
    obtain ⟨settled, rfl⟩ := Run.result?_eq_ok.mp settles
    have total := h.course.conserved (by simp [Run.error?, settled])
    have finished : pending r = [] := by simp [pending, h.course.placed.finished _ settled]
    simpa [finished] using total
  origins := h.course.exists_origins
  items := fun _ reads => h.course.items_subperm (reader_of_mem_pathOf h.plays reads)

/-- **Conservation of hits**: whatever has happened to an engine, each of its runs has accounted
for all of its hits and lines since its start. -/
theorem hits_conserved {host : Host} {config : Config} {actions : List Action} {e : Engine}
    (reached : (new host config).play? actions = some e) {r : Run} (member : r ∈ e.runs) :
    ∃ o ∈ (new host config).starts actions, o.run.generation = r.generation ∧ Conserves o r := by
  obtain ⟨o, start, since⟩ := exists_since reached member
  exact ⟨o, start, since.generation.symm, since.conserves⟩

open Sample in
/-- The hit that was overtaken is discarded. -/
theorem hits_conserved_overtaken :
    ∃ e r, engine.play? overtaken = some e ∧ r ∈ e.runs ∧ r.stats.discarded = 1 ∧
      r.stats.hits =
        r.items.length + r.stats.droppedItems + r.stats.discarded + (pending r).length := by
  have ends : (((engine.play? overtaken).bind (·.run? 1)).filter
      (fun r => r.error? = none ∧ r.stats.discarded = 1)).isSome := by decide +kernel
  obtain ⟨r, seen⟩ := Option.isSome_iff_exists.mp ends
  obtain ⟨found, counted⟩ := Option.filter_eq_some_iff.mp seen
  obtain ⟨e, plays, found⟩ := Option.bind_eq_some_iff.mp found
  obtain ⟨carriesOn, discarded⟩ := of_decide_eq_true counted
  have member : r ∈ e.runs := List.mem_of_find?_eq_some found
  obtain ⟨o, -, -, conserves⟩ := hits_conserved plays member
  exact ⟨e, r, plays, member, discarded, conserves.hits carriesOn⟩

end SymbolNav.Engine
