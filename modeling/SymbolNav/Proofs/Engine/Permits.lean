/-
  SymbolNav/Proofs/Engine/Permits.lean
  ====================================
  **How many permits the settings may ask for.**

  There can be at most `permitBound` of them, but settings that ask for more are valid,
  too.  Under such settings a question crashes when the indexer has been started and a
  number has been taken; so no run bears that number, and all earlier runs are
  superseded by nothing (`Breaks`).

  Nothing else can go wrong: a run that has been started comes to its end when it is
  waited for (`await_of_started?`).  So asking is `Safe` if and only if there can be as
  many permits as the settings ask for, or if the indexer cannot even be started
  (`safe_iff`).
-/
import SymbolNav.Proofs.Engine.Supersession

namespace SymbolNav.Engine

/-- Asking this question comes to a value or an error, in whatever way it is asked.  Where it starts
no run, it leaves the earlier runs as they are, and the latest of them the latest. -/
structure Safe (e : Engine) (spec : QuerySpec) (cwd : Path) : Prop where
  start : (e.start spec cwd).1 ≠ .crashed
  query : (e.query spec cwd).1 ≠ .crashed
  queryComplete : (e.queryComplete spec cwd).1 ≠ .crashed
  unstarted : (e.start spec cwd).1.value? = none →
    Undisturbed e (e.start spec cwd).2 ∧ Undisturbed e (e.query spec cwd).2
  unstartedComplete : (e.startComplete spec cwd).1.value? = none →
    Undisturbed e (e.queryComplete spec cwd).2

/-- Asking this question crashes, in whatever way it is asked, and a number is taken for no run. -/
structure Breaks (e : Engine) (spec : QuerySpec) (cwd : Path) : Prop where
  start : (e.start spec cwd).1 = .crashed
  query : (e.query spec cwd).1 = .crashed
  queryComplete : (e.queryComplete spec cwd).1 = .crashed
  latest : (e.start spec cwd).2.latest = e.latest + 1
  runs : (e.start spec cwd).2.runs = e.runs
  superseded : ∀ r ∈ e.runs, r.supersededAt (e.start spec cwd).2.latest = true

/-- There can be as many permits as the settings ask for, or the indexer cannot be started for this
question. -/
def Admits (e : Engine) (spec : QuerySpec) (cwd : Path) : Prop :=
  e.config.maxConcurrentReads ≤ permitBound ∨
    ∃ fault, e.host.launch e.config.indexer (e.config.argsFor spec) cwd = .error fault

section Asking

variable {e : Engine} {spec : QuerySpec} {cwd : Path}

/-! ### Asking that goes well -/

theorem Admits.spawn (admits : e.Admits spec cwd) (discards : Bool) :
    (e.spawn spec cwd discards).1 ≠ .crashed ∧
      ((e.spawn spec cwd discards).1.value? = none →
        Undisturbed e (e.spawn spec cwd discards).2) := by
  have cases := spawns e spec cwd discards
  generalize e.spawn spec cwd discards = result at cases ⊢
  cases cases with
  | refused launch => exact ⟨nofun, fun _ => ⟨rfl, rfl, rfl⟩⟩
  | asked responds within => exact ⟨nofun, nofun⟩
  | crashed responds beyond =>
    rcases admits with within | ⟨fault, refused⟩
    · exact absurd (readLimit_le_permitBound within) (Nat.not_le_of_lt beyond)
    · cases responds.symm.trans refused

/-- Waiting at once adds no crash. -/
theorem awaitStarted_ne_crashed {a : Action} {asked : Outcome Run × Engine}
    (numbered : Numbered e) (happens : e.act? a = some asked.2)
    (started : e.started? a = asked.1.value?) (uncrashed : asked.1 ≠ .crashed) :
    (awaitStarted asked).1 ≠ .crashed := by
  obtain ⟨outcome, e₁⟩ := asked
  cases outcome with
  | value run =>
    obtain ⟨result, awaits, -⟩ := await_of_started? numbered happens started
    show (e₁.await run.generation).1 ≠ .crashed
    rw [awaits]
    cases result <;> nofun
  | failed fault => nofun
  | crashed => exact absurd rfl uncrashed

/-- Where no run has been started there is nothing to wait for. -/
theorem awaitStarted_of_unstarted {asked : Outcome Run × Engine}
    (unstarted : asked.1.value? = none) : (awaitStarted asked).2 = asked.2 := by
  obtain ⟨outcome, e₁⟩ := asked
  cases outcome with
  | value run => cases unstarted
  | failed fault => rfl
  | crashed => rfl

theorem Admits.safe (admits : e.Admits spec cwd) (numbered : Numbered e) : Safe e spec cwd := by
  obtain ⟨uncrashed, undisturbed⟩ := admits.spawn e.config.discardSuperseded
  obtain ⟨uncrashed', undisturbed'⟩ := admits.spawn false
  exact {
    start := uncrashed
    query := awaitStarted_ne_crashed (a := .start spec cwd) numbered rfl rfl uncrashed
    queryComplete :=
      awaitStarted_ne_crashed (a := .startComplete spec cwd) numbered rfl rfl uncrashed'
    unstarted := by
      intro unstarted
      have same : (e.query spec cwd).2 = (e.start spec cwd).2 :=
        awaitStarted_of_unstarted unstarted
      rw [same]
      exact ⟨undisturbed unstarted, undisturbed unstarted⟩
    unstartedComplete := by
      intro unstarted
      have same : (e.queryComplete spec cwd).2 = (e.startComplete spec cwd).2 :=
        awaitStarted_of_unstarted unstarted
      rw [same]
      exact undisturbed' unstarted }

/-! ### Asking that crashes -/

/-- When the indexer has been started and there cannot be so many permits, asking crashes. -/
theorem spawn_beyond {response : Response} {machine : Host} (discards : Bool)
    (responds : e.Responds spec cwd response machine)
    (beyond : permitBound < e.config.maxConcurrentReads) :
    e.spawn spec cwd discards = (.crashed, { e with
      host := machine, latest := e.latest + 1,
      lastQuery := some (commandLine e.config.indexer (e.config.argsFor spec)) }) := by
  have above : permitBound < e.config.readLimit := Nat.lt_of_lt_of_le beyond (Nat.le_max_right ..)
  have cases := spawns e spec cwd discards
  generalize e.spawn spec cwd discards = result at cases ⊢
  cases cases with
  | refused launch => cases responds.symm.trans launch
  | crashed responds' beyond' => cases responds.symm.trans responds'; rfl
  | asked responds' within => exact absurd within (Nat.not_le_of_lt above)

theorem breaks_of_beyond {response : Response} {machine : Host} (numbered : Numbered e)
    (responds : e.Responds spec cwd response machine)
    (beyond : permitBound < e.config.maxConcurrentReads) : Breaks e spec cwd := by
  have started := spawn_beyond e.config.discardSuperseded responds beyond
  have complete := spawn_beyond false responds beyond
  have latest : (e.start spec cwd).2.latest = e.latest + 1 := by rw [start, started]
  exact {
    start := by rw [start, started]
    query := by rw [query, start, started]; rfl
    queryComplete := by rw [queryComplete, startComplete, complete]; rfl
    latest := latest
    runs := by rw [start, started]
    superseded := by
      intro r member
      have bound := numbered.bounded r member
      rw [supersededAt_eq_true, latest]
      omega }

end Asking

/-- **Asking is safe if and only if there can be as many permits as the settings ask for**, or the
indexer cannot be started anyway.  This is so whatever has happened to the engine, and valid
settings are no exception: where asking is not safe, it crashes, and all earlier runs are superseded
though no newer one has started. -/
theorem safe_iff {host : Host} {config : Config} {actions : List Action} {e : Engine}
    (reached : (new host config).play? actions = some e) (spec : QuerySpec) (cwd : Path) :
    (Safe e spec cwd ↔ e.Admits spec cwd) ∧ (¬ Safe e spec cwd → Breaks e spec cwd) := by
  have numbered := numbered_of_play? (numbered_new host config) reached
  have breaks (excess : ¬ e.Admits spec cwd) : Breaks e spec cwd := by
    obtain ⟨beyond, starts⟩ := not_or.mp excess
    cases launch : e.host.launch e.config.indexer (e.config.argsFor spec) cwd with
    | error fault => exact absurd ⟨fault, launch⟩ starts
    | ok started => exact breaks_of_beyond numbered launch (Nat.lt_of_not_le beyond)
  refine ⟨⟨fun safe => ?_, fun admits => admits.safe numbered⟩, fun crashes => ?_⟩
  · by_contra excess
    exact safe.start (breaks excess).start
  · exact breaks (fun admits => crashes (admits.safe numbered))

open Sample in
/-- A question under the usual settings, when another is on its way. -/
theorem safe_iff_usual :
    ∃ e, engine.play? [.start question root] = some e ∧ Safe e question root := by
  have ends : (engine.play? [.start question root]).isSome := by decide +kernel
  obtain ⟨e, reached⟩ := Option.isSome_iff_exists.mp ends
  have usual : e.config.maxConcurrentReads = 64 := by
    cases Option.some.inj reached
    decide +kernel
  have admits : e.Admits question root := .inl (by rw [usual]; decide)
  exact ⟨e, reached, (safe_iff reached question root).1.mpr admits⟩

open Sample in
/-- Valid settings under which a question crashes, and the run before it is superseded by none. -/
theorem crash_of_valid :
    let greedy : Config := { settings with maxConcurrentReads := permitBound + 1 }
    greedy.Valid ∧
      ((engine.play? [.start question root, .setConfig greedy]).map fun e =>
        ((e.start question root).1, e.runs.map (·.supersededAt e.latest),
          (e.start question root).2.runs.map
            (·.supersededAt (e.start question root).2.latest))) =
        some (.crashed, [false], [true]) := by
  decide +kernel

end SymbolNav.Engine
