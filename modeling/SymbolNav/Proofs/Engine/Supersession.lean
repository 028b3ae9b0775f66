/-
  SymbolNav/Proofs/Engine/Supersession.lean
  =========================================
  **Newer questions and older ones.**

  A run is superseded when a newer one has started.  That is read off one number,
  which only a question that has started a run may move: as long as there can be
  as many permits as the settings ask for, the runs of an engine are numbered
  from one to the latest without a gap (`Counted`).  All else follows from the
  numbers that a run has met on its path.  They are its own until a newer run
  starts, and never again afterwards; so a run that is not superseded has dropped
  nothing, and a run that drops late results has no more items from then on.
-/
import SymbolNav.Proofs.Engine.Answers

namespace SymbolNav.Engine

open Run (Moves)

/-! ### Starts -/

/-- The action is a build, or a question that starts no run. -/
inductive StartsNothing (e : Engine) : Action → Prop
  | build (cwd : Path) : StartsNothing e (.startBuild cwd)
  | start {spec cwd} (unasked : (e.start spec cwd).1.value? = none) :
      StartsNothing e (.start spec cwd)
  | startComplete {spec cwd} (unasked : (e.startComplete spec cwd).1.value? = none) :
      StartsNothing e (.startComplete spec cwd)

/-- Runs, their numbers and the settings are the same. -/
structure Undisturbed (e e' : Engine) : Prop where
  latest : e'.latest = e.latest
  runs : e'.runs = e.runs
  config : e'.config = e.config

theorem undisturbed_of_spawns {e : Engine} {spec : QuerySpec} {cwd : Path} {discards : Bool}
    {result : Outcome Run × Engine} (h : Spawns e spec cwd discards result)
    (unasked : result.1.value? = none) (within : e.config.readLimit ≤ permitBound) :
    Undisturbed e result.2 := by
  cases h with
  | refused launch => exact ⟨rfl, rfl, rfl⟩
  | crashed responds beyond => exact absurd within (Nat.not_le_of_lt beyond)
  | asked responds within => simp [Outcome.value?] at unasked

/-- What starts no run leaves everything else as it was. -/
theorem StartsNothing.undisturbed {e e' : Engine} {a : Action} (h : StartsNothing e a)
    (happens : e.act? a = some e') (within : e.config.readLimit ≤ permitBound) :
    Undisturbed e e' := by
  cases h with
  | build cwd =>
    cases Option.some.inj happens
    have cases := builds e cwd
    generalize e.startBuild cwd = result at cases
    cases cases with
    | refused launch | responded launch => exact ⟨rfl, rfl, rfl⟩
  | @start spec cwd unasked =>
    cases Option.some.inj happens
    exact undisturbed_of_spawns (spawns e spec cwd _) unasked within
  | @startComplete spec cwd unasked =>
    cases Option.some.inj happens
    exact undisturbed_of_spawns (spawns e spec cwd false) unasked within

/-! ### Numbers without a gap -/

/-- The runs are numbered from one to the latest number. -/
def Counted (e : Engine) : Prop := e.runs.map Run.generation = List.range' 1 e.latest

/-- There can be as many permits as the settings ask for. -/
def Within (e : Engine) : Prop := e.config.readLimit ≤ permitBound

theorem Acts.counted {e e' : Engine} {a : Action} (h : Counted e) (within : Within e)
    (acts : Acts e a e') : Counted e' := by
  unfold Counted at *
  cases acts with
  | idle latest runs => rw [latest, runs, h]
  | lost latest runs beyond => exact absurd within (Nat.not_le_of_lt beyond)
  | started latest runs generation =>
    rw [latest, runs, List.map_append, h, List.range'_concat]
    simp [generation, Nat.add_comm]
  | stepped run moves =>
    rw [map_generation_updateRun (moves.kept.generation.trans (generation_of_run? run)), h]
    rfl

theorem within_of_act? {e e' : Engine} {a : Action} (h : Within e)
    (bounded : ∀ config, a = .setConfig config → config.maxConcurrentReads ≤ permitBound)
    (happens : e.act? a = some e') : Within e' := by
  have same (config : e'.config = e.config) : Within e' := by rwa [Within, config]
  cases a with
  | start spec cwd =>
    cases Option.some.inj happens
    exact same (config_spawn ..)
  | startComplete spec cwd =>
    cases Option.some.inj happens
    exact same (config_spawn ..)
  | startBuild cwd =>
    cases Option.some.inj happens
    exact same (config_startBuild ..)
  | setConfig config =>
    cases Option.some.inj happens
    exact readLimit_le_permitBound (bounded config rfl)
  | changeHost host => cases Option.some.inj happens; exact h
  | step g step =>
    refine same ?_
    simp only [act?, step?] at happens
    split at happens
    case h_1 => cases happens
    case h_2 r run =>
      obtain ⟨r', -, rfl⟩ := Option.map_eq_some_iff.mp happens
      rfl

theorem counted_of_play? {e e' : Engine} {actions : List Action} (h : Counted e)
    (within : Within e)
    (bounded : ∀ config, .setConfig config ∈ actions → config.maxConcurrentReads ≤ permitBound)
    (plays : e.play? actions = some e') : Counted e' ∧ Within e' := by
  induction actions generalizing e with
  | nil => cases Option.some.inj plays; exact ⟨h, within⟩
  | cons a actions ih =>
    obtain ⟨e₁, happens, rest⟩ := play?_cons.mp plays
    have first : Within e₁ :=
      within_of_act? within (fun config is => bounded config (by simp [is])) happens
    exact ih ((acts_of_act? happens).counted h within) first
      (fun config member => bounded config (List.mem_cons_of_mem a member)) rest

theorem Counted.length_eq {e : Engine} (h : Counted e) : e.runs.length = e.latest := by
  have lengths := congrArg List.length h
  simpa using lengths

theorem Counted.increasing {e : Engine} (h : Counted e) :
    e.runs.Pairwise (fun r r' => r.generation < r'.generation) := by
  have range : (e.runs.map Run.generation).Pairwise (· < ·) := h ▸ List.pairwise_lt_range'
  exact List.pairwise_map.mp range

theorem supersededAt_eq_true {r : Run} {latest : Nat} :
    r.supersededAt latest = true ↔ latest ≠ r.generation := by
  simp [Run.supersededAt]

theorem supersededAt_eq_false {r : Run} {latest : Nat} :
    r.supersededAt latest = false ↔ latest = r.generation := by
  simp [Run.supersededAt]

/-- Of the runs there are, exactly the latest is not superseded. -/
theorem Counted.existsUnique_latest {e : Engine} (h : Counted e) (nonempty : e.runs ≠ []) :
    ∃! r, r ∈ e.runs ∧ r.supersededAt e.latest = false := by
  have positive : 0 < e.latest := h.length_eq ▸ List.length_pos_iff.mpr nonempty
  have last : e.latest ∈ e.runs.map Run.generation := by
    rw [h, List.mem_range'_1]
    omega
  obtain ⟨r, member, number⟩ := List.mem_map.mp last
  refine ⟨r, ⟨member, supersededAt_eq_false.mpr number.symm⟩, ?_⟩
  rintro r' ⟨member', unsuperseded⟩
  have number' : r'.generation = e.latest := (supersededAt_eq_false.mp unsuperseded).symm
  have found := run?_of_mem member h.increasing
  have found' := run?_of_mem member' h.increasing
  rw [number'] at found'
  rw [number] at found
  exact Option.some.inj (found'.symm.trans found)

/-! ### Late results -/

/-- Where late results are dropped, a step adds no item. -/
theorem items_of_moves {s : Surroundings} {r r' : Run} {step : Run.Step}
    (moves : Moves s r step r') (drops : r.dropsAt s.latest = true) : r'.items = r.items := by
  cases moves with
  | keep tasks resolves keeps => simp [drops] at keeps
  | _ => rfl

/-- A superseded run that drops late results has no more items from then on. -/
theorem items_of_follow? {path : List (Surroundings × Run.Step)} {r r' : Run}
    (follows : r.follow? path = some r') (drops : ∀ x ∈ path, r.dropsAt x.1.latest = true) :
    r'.items = r.items := by
  have invariant : Run.Kept r r' ∧ r'.items = r.items := by
    refine Run.follow_induction (P := fun r' => Run.Kept r r' ∧ r'.items = r.items)
      ⟨.refl r, rfl⟩ follows ?_
    rintro x member r₁ r₂ ⟨kept, same⟩ moves
    have late : r₁.dropsAt x.1.latest = true := kept.dropsAt _ ▸ drops x member
    exact ⟨kept.trans moves.kept, (items_of_moves moves late).trans same⟩
  exact invariant.2

/-- Whatever happens later, a superseded run is superseded. -/
theorem exists_superseded {e e' : Engine} {r : Run} {more : List Action} (numbered : Numbered e)
    (member : r ∈ e.runs) (superseded : r.supersededAt e.latest = true)
    (plays : e.play? more = some e') :
    ∃ r', e'.run? r.generation = some r' ∧ r.follow? (pathOf r.generation e more) = some r' ∧
      r'.supersededAt e'.latest = true ∧
      ∀ x ∈ pathOf r.generation e more, r.supersededAt x.1.latest = true := by
  obtain ⟨r', found, follows⟩ := follow?_pathOf plays (run?_of_mem member numbered.increasing)
  have older := numbered.bounded r member
  have newer := latest_le_of_play? plays
  have kept := Run.kept_of_follow? follows
  rw [supersededAt_eq_true] at superseded
  refine ⟨r', found, follows, ?_, fun x hx => ?_⟩
  · rw [supersededAt_eq_true, kept.generation]
    omega
  · have met := (latest_of_mem_pathOf plays x hx).1
    rw [supersededAt_eq_true]
    omega

/-! ### Supersession -/

/-- The run drops what comes after a newer run has started. -/
def Start.DropsLate (o : Start) : Prop :=
  (∃ spec cwd, o.action = .start spec cwd) ∧ o.before.config.discardSuperseded = true

/-- The result holds all that the response of the indexer has: every hit was resolved once, when
its source line was read, and so it is the full answer if the lines came from one reader. -/
def Start.Complete (o : Start) (s : Run.Settled) : Prop :=
  ∃ response machine,
    o.before.Responds o.run.spec o.run.cwd response machine ∧
    (∃ outcomes : List (Hit × Option Item),
      (Hit.ofLines response.lines).Perm (outcomes.map Prod.fst) ∧
      s.items = outcomes.filterMap Prod.snd ∧
      s.stats.droppedItems = outcomes.countP (fun x => x.2.isNone) ∧
      ∀ x ∈ outcomes, ∃ y ∈ pathOf o.run.generation o.after o.later,
        (o.run.resolution y.1.reader x.1).value? = x.2) ∧
    ∀ reader, o.after.ReadsFrom reader o.later →
      FullAnswer o.run.spec o.run.cwd reader response (.ok s)

/-- A run drops late results if and only if its start says so. -/
theorem Since.discards_iff {o : Start} {e : Engine} {r : Run} (h : Since o e r) :
    o.run.discards = true ↔ o.DropsLate := by
  obtain ⟨spec, cwd, discards, response, machine, run, -, origin⟩ := opening_of_started? h.started
  have same : o.run.discards = discards := by rw [run]; rfl
  rw [same, Start.DropsLate]
  rcases origin with ⟨action, rfl⟩ | ⟨action, rfl⟩
  · simp [action]
  · simp [action]

/-- A run that has discarded a hit drops late results, and a newer one has started. -/
theorem Since.late_of_discarded {o : Start} {e : Engine} {r : Run} (h : Since o e r)
    (discarded : 0 < r.stats.discarded) : o.DropsLate ∧ r.generation < e.latest := by
  have late : ∃ x ∈ pathOf o.run.generation o.after o.later, o.run.dropsAt x.1.latest = true := by
    by_contra never
    have keeps : ∀ x ∈ pathOf o.run.generation o.after o.later,
        o.run.dropsAt x.1.latest = false := by
      intro x hx
      by_contra drops
      exact never ⟨x, hx, by simpa using drops⟩
    have none := h.course.discarded_eq_zero keeps
    omega
  obtain ⟨x, member, drops⟩ := late
  simp only [Run.dropsAt, Bool.and_eq_true, supersededAt_eq_true] at drops
  have met := h.met x member
  refine ⟨h.discards_iff.mp drops.1, ?_⟩
  rw [h.generation]
  omega

/-- A run that settles well before a newer one starts is complete. -/
theorem Since.complete {o : Start} {e : Engine} {r : Run} (h : Since o e r) {s : Run.Settled}
    (settles : r.result? e.latest = some (.ok s)) (current : s.superseded = false) :
    s.stats.discarded = 0 ∧ o.Complete s := by
  obtain ⟨settled, rfl⟩ := Run.result?_eq_ok.mp settles
  have latest : e.latest = r.generation := supersededAt_eq_false.mp current
  have keeps : ∀ x ∈ pathOf o.run.generation o.after o.later,
      o.run.dropsAt x.1.latest = false := by
    intro x hx
    have met := h.met x hx
    have own : x.1.latest = o.run.generation := by
      rw [latest, h.generation] at met
      omega
    simp [Run.dropsAt, supersededAt_eq_false.mpr own]
  have undiscarded := h.course.discarded_eq_zero keeps
  refine ⟨undiscarded, ?_⟩
  obtain ⟨spec, cwd, discards, response, machine, run, responds, -⟩ :=
    opening_of_started? h.started
  have course := h.course
  have outcomes := h.course.exists_outcomes settled undiscarded
  rw [run] at course keeps
  have unread : o.run.unread = response.lines := by rw [run]; rfl
  have asked : o.run.spec = spec ∧ o.run.cwd = cwd := by rw [run]; exact ⟨rfl, rfl⟩
  rw [unread] at outcomes
  refine ⟨response, machine, by rw [asked.1, asked.2]; exact responds, outcomes, ?_⟩
  intro reader reads
  rw [asked.1, asked.2]
  refine fullAnswer_of_course course ?_ keeps settles
  rw [← run]
  exact reader_of_mem_pathOf h.plays reads

/-- What supersession comes down to for an engine that was new, after some actions. -/
structure Supersession (host : Host) (config : Config) (actions : List Action) (e : Engine) :
    Prop where
  /-- Each start of a run takes one number, and nothing else does. -/
  counted : e.latest = ((new host config).starts actions).length
  runs : e.runs.map Run.generation = ((new host config).starts actions).map (·.run.generation)
  increasing : ((new host config).starts actions).Pairwise
    (fun o newer => o.run.generation < newer.run.generation)
  startsNothing : ∀ a e', StartsNothing e a → e.act? a = some e' → Undisturbed e e'
  unique : e.runs ≠ [] → ∃! r, r ∈ e.runs ∧ r.supersededAt e.latest = false
  lasting : ∀ r ∈ e.runs, r.supersededAt e.latest = true → ∀ more e', e.play? more = some e' →
    ∃ r', e'.run? r.generation = some r' ∧ r'.supersededAt e'.latest = true
  discarding : ∀ r ∈ e.runs, 0 < r.stats.discarded →
    ∃ o ∈ (new host config).starts actions, o.run.generation = r.generation ∧ o.DropsLate ∧
      ∃ newer ∈ (new host config).starts actions, r.generation < newer.run.generation
  frozen : ∀ o ∈ (new host config).starts actions, o.DropsLate →
    ∀ newer ∈ (new host config).starts actions, o.run.generation < newer.run.generation →
    ∃ r, e.run? o.run.generation = some r ∧ ∀ more e', e.play? more = some e' →
      ∃ r', e'.run? o.run.generation = some r' ∧ r'.items = r.items
  complete : ∀ g s, e.result? g = some (.ok s) → s.superseded = false →
    s.stats.discarded = 0 ∧
      ∃ o ∈ (new host config).starts actions, o.run.generation = g ∧ o.Complete s

/-- **Supersession.**  Whatever has happened to an engine, in any order, as long as there could be
as many permits as its settings asked for. -/
theorem supersession {host : Host} {config : Config} {actions : List Action} {e : Engine}
    (reached : (new host config).play? actions = some e)
    (within : config.maxConcurrentReads ≤ permitBound)
    (bounded : ∀ config, .setConfig config ∈ actions → config.maxConcurrentReads ≤ permitBound) :
    Supersession host config actions e := by
  obtain ⟨counted, room⟩ := counted_of_play? (by simp [Counted, new])
    (readLimit_le_permitBound within) bounded reached
  have numbered := numbered_of_play? (numbered_new host config) reached
  have generations : e.runs.map Run.generation =
      ((new host config).starts actions).map (·.run.generation) := by
    simpa [new] using map_generation_of_play? reached
  have length : e.runs.length = ((new host config).starts actions).length := by
    simpa using congrArg List.length generations
  -- the run with the latest number was started, too
  have newest {g : Nat} (older : g < e.latest) :
      ∃ newer ∈ (new host config).starts actions, g < newer.run.generation := by
    have last : e.latest ∈ ((new host config).starts actions).map (·.run.generation) := by
      rw [← generations, counted, List.mem_range'_1]
      omega
    obtain ⟨newer, member, number⟩ := List.mem_map.mp last
    exact ⟨newer, member, by omega⟩
  exact {
    counted := counted.length_eq.symm.trans length
    runs := generations
    increasing := by
      have range := List.pairwise_map.mpr counted.increasing
      rw [generations] at range
      exact List.pairwise_map.mp range
    startsNothing := fun a e' nothing happens => nothing.undisturbed happens room
    unique := counted.existsUnique_latest
    lasting := by
      intro r member superseded more e' plays
      obtain ⟨r', found, -, lasts, -⟩ := exists_superseded numbered member superseded plays
      exact ⟨r', found, lasts⟩
    discarding := by
      intro r member discarded
      obtain ⟨o, start, since⟩ := exists_since reached member
      obtain ⟨drops, older⟩ := since.late_of_discarded discarded
      exact ⟨o, start, since.generation.symm, drops, newest older⟩
    frozen := by
      intro o start drops newer start' older
      obtain ⟨r, since⟩ := since_of_mem_starts reached start
      obtain ⟨r', since'⟩ := since_of_mem_starts reached start'
      have member : r ∈ e.runs := List.mem_of_find?_eq_some since.found
      have bound := numbered.bounded r' (List.mem_of_find?_eq_some since'.found)
      rw [since'.generation] at bound
      have superseded : r.supersededAt e.latest = true := by
        rw [supersededAt_eq_true, since.generation]
        omega
      refine ⟨r, since.found, fun more e' plays => ?_⟩
      obtain ⟨r₁, found, follows, -, met⟩ := exists_superseded numbered member superseded plays
      refine ⟨r₁, since.generation ▸ found, items_of_follow? follows (fun x hx => ?_)⟩
      have discards : r.discards = true :=
        since.course.kept.discards.trans (since.discards_iff.mpr drops)
      simp [Run.dropsAt, discards, met x hx]
    complete := by
      intro g s settles current
      obtain ⟨r, found, settled⟩ := Option.bind_eq_some_iff.mp settles
      obtain ⟨o, start, since⟩ := exists_since reached (List.mem_of_find?_eq_some found)
      obtain ⟨undiscarded, complete⟩ := since.complete settled current
      have same := since.generation.symm.trans (generation_of_run? found)
      exact ⟨undiscarded, o, start, same, complete⟩ }

open Sample in
/-- Of two runs the older is superseded, and what it has discarded is put down to its settings. -/
theorem supersession_overtaken :
    ∃ e r, engine.play? overtaken = some e ∧ r ∈ e.runs ∧ r.stats.discarded = 1 ∧
      e.latest = (engine.starts overtaken).length ∧
      (∃! r, r ∈ e.runs ∧ r.supersededAt e.latest = false) ∧
      ∃ o ∈ engine.starts overtaken, o.run.generation = r.generation ∧ o.DropsLate := by
  have ends : (((engine.play? overtaken).bind (·.run? 1)).filter
      (fun r => r.stats.discarded = 1)).isSome := by decide +kernel
  obtain ⟨r, seen⟩ := Option.isSome_iff_exists.mp ends
  obtain ⟨found, counted⟩ := Option.filter_eq_some_iff.mp seen
  obtain ⟨e, plays, found⟩ := Option.bind_eq_some_iff.mp found
  have discarded := of_decide_eq_true counted
  have member : r ∈ e.runs := List.mem_of_find?_eq_some found
  have law := supersession plays (by decide) (by simp [overtaken])
  obtain ⟨o, start, same, drops, -⟩ := law.discarding r member (by omega)
  exact ⟨e, r, plays, member, discarded, law.counted, law.unique (List.ne_nil_of_mem member),
    o, start, same, drops⟩

end SymbolNav.Engine
