/-
  SymbolNav/Proofs/Engine/Renumbered.lean
  =======================================
  **Engines that have the same runs under other numbers.**

  The number of a run counts the questions before it, so it changes when some of
  them are left out.  Nothing that is asked for all of its results looks at the
  number (`Moves.withNumber`).  So an engine that has been asked less keeps pace
  with one that has been asked more, on the runs that both of them have
  (`Alike`): when such a run is started (`alike_of_startComplete`), when it takes
  a step (`Alike.step`), and when something happens that only one of them has
  (`Alike.left_out`, `Alike.other_step`).

  The machine must not mind: what a command responds and where source lines come
  from may not depend on the commands that were started before
  (`Host.Steady`).
-/
import Mathlib.Data.List.Basic
import SymbolNav.Proofs.Engine.Course
import SymbolNav.Proofs.Run.Reference

namespace SymbolNav

/-! ### Steady machines -/

/-- The machine has come there by commands that were started on it. -/
inductive Host.Launched (h : Host) : Host → Prop
  | refl : Launched h h
  | more {h₁ h₂ command args cwd response} (earlier : Launched h h₁)
      (launch : h₁.launch command args cwd = .ok (response, h₂)) : Launched h h₂

/-- Commands respond, and source lines are, as if no command had been started before. -/
def Host.Steady (h : Host) : Prop :=
  ∀ h', h.Launched h' → h'.reader = h.reader ∧
    ∀ command args cwd, (h'.launch command args cwd).map Prod.fst =
      (h.launch command args cwd).map Prod.fst

theorem Host.Steady.launch_eq_ok {h h' machine : Host} (steady : h.Steady) (launched : h.Launched h')
    {command : String} {args : List String} {cwd : Path} {response : Response}
    (launch : h'.launch command args cwd = .ok (response, machine)) :
    ∃ machine', h.launch command args cwd = .ok (response, machine') := by
  have same := (steady h' launched).2 command args cwd
  rw [launch] at same
  cases launch' : h.launch command args cwd with
  | error fault =>
    rw [launch'] at same
    cases same
  | ok responded =>
    rw [launch'] at same
    cases same
    exact ⟨responded.2, rfl⟩

theorem Host.Steady.launch_eq_error {h h' : Host} (steady : h.Steady) (launched : h.Launched h')
    {command : String} {args : List String} {cwd : Path} {fault : Error}
    (launch : h'.launch command args cwd = .error fault) :
    h.launch command args cwd = .error fault := by
  have same := (steady h' launched).2 command args cwd
  rw [launch] at same
  cases launch' : h.launch command args cwd with
  | error fault' =>
    rw [launch'] at same
    cases same
    rfl
  | ok responded =>
    rw [launch'] at same
    cases same

/-- If commands leave the files as they are, all that is left of them is that they were called. -/
theorem Host.exists_calls_of_launched {h h' : Host}
    (quiet : ∀ args files, (h.program args files).2 = files) (launched : h.Launched h') :
    ∃ calls, h' = { h with calls } := by
  induction launched with
  | refl => exact ⟨h.calls, rfl⟩
  | @more h₁ h₂ command args cwd response earlier launch ih =>
    rcases ih with ⟨calls, rfl⟩
    obtain ⟨_, -, -, rfl⟩ := Host.of_launch launch
    exact ⟨calls ++ [args], by simp only [quiet]⟩

/-- A machine whose commands leave the files as they are is steady. -/
theorem Host.steady_of_quiet {h : Host} (quiet : ∀ args files, (h.program args files).2 = files) :
    h.Steady := by
  intro h' launched
  rcases Host.exists_calls_of_launched quiet launched with ⟨calls, rfl⟩
  refine ⟨rfl, fun command args cwd => ?_⟩
  unfold Host.launch
  dsimp only [Host.refusal?]
  split
  case isTrue => rfl
  case isFalse =>
    split
    case h_2 => rfl
    case h_1 =>
      split
      case isTrue => rfl
      case isFalse => split <;> rfl

/-! ### Runs under other numbers -/

namespace Run

def withNumber (r : Run) (g : Nat) : Run := { r with generation := g }

/-- A run that drops nothing does not look at its number. -/
theorem Moves.withNumber {s s' : Surroundings} {r r' : Run} {step : Step}
    (moves : Moves s r step r') (keepsAll : r.discards = false) (reader : s'.reader = s.reader)
    (g : Nat) : Moves s' (r.withNumber g) step (r'.withNumber g) := by
  have neverLate (latest : Nat) : (r.withNumber g).dropsAt latest = false := by
    simp [dropsAt, Run.withNumber, keepsAll]
  have sooner {latest : Nat} (drops : r.dropsAt latest = true) : False := by
    simp [dropsAt, keepsAll] at drops
  have resolution (hit : Hit) :
      (r.withNumber g).resolution s'.reader hit = r.resolution s.reader hit := by
    rw [reader]
    rfl
  cases moves with
  | hit running unread parses => exact .hit running unread parses
  | junk running unread parses => exact .junk running unread parses
  | breakOff running => exact .breakOff running
  | drain running unread ending => exact .drain running unread ending
  | fail running unread ending => exact .fail running unread ending
  | refuse tasks closed => exact .refuse tasks closed
  | discardEarly tasks closed room drops => exact (sooner drops).elim
  | begin tasks closed room keeps => exact .begin tasks closed room (neverLate _)
  | discardLate tasks resolves drops => exact (sooner drops).elim
  | keep tasks resolves keeps =>
    exact .keep tasks ((resolution _).trans resolves) (neverLate _)
  | unreadable tasks resolves => exact .unreadable tasks ((resolution _).trans resolves)
  | crash tasks resolves => exact .crash tasks ((resolution _).trans resolves)
  | joinEnded draining tasks => exact .joinEnded draining tasks
  | joinCrashed draining tasks => exact .joinCrashed draining tasks
  | abort aborting tasks => exact .abort aborting tasks
  | close draining tasks => exact .close draining tasks
  | closeFailed aborting tasks => exact .closeFailed aborting tasks

/-- The results are the same, except that a newer run may have started before one of them. -/
def Settled.Same (s s' : Settled) : Prop := s' = { s with superseded := s'.superseded }

inductive SameResult : Except Error Settled → Except Error Settled → Prop
  | error (e : Error) : SameResult (.error e) (.error e)
  | ok {s s' : Settled} (same : s.Same s') : SameResult (.ok s) (.ok s')

theorem result?_withNumber {r : Run} {latest : Nat} {result : Except Error Settled}
    (h : r.result? latest = some result) (g latest' : Nat) :
    ∃ result', (r.withNumber g).result? latest' = some result' ∧ SameResult result result' := by
  cases result with
  | error e =>
    have settled := result?_eq_error.mp h
    exact ⟨.error e, result?_eq_error.mpr settled, .error e⟩
  | ok s =>
    rcases result?_eq_ok.mp h with ⟨settled, rfl⟩
    exact ⟨_, result?_eq_ok.mpr ⟨settled, rfl⟩, .ok rfl⟩

end Run

namespace Engine

open Run (Moves)

/-! ### Numbers -/

/-- Of the numbers that are kept, the first is one now, the second two, and so on. -/
def Renames (numbers : List Nat) (g g' : Nat) : Prop := g ∈ numbers ∧ g' = numbers.idxOf g + 1

theorem Renames.append {numbers more : List Nat} {g g' : Nat} (h : Renames numbers g g') :
    Renames (numbers ++ more) g g' := by
  rcases h with ⟨member, rfl⟩
  exact ⟨List.mem_append_left _ member, by rw [List.idxOf_append_of_mem member]⟩

/-- The numbers that were given on the way from one engine to another. -/
def given (e e₁ : Engine) : List Nat := List.range' (e.latest + 1) (e₁.latest - e.latest)

theorem given_of_latest_eq {e e₁ : Engine} (latest : e₁.latest = e.latest) : given e e₁ = [] := by
  simp [given, latest]

theorem given_of_latest_succ {e e₁ : Engine} (latest : e₁.latest = e.latest + 1) :
    given e e₁ = [e.latest + 1] := by
  simp [given, latest]

/-- `e'` has the runs of `e` with these numbers, and no other. -/
structure Alike (host : Host) (numbers : List Nat) (e e' : Engine) : Prop where
  config : e'.config = e.config
  launched : host.Launched e.host
  launched' : host.Launched e'.host
  numbered : Numbered e
  numbered' : Numbered e'
  latest : e'.latest = numbers.length
  known : ∀ g ∈ numbers, g ≤ e.latest
  keepsAll : ∀ r ∈ e.runs, r.discards = false
  runs : ∀ g g', Renames numbers g g' → e'.run? g' = (e.run? g).map (·.withNumber g')

theorem alike_new (host : Host) (config : Config) :
    Alike host [] (new host config) (new host config) := by
  constructor
  case numbered => exact numbered_new host config
  case numbered' => exact numbered_new host config
  case launched => exact .refl
  case launched' => exact .refl
  all_goals simp [new, Renames]

/-! ### A question -/

/-- A question has been asked of both, and led to the same. -/
inductive StartedAlike (numbers : List Nat) : Outcome Run → Outcome Run → Prop
  | value {run run'} (renames : Renames numbers run.generation run'.generation) :
      StartedAlike numbers (.value run) (.value run')
  | failed (e : Error) : StartedAlike numbers (.failed e) (.failed e)
  | crashed : StartedAlike numbers .crashed .crashed

section Alike

variable {host : Host} {numbers : List Nat} {e e' : Engine}

theorem Alike.reader_eq (h : Alike host numbers e e') (steady : host.Steady) :
    e'.host.reader = e.host.reader :=
  (steady _ h.launched').1.trans (steady _ h.launched).1.symm

/-- What a question all of whose results are wanted leaves as it was, and what it adds. -/
structure Questioned (host : Host) (e e₁ : Engine) : Prop where
  config : e₁.config = e.config
  launched : host.Launched e₁.host
  numbered : Numbered e₁
  latest : e.latest ≤ e₁.latest
  keepsAll : (∀ r ∈ e.runs, r.discards = false) → ∀ r ∈ e₁.runs, r.discards = false
  runs : ∀ g ≤ e.latest, e₁.run? g = e.run? g

theorem questioned (launched : host.Launched e.host) (numbered : Numbered e) (spec : QuerySpec)
    (cwd : Path) : Questioned host e (e.startComplete spec cwd).2 := by
  have acts : Acts e (.startComplete spec cwd) (e.startComplete spec cwd).2 := acts_of_act? rfl
  have numbered₁ := acts.numbered numbered
  have latest := acts.latest_le
  have cases := spawns e spec cwd false
  unfold startComplete at *
  generalize e.spawn spec cwd false = result at *
  cases cases with
  | refused launch => exact ⟨rfl, launched, numbered₁, latest, id, fun _ _ => rfl⟩
  | crashed responds beyond =>
    exact ⟨rfl, .more launched responds, numbered₁, latest, id, fun _ _ => rfl⟩
  | @asked response _ responds within =>
    refine ⟨rfl, .more launched responds, numbered₁, latest, ?_, ?_⟩
    · intro keepsAll r member
      rcases List.mem_append.mp member with old | new
      · exact keepsAll r old
      · rw [List.mem_singleton.mp new]
        rfl
    · intro g earlier
      have other : (e.opening spec cwd false response).generation ≠ g := by
        show e.latest + 1 ≠ g
        omega
      unfold run?
      rw [List.find?_append]
      simp [other]

/-- A question that only the first engine is asked takes none of the numbers that are kept. -/
theorem Alike.left_out (h : Alike host numbers e e') (spec : QuerySpec) (cwd : Path) :
    Alike host numbers (e.startComplete spec cwd).2 e' := by
  have now := questioned h.launched h.numbered spec cwd
  constructor
  case config => exact h.config.trans now.config.symm
  case launched => exact now.launched
  case launched' => exact h.launched'
  case numbered => exact now.numbered
  case numbered' => exact h.numbered'
  case latest => exact h.latest
  case known => exact fun g member => Nat.le_trans (h.known g member) now.latest
  case keepsAll => exact now.keepsAll h.keepsAll
  case runs =>
    intro g g' renames
    rw [now.runs g (h.known g renames.1)]
    exact h.runs g g' renames

/-- The cases of a question that both engines are asked: it is refused by both, or takes the next
number of both, and a run starts or does not. -/
inductive BothAsked (e e' : Engine) : Outcome Run × Engine → Outcome Run × Engine → Prop
  | refused {fault e₁ e₁'} (latest : e₁.latest = e.latest) (latest' : e₁'.latest = e'.latest) :
      BothAsked e e' (.failed fault, e₁) (.failed fault, e₁')
  | crashed {e₁ e₁'} (latest : e₁.latest = e.latest + 1) (latest' : e₁'.latest = e'.latest + 1)
      (runs : e₁.runs = e.runs) (runs' : e₁'.runs = e'.runs) :
      BothAsked e e' (.crashed, e₁) (.crashed, e₁')
  | asked {run e₁ e₁'} (latest : e₁.latest = e.latest + 1) (latest' : e₁'.latest = e'.latest + 1)
      (number : run.generation = e.latest + 1) (runs : e₁.runs = e.runs ++ [run])
      (runs' : e₁'.runs = e'.runs ++ [run.withNumber (e'.latest + 1)]) :
      BothAsked e e' (.value run, e₁) (.value (run.withNumber (e'.latest + 1)), e₁')

theorem Alike.bothAsked (h : Alike host numbers e e') (steady : host.Steady) (spec : QuerySpec)
    (cwd : Path) : BothAsked e e' (e.startComplete spec cwd) (e'.startComplete spec cwd) := by
  have first := spawns e spec cwd false
  have second := spawns e' spec cwd false
  unfold startComplete
  generalize e.spawn spec cwd false = result at *
  generalize e'.spawn spec cwd false = result' at *
  -- what each machine responds is what the first one of all does
  have responds {response machine} (launch : e.Responds spec cwd response machine) :=
    steady.launch_eq_ok h.launched launch
  have responds' {response machine} (launch : e'.Responds spec cwd response machine) :=
    steady.launch_eq_ok h.launched' launch
  rw [h.config] at responds'
  cases first with
  | refused launch =>
    have launch := steady.launch_eq_error h.launched launch
    cases second with
    | refused launch' =>
      have launch' := steady.launch_eq_error h.launched' launch'
      rw [h.config, launch] at launch'
      cases launch'
      exact .refused rfl rfl
    | crashed launch' | asked launch' =>
      rcases responds' launch' with ⟨machine, launch'⟩
      cases launch.symm.trans launch'
  | crashed launch beyond =>
    rcases responds launch with ⟨machine, launch⟩
    cases second with
    | refused launch' =>
      have launch' := steady.launch_eq_error h.launched' launch'
      rw [h.config, launch] at launch'
      cases launch'
    | crashed => exact .crashed rfl rfl rfl rfl
    | asked launch' within =>
      rw [h.config] at within
      exact absurd within (Nat.not_le_of_lt beyond)
  | @asked response machine launch within =>
    rcases responds launch with ⟨machine, launch⟩
    cases second with
    | refused launch' =>
      have launch' := steady.launch_eq_error h.launched' launch'
      rw [h.config, launch] at launch'
      cases launch'
    | crashed launch' beyond =>
      rw [h.config] at beyond
      exact absurd within (Nat.not_le_of_lt beyond)
    | asked launch' within' =>
      rcases responds' launch' with ⟨machine', launch'⟩
      cases launch.symm.trans launch'
      have twin : e'.opening spec cwd false response =
          (e.opening spec cwd false response).withNumber (e'.latest + 1) := by
        rw [opening, h.config]
        rfl
      rw [twin]
      exact .asked rfl rfl rfl rfl rfl

theorem Alike.renames_le (h : Alike host numbers e e') {g g' : Nat} (renames : Renames numbers g g') :
    g' ≤ e'.latest := by
  rcases renames with ⟨member, rfl⟩
  rw [h.latest]
  exact List.idxOf_lt_length_of_mem member

theorem Alike.renames_next (h : Alike host numbers e e') :
    Renames (numbers ++ [e.latest + 1]) (e.latest + 1) (e'.latest + 1) := by
  have new : e.latest + 1 ∉ numbers := by
    intro member
    have bound := h.known _ member
    omega
  refine ⟨by simp, ?_⟩
  rw [List.idxOf_append_of_notMem new, h.latest]
  simp

theorem Alike.eq_next (h : Alike host numbers e e') {g' : Nat}
    (renames : Renames (numbers ++ [e.latest + 1]) (e.latest + 1) g') : g' = e'.latest + 1 :=
  renames.2.trans h.renames_next.2.symm

/-- What is left to show of a question that both engines were asked is that they have the runs of
the numbers that were given. -/
theorem Alike.grow (h : Alike host numbers e e') {e₁ e₁' : Engine} (now : Questioned host e e₁)
    (now' : Questioned host e' e₁') {more : List Nat}
    (latest : e₁'.latest = e'.latest + more.length) (bound : ∀ g ∈ more, g ≤ e₁.latest)
    (runs : ∀ g ∈ more, ∀ g', Renames (numbers ++ more) g g' →
      e₁'.run? g' = (e₁.run? g).map (·.withNumber g')) :
    Alike host (numbers ++ more) e₁ e₁' := by
  constructor
  case config => rw [now.config, now'.config, h.config]
  case launched => exact now.launched
  case launched' => exact now'.launched
  case numbered => exact now.numbered
  case numbered' => exact now'.numbered
  case latest => rw [latest, h.latest, List.length_append]
  case keepsAll => exact now.keepsAll h.keepsAll
  case known =>
    intro g member
    rcases List.mem_append.mp member with old | new
    · exact Nat.le_trans (h.known g old) now.latest
    · exact bound g new
  case runs =>
    intro g g' renames
    by_cases old : g ∈ numbers
    · have before : Renames numbers g g' := ⟨old, by rw [renames.2, List.idxOf_append_of_mem old]⟩
      rw [now.runs g (h.known g old), now'.runs g' (h.renames_le before)]
      exact h.runs g g' before
    · exact runs g ((List.mem_append.mp renames.1).resolve_left old) g' renames

/-- **A question that both engines are asked leads both of them to the same.** -/
theorem Alike.both (h : Alike host numbers e e') (steady : host.Steady) (spec : QuerySpec)
    (cwd : Path) :
    Alike host (numbers ++ given e (e.startComplete spec cwd).2) (e.startComplete spec cwd).2
        (e'.startComplete spec cwd).2 ∧
      StartedAlike (numbers ++ given e (e.startComplete spec cwd).2)
        (e.startComplete spec cwd).1 (e'.startComplete spec cwd).1 := by
  have now := questioned h.launched h.numbered spec cwd
  have now' := questioned h.launched' h.numbered' spec cwd
  have cases := h.bothAsked steady spec cwd
  generalize e.startComplete spec cwd = result at *
  generalize e'.startComplete spec cwd = result' at *
  cases cases with
  | refused latest latest' =>
    rw [given_of_latest_eq latest]
    exact ⟨h.grow now now' latest' (by simp) (by simp), .failed _⟩
  | crashed latest latest' runs runs' =>
    rw [given_of_latest_succ latest]
    refine ⟨h.grow now now' latest' (by simp [latest]) ?_, .crashed⟩
    intro g member g' renames
    obtain rfl := List.mem_singleton.mp member
    obtain rfl := h.eq_next renames
    have before : e.run? (e.latest + 1) = none := h.numbered.run?_eq_none (Nat.lt_succ_self _)
    have before' : e'.run? (e'.latest + 1) = none := h.numbered'.run?_eq_none (Nat.lt_succ_self _)
    unfold run? at *
    rw [runs, runs', before, before']
    rfl
  | @asked run _ _ latest latest' number runs runs' =>
    rw [given_of_latest_succ latest]
    constructor
    · refine h.grow now now' latest' (by simp [latest]) ?_
      intro g member g' renames
      obtain rfl := List.mem_singleton.mp member
      obtain rfl := h.eq_next renames
      have found := h.numbered.run?_append number runs
      rw [number] at found
      rw [found]
      exact h.numbered'.run?_append rfl runs'
    · apply StartedAlike.value
      rw [number]
      exact h.renames_next

/-! ### A step -/

/-- What a step leaves as it was, and what it does to the runs. -/
structure Stepped (e e₁ : Engine) (g : Nat) (r r₁ : Run) : Prop where
  config : e₁.config = e.config
  host : e₁.host = e.host
  latest : e₁.latest = e.latest
  before : e.run? g = some r
  now : e₁.run? g = some r₁
  others : ∀ k ≠ g, e₁.run? k = e.run? k
  keepsAll : (∀ r ∈ e.runs, r.discards = false) → ∀ r ∈ e₁.runs, r.discards = false

theorem stepped_of_moves {g : Nat} {step : Run.Step} {r r₁ : Run} (before : e.run? g = some r)
    (moves : Moves e.surroundings r step r₁) :
    e.step? g step = some (e.updateRun g (fun _ => r₁)) ∧
      Stepped e (e.updateRun g (fun _ => r₁)) g r r₁ := by
  have number : r₁.generation = g := moves.kept.generation.trans (generation_of_run? before)
  constructor
  · simp [step?, before, moves.step?]
  · refine ⟨rfl, rfl, rfl, before, run?_updateRun_self before (fun _ _ => number), ?_, ?_⟩
    · exact fun k other => run?_updateRun_other other number
    · intro keepsAll k member
      rcases List.mem_map.mp member with ⟨k₀, member₀, rfl⟩
      split
      · rw [moves.kept.discards]
        exact keepsAll r (List.mem_of_find?_eq_some before)
      · exact keepsAll k₀ member₀

theorem exists_stepped {e₁ : Engine} {g : Nat} {step : Run.Step} (acts : e.step? g step = some e₁) :
    ∃ r r₁, Moves e.surroundings r step r₁ ∧ Stepped e e₁ g r r₁ := by
  unfold step? at acts
  split at acts
  case h_1 => cases acts
  case h_2 r before =>
    rcases Option.map_eq_some_iff.mp acts with ⟨r₁, happens, rfl⟩
    have moves := Run.moves_of_step? happens
    exact ⟨r, r₁, moves, (stepped_of_moves before moves).2⟩

/-- **A step of a run that both engines have is a step of both.** -/
theorem Alike.step (h : Alike host numbers e e') (steady : host.Steady) {e₁ : Engine} {g g' : Nat}
    {step : Run.Step} (renames : Renames numbers g g') (acts : e.step? g step = some e₁) :
    ∃ e₁', e'.step? g' step = some e₁' ∧ Alike host numbers e₁ e₁' := by
  rcases exists_stepped acts with ⟨r, r₁, moves, stepped⟩
  have keepsAll : r.discards = false :=
    h.keepsAll r (List.mem_of_find?_eq_some stepped.before)
  have moves' : Moves e'.surroundings (r.withNumber g') step (r₁.withNumber g') :=
    moves.withNumber keepsAll (h.reader_eq steady) g'
  have before' : e'.run? g' = some (r.withNumber g') := by
    rw [h.runs g g' renames, stepped.before]
    rfl
  rcases stepped_of_moves before' moves' with ⟨acts', stepped'⟩
  refine ⟨_, acts', ?_⟩
  constructor
  case config => exact h.config.trans stepped.config.symm
  case launched => rw [stepped.host]; exact h.launched
  case launched' => exact h.launched'
  case numbered => exact (acts_of_act? (a := .step g step) acts).numbered h.numbered
  case numbered' => exact (acts_of_act? (a := .step g' step) acts').numbered h.numbered'
  case latest => exact h.latest
  case known => rw [stepped.latest]; exact h.known
  case keepsAll => exact stepped.keepsAll h.keepsAll
  case runs =>
    intro k k' renames'
    by_cases own : k = g
    · subst own
      obtain rfl : k' = g' := renames'.2.trans renames.2.symm
      rw [stepped.now, stepped'.now]
      rfl
    · have own' : k' ≠ g' := by
        rw [renames'.2, renames.2]
        intro same
        exact own ((List.idxOf_inj renames'.1).mp (Nat.succ.inj same))
      rw [stepped.others k own, stepped'.others k' own']
      exact h.runs k k' renames'

/-- A step of a run that only the first engine has is of no concern to the other. -/
theorem Alike.other_step (h : Alike host numbers e e') {e₁ : Engine} {g : Nat} {step : Run.Step}
    (other : g ∉ numbers) (acts : e.step? g step = some e₁) : Alike host numbers e₁ e' := by
  rcases exists_stepped acts with ⟨r, r₁, moves, stepped⟩
  constructor
  case config => exact h.config.trans stepped.config.symm
  case launched => rw [stepped.host]; exact h.launched
  case launched' => exact h.launched'
  case numbered => exact (acts_of_act? (a := .step g step) acts).numbered h.numbered
  case numbered' => exact h.numbered'
  case latest => exact h.latest
  case known => rw [stepped.latest]; exact h.known
  case keepsAll => exact stepped.keepsAll h.keepsAll
  case runs =>
    intro k k' renames
    rw [stepped.others k (fun own => other (own ▸ renames.1))]
    exact h.runs k k' renames

/-- **A run that both engines have comes to the same in both.** -/
theorem Alike.result? (h : Alike host numbers e e') {g g' : Nat} (renames : Renames numbers g g')
    {result : Except Error Run.Settled} (comes : e.result? g = some result) :
    ∃ result', e'.result? g' = some result' ∧ Run.SameResult result result' := by
  rcases Option.bind_eq_some_iff.mp comes with ⟨r, found, comes⟩
  rcases Run.result?_withNumber comes g' e'.latest with ⟨result', comes', same⟩
  refine ⟨result', ?_, same⟩
  rw [Engine.result?, h.runs g g' renames, found]
  exact comes'

end Alike

end Engine

end SymbolNav
