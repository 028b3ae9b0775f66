/-
  SymbolNav/Proofs/Session/Lookups.lean
  =====================================
  **What a lookup comes to**, whatever else happens on the session.

  A lookup that waits has a run of its own, which drops nothing and has come
  along its own path (`Awaited`).  So its answer is what the indexer reported,
  resolved and sorted, or nothing if the indexer failed (`LookupAnswer`); that
  holds of every lookup at every moment (`Looks.play`), and it can be brought to
  its answer from there (`Looks.exists_answer`).
-/
import SymbolNav.Proofs.Engine.Answers
import SymbolNav.Proofs.Item.Order
import SymbolNav.Proofs.Session.Erasure

namespace SymbolNav

open Engine (FullAnswer)

def Lookup.spec (what : Lookup) (word : String) : QuerySpec := ⟨what.kind, word⟩

def Lookup.answer (what : Lookup) (root : Path) (items : List Item) : Answer :=
  match what with
  | .definitions | .references => .items items
  | .incoming | .outgoing => .calls (items.map (·.call root))

/-- What a lookup takes from what its run comes to. -/
def listed : Except Error Run.Settled → List Item
  | .ok s => s.sortedItems
  | .error _ => []

theorem lookupAnswer_eq (s : Session) (what : Lookup) (items : List Item) :
    s.lookupAnswer what items = what.answer s.root items := by
  cases what <;> rfl

section Lookups

-- The machine and the settings that the engine starts with, and the root of the session; `broke`
-- says whether the output of some run could not be read to its end.
variable (host : Host) (config : Config) (root : Path) (broke : Prop)

/-- The answer to a lookup: all that the indexer's report resolves to, sorted; nothing, if the
indexer cannot be started, fails, or its report cannot be read. -/
inductive LookupAnswer (what : Lookup) (word : String) : Answer → Prop
  | refused {fault}
      (launch : host.launch config.indexer (config.argsFor (what.spec word)) root = .error fault) :
      LookupAnswer what word (what.answer root [])
  | crashed {response machine}
      (launch : host.launch config.indexer (config.argsFor (what.spec word)) root =
        .ok (response, machine))
      (beyond : Engine.permitBound < config.readLimit) : LookupAnswer what word .crashed
  | failed {response machine}
      (launch : host.launch config.indexer (config.argsFor (what.spec word)) root =
        .ok (response, machine))
      (within : config.readLimit ≤ Engine.permitBound) (exit : response.exitCode ≠ some 0) :
      LookupAnswer what word (what.answer root [])
  | broken (broken : broke) : LookupAnswer what word (what.answer root [])
  | complete {response machine sorted order}
      (launch : host.launch config.indexer (config.argsFor (what.spec word)) root =
        .ok (response, machine))
      (within : config.readLimit ≤ Engine.permitBound) (exit : response.exitCode = some 0)
      (perm : order.Perm
        ((what.spec word).itemsOf host.reader root (Hit.ofLines response.lines)))
      (sorts : Item.Sorts order sorted) : LookupAnswer what word (what.answer root sorted)

/-- A lookup waits for the run with the number `g`, which was started for it and has come along its
own path. -/
structure Awaited (e : Engine) (what : Lookup) (word : String) (g : Nat) (response : Response)
    (path : List (Surroundings × Run.Step)) (r : Run) : Prop where
  launch : ∃ machine, host.launch config.indexer (config.argsFor (what.spec word)) root =
    .ok (response, machine)
  within : config.readLimit ≤ Engine.permitBound
  found : e.run? g = some r
  follows : ∃ e₀ : Engine, e₀.config = config ∧
    (e₀.opening (what.spec word) root false response).follow? path = some r
  reads : ∀ x ∈ path, x.1.reader = host.reader
  breaks : ∀ s message, (s, .breakOff message) ∈ path → broke

/-- How far a lookup has come. -/
inductive LookState (e : Engine) (what : Lookup) (word : String) : Progress → Prop
  | waits {g response path r} (awaited : Awaited host config root broke e what word g response path r) :
      LookState e what word (.waits (.lookup what g))
  | returned {answer} (h : LookupAnswer host config root broke what word answer) :
      LookState e what word (.returned answer)

/-- Every lookup has come so far in its own way. -/
structure Looks (o : Ongoing) : Prop where
  atRoot : o.session.root = root
  settings : o.session.engine.config = config
  launched : host.Launched o.session.engine.host
  numbered : o.session.engine.Numbered
  fits : o.Fits
  states : ∀ op ∈ o.operations, ∀ what word, op.request = .look what word →
    LookState host config root broke o.session.engine what word op.progress

end Lookups

section Looks

variable {host : Host} {config : Config} {root : Path} {broke : Prop}

theorem looks_new : Looks host config root broke (.new root (.new host config)) where
  atRoot := rfl
  settings := rfl
  launched := .refl
  numbered := Engine.numbered_new host config
  fits := Ongoing.fits_new root (.new host config)
  states := by simp [Ongoing.new]

section Engine

variable {e e₁ : Engine} {what : Lookup} {word : String}

theorem LookState.of_runs {progress : Progress}
    (h : LookState host config root broke e what word progress)
    (numbered : e.Numbered) (runs : ∀ g ≤ e.latest, e₁.run? g = e.run? g) :
    LookState host config root broke e₁ what word progress := by
  cases h with
  | returned answer => exact .returned answer
  | waits awaited =>
    have bound := numbered.bounded _ (List.mem_of_find?_eq_some awaited.found)
    rw [Engine.generation_of_run? awaited.found] at bound
    exact .waits { awaited with found := (runs _ bound).trans awaited.found }

theorem Awaited.answer {g : Nat} {response : Response} {path : List (Surroundings × Run.Step)}
    {r : Run} (h : Awaited host config root broke e what word g response path r)
    {result : Except Error Run.Settled} (comes : e.result? g = some result) :
    LookupAnswer host config root broke what word (what.answer root (listed result)) := by
  rcases h.launch with ⟨machine, launch⟩
  rcases h.follows with ⟨e₀, -, follows⟩
  have course := Run.course_of_follow? (Run.fresh_opened ..) follows
  rw [Engine.result?, h.found] at comes
  rcases Engine.answer_of_course course h.reads comes with full | ⟨s, message, member, rfl⟩
  · cases result with
    | error e => exact .failed launch h.within full.1
    | ok s =>
      rcases full with ⟨exit, -, -, items, -⟩
      exact .complete launch h.within exit items (Item.sorts_sort s.items)
  · exact .broken (h.breaks s message member)

/-- A step of a run brings the lookup that waits for it further along its path. -/
theorem LookState.of_step {g : Nat} {step : Run.Step} {progress : Progress}
    (h : LookState host config root broke e what word progress)
    (steps : e.step? g step = some e₁) (reader : e.host.reader = host.reader)
    (breaks : ∀ message, step = .breakOff message → broke) :
    LookState host config root broke e₁ what word progress := by
  rcases Engine.exists_stepped steps with ⟨r₀, r₁, moves, stepped⟩
  cases h with
  | returned answer => exact .returned answer
  | @waits g' response path r awaited =>
    by_cases own : g' = g
    · subst own
      obtain rfl : r₀ = r := Option.some.inj (stepped.before.symm.trans awaited.found)
      rcases awaited.follows with ⟨e₀, settings, follows⟩
      have further : Awaited host config root broke e₁ what word g' response
          (path ++ [(e.surroundings, step)]) r₁ := by
        refine ⟨awaited.launch, awaited.within, stepped.now, ⟨e₀, settings, ?_⟩, ?_, ?_⟩
        · rw [Run.follow?_append, follows]
          simp [Run.follow?, moves.step?]
        · intro x member
          rcases List.mem_append.mp member with old | last
          · exact awaited.reads x old
          · rw [List.mem_singleton.mp last]
            exact reader
        · intro s message member
          rcases List.mem_append.mp member with old | last
          · exact awaited.breaks s message old
          · cases List.mem_singleton.mp last
            exact breaks message rfl
      exact .waits further
    · exact .waits { awaited with found := (stepped.others g' own).trans awaited.found }

theorem lookState_look {s : Session} (atRoot : s.root = root) (settings : s.engine.config = config)
    (launched : host.Launched s.engine.host) (numbered : s.engine.Numbered)
    (steady : host.Steady) (what : Lookup) (word : String) :
    LookState host config root broke (s.look what word).session.engine what word
      (s.look what word).progress := by
  subst atRoot settings
  have spawns := Engine.spawns s.engine (what.spec word) s.root false
  have startComplete : s.engine.startComplete ⟨what.kind, word⟩ s.root =
      s.engine.spawn (what.spec word) s.root false := rfl
  unfold Session.look
  rw [startComplete]
  generalize s.engine.spawn (what.spec word) s.root false = result at spawns ⊢
  cases spawns with
  | refused launch =>
    simp only [lookupAnswer_eq]
    exact .returned (.refused (steady.launch_eq_error launched launch))
  | crashed launch beyond =>
    rcases steady.launch_eq_ok launched launch with ⟨machine, launch⟩
    exact .returned (.crashed launch beyond)
  | asked launch within =>
    apply LookState.waits
    case path => exact []
    constructor
    case launch => exact steady.launch_eq_ok launched launch
    case within => exact within
    case found => exact numbered.run?_append rfl rfl
    case follows => exact ⟨s.engine, rfl, rfl⟩
    case reads => exact List.forall_mem_nil _
    case breaks => exact fun _ _ member => (List.not_mem_nil member).elim

end Engine

/-- As long as nothing breaks off and different items are at different places, there is but one
answer. -/
theorem LookupAnswer.unique {broke' : Prop} {what : Lookup} {word : String} {answer answer' : Answer}
    (h : LookupAnswer host config root broke what word answer)
    (h' : LookupAnswer host config root broke' what word answer') (whole : ¬ broke)
    (whole' : ¬ broke')
    (apart : ∀ response machine, host.launch config.indexer (config.argsFor (what.spec word)) root =
      .ok (response, machine) →
        Item.Apart ((what.spec word).itemsOf host.reader root (Hit.ofLines response.lines))) :
    answer = answer' := by
  cases h with
  | broken broken => exact absurd broken whole
  | refused launch =>
    cases h' with
    | broken broken => exact absurd broken whole'
    | refused => rfl
    | crashed launch' | failed launch' | complete launch' => cases launch.symm.trans launch'
  | crashed launch beyond =>
    cases h' with
    | broken broken => exact absurd broken whole'
    | refused launch' => cases launch.symm.trans launch'
    | crashed => rfl
    | failed launch' within | complete launch' within =>
      exact absurd within (Nat.not_le_of_lt beyond)
  | failed launch within exit =>
    cases h' with
    | broken broken => exact absurd broken whole'
    | refused launch' => cases launch.symm.trans launch'
    | crashed launch' beyond => exact absurd within (Nat.not_le_of_lt beyond)
    | failed => rfl
    | complete launch' within' exit' =>
      cases launch.symm.trans launch'
      exact absurd exit' exit
  | complete launch within exit perm sorts =>
    cases h' with
    | broken broken => exact absurd broken whole'
    | refused launch' => cases launch.symm.trans launch'
    | crashed launch' beyond => exact absurd within (Nat.not_le_of_lt beyond)
    | failed launch' within' exit' =>
      cases launch.symm.trans launch'
      exact absurd exit exit'
    | complete launch' within' exit' perm' sorts' =>
      cases launch.symm.trans launch'
      rw [sorts.unique (Item.sorts_sort _), sorts'.unique (Item.sorts_sort _)]
      rw [Item.sort_eq_of_perm perm (apart _ _ launch),
        Item.sort_eq_of_perm perm' (apart _ _ launch)]

/-- As long as a lookup waits, its run can go on, and comes nearer to its end by that, or it has
settled. -/
theorem Awaited.exists_step {e : Engine} {what : Lookup} {word : String} {g : Nat}
    {response : Response} {path : List (Surroundings × Run.Step)} {r : Run}
    (h : Awaited host config root broke e what word g response path r) :
    (∃ step e₁ r₁, (∀ message, step ≠ .breakOff message) ∧ e.step? g step = some e₁ ∧
      e₁.run? g = some r₁ ∧ r₁.work < r.work) ∨ ∃ result, e.result? g = some result := by
  rcases h.follows with ⟨e₀, -, follows⟩
  have room : 0 < r.limit := by
    rw [(Run.kept_of_follow? follows).limit]
    show 0 < e₀.config.readLimit
    unfold Config.readLimit
    omega
  by_cases settled : ∃ failure, r.phase = .settled failure
  · rcases settled with ⟨failure, settled⟩
    right
    rw [Engine.result?, h.found]
    cases failure with
    | none => exact ⟨_, Run.result?_eq_ok.mpr ⟨settled, rfl⟩⟩
    | some e => exact ⟨_, Run.result?_eq_error.mpr settled⟩
  · left
    rcases Run.exists_moves e.surroundings room (fun failure is => settled ⟨failure, is⟩) with
      ⟨step, r₁, reads, moves⟩
    rcases Engine.stepped_of_moves h.found moves with ⟨steps, stepped⟩
    exact ⟨step, _, r₁, reads, steps, stepped.now, moves.work_lt⟩

/-! ### Everything that can happen -/

theorem Session.Part.questioned {s : Session} {request : Request} {m : Move}
    (part : Session.Part s request m) (launched : host.Launched s.engine.host)
    (numbered : s.engine.Numbered) : Engine.Questioned host s.engine m.session.engine := by
  rcases part.engine with same | ⟨spec, asked⟩
  · rw [same]
    exact ⟨rfl, launched, numbered, Nat.le_refl _, id, fun _ _ => rfl⟩
  · rw [asked]
    exact Engine.questioned launched numbered spec s.root

variable {o o₁ : Ongoing}

theorem Looks.of_part (h : Looks host config root broke o) {request : Request} {m : Move}
    (part : Session.Part o.session request m) {operations : List Operation} (op : Operation)
    (own : op.request = request) (progress : op.progress = m.progress)
    (others : ∀ x ∈ operations, x = op ∨ x ∈ o.operations)
    (fits : Ongoing.Fits ⟨m.session, operations⟩)
    (state : ∀ what word, request = .look what word →
      LookState host config root broke m.session.engine what word m.progress) :
    Looks host config root broke ⟨m.session, operations⟩ := by
  have now := part.questioned h.launched h.numbered
  constructor
  case atRoot => exact part.root.trans h.atRoot
  case settings => exact now.config.trans h.settings
  case launched => exact now.launched
  case numbered => exact now.numbered
  case fits => exact fits
  case states =>
    intro x member what word look
    rcases others x member with rfl | old
    · rw [progress]
      exact state what word (own.symm.trans look)
    · exact (h.states x old what word look).of_runs h.numbered now.runs

theorem Looks.act_begin (h : Looks host config root broke o) (steady : host.Steady)
    (view : EditorView) {request : Request}
    (work : request.isLook = true ∨ request.isInteractive = true)
    (acts : o.act? (.begin view request) = some o₁) : Looks host config root broke o₁ := by
  have fits := h.fits.act (x := .begin view request) work acts
  cases Option.some.inj acts
  refine h.of_part (Session.part_begin view o.session work)
    (Operation.go ⟨request, none, [], .returned .done⟩ (request.asks? view)
      (o.session.begin view request)) rfl rfl ?_ fits ?_
  · intro x member
    rcases List.mem_append.mp member with old | last
    · exact .inr old
    · exact .inl (List.mem_singleton.mp last)
  · rintro what word rfl
    exact lookState_look h.atRoot h.settings h.launched h.numbered steady what word

theorem LookState.of_resume {s : Session} (atRoot : s.root = root) {what : Lookup} {word : String}
    {reason : Waiting}
    (h : LookState host config root broke s.engine what word (.waits reason)) {view : EditorView}
    {reply : Reply} {m : Move} (resumes : s.resume? view reason reply = some m) :
    LookState host config root broke m.session.engine what word m.progress := by
  cases h with
  | waits awaited =>
    cases reply with
    | settled =>
      rcases Option.map_eq_some_iff.mp resumes with ⟨result, comes, rfl⟩
      apply LookState.returned
      have answer := awaited.answer comes
      rw [lookupAnswer_eq, atRoot]
      cases result <;> exact answer
    | _ => cases resumes

theorem Looks.act_resume (h : Looks host config root broke o) {i : Nat} {view : EditorView}
    {reply : Reply} (acts : o.act? (.resume i view reply) = some o₁) :
    Looks host config root broke o₁ := by
  have fits := h.fits.act (x := .resume i view reply) trivial acts
  rcases Ongoing.act?_resume.mp acts with ⟨op, reason, m, place, waits, resumes, rfl⟩
  refine h.of_part (Session.part_resume (h.fits.waits place waits) resumes)
    (op.go (reason.asks? reply) m) rfl rfl ?_ fits ?_
  · intro x inside
    rcases List.mem_or_eq_of_mem_set inside with old | rfl
    · exact .inr old
    · exact .inl rfl
  · intro what word look
    have state := h.states op (List.mem_of_getElem? place) what word look
    rw [waits] at state
    exact state.of_resume h.atRoot resumes

theorem Looks.act_step (h : Looks host config root broke o) (steady : host.Steady) {g : Nat}
    {step : Run.Step} (breaks : ∀ message, step = .breakOff message → broke)
    (acts : o.act? (.engine (.step g step)) = some o₁) : Looks host config root broke o₁ := by
  rcases Option.map_eq_some_iff.mp acts with ⟨e₁, steps, rfl⟩
  rcases Engine.exists_stepped steps with ⟨r, r₁, -, stepped⟩
  constructor
  case atRoot => exact h.atRoot
  case settings => exact stepped.config.trans h.settings
  case launched =>
    show host.Launched e₁.host
    rw [stepped.host]
    exact h.launched
  case numbered => exact (Engine.acts_of_act? (a := .step g step) steps).numbered h.numbered
  case fits => exact h.fits
  case states =>
    intro op member what word look
    exact (h.states op member what word look).of_step steps (steady _ h.launched).1 breaks

theorem Looks.act (h : Looks host config root broke o) (steady : host.Steady) {x : Happening}
    (work : x.IsWork) (breaks : ∀ g message, x = .engine (.step g (.breakOff message)) → broke)
    (acts : o.act? x = some o₁) : Looks host config root broke o₁ := by
  cases x with
  | begin view request => exact h.act_begin steady view work acts
  | resume i view reply => exact h.act_resume acts
  | engine a =>
    cases a with
    | step g step =>
      apply h.act_step steady ?_ acts
      rintro message rfl
      exact breaks g message rfl
    | start | startComplete | startBuild | setConfig | changeHost => exact work.elim

/-- **Every lookup comes to its answer in its own way**, whatever else happens. -/
theorem Looks.play (h : Looks host config root broke o) (steady : host.Steady)
    {happenings : List Happening} (work : ∀ x ∈ happenings, x.IsWork)
    (breaks : ∀ g message, .engine (.step g (.breakOff message)) ∈ happenings → broke)
    (plays : o.play? happenings = some o₁) : Looks host config root broke o₁ := by
  induction happenings generalizing o with
  | nil =>
    cases Option.some.inj plays
    exact h
  | cons x happenings ih =>
    rcases Ongoing.play?_cons.mp plays with ⟨o₂, acts, plays⟩
    have now := h.act steady (work x List.mem_cons_self)
      (fun g message is => breaks g message (is ▸ List.mem_cons_self)) acts
    exact ih now (fun y member => work y (List.mem_cons_of_mem x member))
      (fun g message member => breaks g message (List.mem_cons_of_mem x member)) plays

/-! ### To the answer -/

/-- The lookup at the place `i` has returned with an answer. -/
def Ongoing.Answers (o : Ongoing) (i : Nat) (what : Lookup) (word : String) (answer : Answer) :
    Prop :=
  ∃ op, o.operations[i]? = some op ∧ op.request = .look what word ∧ op.progress = .returned answer

/-- The operation at the place `i` gets the reply that its run has settled, or some run takes a step
and goes on reading. -/
def Happening.Furthers (i : Nat) (view : EditorView) : Happening → Prop
  | .resume j v reply => j = i ∧ v = view ∧ reply = .settled
  | .engine (.step _ step) => ∀ message, step ≠ .breakOff message
  | _ => False

theorem exists_answer_of_result {i : Nat} {op : Operation} (place : o.operations[i]? = some op)
    {what : Lookup} {word : String} (look : op.request = .look what word) {g : Nat}
    (waits : op.progress = .waits (.lookup what g)) {result : Except Error Run.Settled}
    (comes : o.session.engine.result? g = some result) (view : EditorView) :
    ∃ o₁ answer, o.act? (.resume i view .settled) = some o₁ ∧ o₁.Answers i what word answer := by
  have resumes : ∃ answer, o.session.resume? view (.lookup what g) .settled =
      some (o.session.give [] answer) := by
    simp only [Session.resume?, comes, Option.map_some]
    cases result <;> exact ⟨_, rfl⟩
  rcases resumes with ⟨answer, resumes⟩
  have within := (List.getElem?_eq_some_iff.mp place).1
  refine ⟨_, answer, Ongoing.act?_resume.mpr ⟨op, _, _, place, waits, resumes, rfl⟩, ?_⟩
  exact ⟨_, List.getElem?_set_self within, look, rfl⟩

theorem Looks.exists_answer_of_awaited (h : Looks host config root broke o) (steady : host.Steady)
    (view : EditorView) {i : Nat} {op : Operation} (place : o.operations[i]? = some op)
    {what : Lookup} {word : String} (look : op.request = .look what word) {g : Nat}
    (waits : op.progress = .waits (.lookup what g)) {response : Response}
    {path : List (Surroundings × Run.Step)} {r : Run}
    (awaited : Awaited host config root broke o.session.engine what word g response path r) :
    ∃ rest o₁ answer, (∀ x ∈ rest, x.Furthers i view) ∧ o.play? rest = some o₁ ∧
      o₁.Answers i what word answer := by
  generalize measure : r.work = work
  induction work using Nat.strongRecOn generalizing o response path r with
  | ind work ih =>
    rcases awaited.exists_step with ⟨step, e₁, r₁, reads, steps, found, nearer⟩ | ⟨result, comes⟩
    · have acts : o.act? (.engine (.step g step)) =
          some { o with session := { o.session with engine := e₁ } } := by
        simp [Ongoing.act?, Engine.act?, steps]
      have now := h.act_step steady (fun message is => absurd is (reads message)) acts
      have state := now.states op (List.mem_of_getElem? place) what word look
      rw [waits] at state
      cases state with
      | @waits _ response' path' r' awaited' =>
        obtain rfl : r₁ = r' := Option.some.inj (found.symm.trans awaited'.found)
        rcases ih r₁.work (measure ▸ nearer) now place awaited' rfl with
          ⟨rest, o₂, answer, furthers, plays, answers⟩
        refine ⟨_, o₂, answer, ?_, Ongoing.play?_cons.mpr ⟨_, acts, plays⟩, answers⟩
        exact List.forall_mem_cons.mpr ⟨reads, furthers⟩
    · rcases exists_answer_of_result place look waits comes view with ⟨o₁, answer, acts, answers⟩
      have plays : o.play? [.resume i view .settled] = some o₁ :=
        Ongoing.play?_cons.mpr ⟨o₁, acts, rfl⟩
      refine ⟨_, o₁, answer, ?_, plays, answers⟩
      exact List.forall_mem_singleton.mpr ⟨rfl, rfl, rfl⟩

/-- **A lookup can be brought to its answer at every moment.** -/
theorem Looks.exists_answer (h : Looks host config root broke o) (steady : host.Steady)
    (view : EditorView) {i : Nat} {op : Operation} (place : o.operations[i]? = some op)
    {what : Lookup} {word : String} (look : op.request = .look what word) :
    ∃ rest o₁ answer, (∀ x ∈ rest, x.Furthers i view) ∧ o.play? rest = some o₁ ∧
      o₁.Answers i what word answer := by
  have state := h.states op (List.mem_of_getElem? place) what word look
  generalize stands : op.progress = progress at state
  cases state with
  | returned => exact ⟨[], o, _, List.forall_mem_nil _, rfl, op, place, look, stands⟩
  | waits awaited => exact h.exists_answer_of_awaited steady view place look stands awaited

end Looks

end SymbolNav
