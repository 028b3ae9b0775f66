/-
  SymbolNav/Proofs/Session/Switching.lean
  =======================================
  **Switching the watch off ends the one that is there**, and does nothing to those
  that are still to come.

  An operation that begins a watch has the database built first, and it looks at
  nothing but the outcome of the build when that is over.  So if the watch is switched
  off while it waits, it begins one all the same.  Which operations those are is known
  when the watch is switched off (`Ongoing.Enabling`), and `SwitchedOff` follows them:
  whoever of them has ended well has left a watch behind, and nothing else has.
  `disabled_iff_builds_failed` says what that means when all operations have returned.
-/
import SymbolNav.Proofs.Session.Watching

namespace SymbolNav

/-- The request may begin the watch or end it. -/
def Request.Switches : Request → Prop
  | .start | .setAutoBuild _ | .reload _ => True
  | _ => False

/-- A request that may begin the watch or end it is made. -/
def Happening.Switches : Happening → Prop
  | .begin _ request => request.Switches
  | _ => False

namespace Session

/-! ### Parts that have nothing to do with the watch -/

/-- The part keeps the watch as it is, and waits for no build after which one begins. -/
structure Apart (s : Session) (m : Move) : Prop where
  watch : m.session.watch = s.watch
  enables : ∀ b, m.progress ≠ .waits (.building b true)

section Apart

variable {s : Session}

theorem apart_give (effects : List Effect) (answer : Answer) : Apart s (s.give effects answer) :=
  ⟨rfl, nofun⟩

theorem apart_jump (v : EditorView) (item : Item) : Apart s (jump v s item) := by
  unfold jump
  split <;> exact ⟨rfl, nofun⟩

theorem apart_pop : Apart s s.pop := by
  unfold pop
  dsimp only
  split <;> exact ⟨rfl, nofun⟩

theorem apart_showResults : Apart s s.showResults := by
  unfold showResults
  split <;> exact ⟨rfl, nofun⟩

theorem apart_ask (spec : QuerySpec) : Apart s (s.ask spec) := by
  unfold ask
  dsimp only
  split <;> exact ⟨rfl, nofun⟩

theorem apart_look (what : Lookup) (word : String) : Apart s (s.look what word) := by
  unfold look
  dsimp only
  split <;> exact ⟨rfl, nofun⟩

theorem apart_build : Apart s (s.build false) := by
  refine ⟨(config_build s false).2.2, ?_⟩
  unfold build
  dsimp only
  split <;> simp [wait, give]

/-- Every request keeps apart from the watch but those that may begin or end it. -/
theorem apart_begin (v : EditorView) {request : Request} (other : ¬ request.Switches) :
    Apart s (s.begin v request) := by
  cases request with
  | start | setAutoBuild | reload => exact absurd trivial other
  | build => exact apart_build
  | query kind =>
    simp only [begin]
    split
    · exact apart_ask _
    · exact apart_give ..
  | queryWithPrompt kind => exact ⟨rfl, by simp [begin, wait]⟩
  | run spec => exact apart_ask spec
  | showResults => exact apart_showResults
  | jump item => exact apart_jump v item
  | pop => exact apart_pop
  | look what word => exact apart_look what word

/-- Every operation that goes on keeps apart from the watch, unless its build for one is over. -/
theorem apart_resume {v : EditorView} {reason : Waiting} {reply : Reply} {m : Move}
    (other : ∀ b, reason ≠ .building b true) (resumes : s.resume? v reason reply = some m) :
    Apart s m := by
  cases resumes_of_resume? resumes with
  | gives effects answer => exact apart_give ..
  | asks typed => exact apart_ask _
  | @stores ticket generation result =>
    have shows := apart_showResults (s := { s with lastResults := some result })
    exact ⟨shows.watch, shows.enables⟩
  | jumps item => exact apart_jump v item
  | @installs b => exact absurd rfl (other b)

/-- An operation whose build is over begins the watch, or fails and leaves it as it is. -/
theorem resume_building {v : EditorView} {b : Build} {reply : Reply} {m : Move}
    (resumes : s.resume? v (.building b true) reply = some m) :
    (m.progress = .returned .done ∧ m.session.isWatching = true) ∨
      ∃ e, m.progress = .returned (.failed e) ∧ m.session.watch = s.watch := by
  cases reply with
  | built =>
    simp only [resume?] at resumes
    split at resumes
    case h_1 e failed => cases Option.some.inj resumes; exact .inr ⟨e, rfl, rfl⟩
    case h_2 output built =>
      cases Option.some.inj resumes
      rcases install_cases s with begun | ⟨e, failed⟩
      · exact .inl (by rw [begun]; exact ⟨rfl, rfl⟩)
      · exact .inr ⟨e, by rw [failed]; exact ⟨rfl, rfl⟩⟩
  | _ => cases resumes

end Apart

end Session

namespace Ongoing

/-! ### How far the operations have come -/

/-- How far the operation at the place `i` has come. -/
def progressAt? (o : Ongoing) (i : Nat) : Option Progress :=
  o.operations[i]?.map Operation.progress

/-- The operation at the place `i` waits for a build, and begins the watch when that is over. -/
def Enabling (o : Ongoing) (i : Nat) : Prop :=
  ∃ b, o.progressAt? i = some (.waits (.building b true))

section Switching

variable {o o₁ o' : Ongoing}

/-- The operation at the place `i` has done this part, and the others are where they were. -/
structure Does (o o' : Ongoing) (i : Nat) (m : Move) : Prop where
  session : o'.session = m.session
  now : o'.progressAt? i = some m.progress
  others : ∀ j, j ≠ i → o'.progressAt? j = o.progressAt? j

theorem does_begin {view : EditorView} {request : Request}
    (happens : o.act? (.begin view request) = some o') :
    Does o o' o.operations.length (o.session.begin view request) := by
  cases Option.some.inj happens
  let op : Operation := ⟨request, none, [], .returned .done⟩
  have turn : Turn o.operations _ _ op
      (op.go (request.asks? view) (o.session.begin view request)) :=
    turn_begin o.operations rfl rfl
  refine ⟨rfl, ?_, fun j other => ?_⟩
  · exact congrArg (Option.map Operation.progress) turn.now
  · exact congrArg (Option.map Operation.progress) (turn.others j other)

theorem does_resume {i : Nat} {view : EditorView} {reply : Reply}
    (happens : o.act? (.resume i view reply) = some o') :
    ∃ reason m, o.progressAt? i = some (.waits reason) ∧
      o.session.resume? view reason reply = some m ∧ Does o o' i m := by
  obtain ⟨op, reason, m, place, waits, resumes, rfl⟩ := act?_resume.mp happens
  have turn : Turn o.operations _ i op (op.go (reason.asks? reply) m) := turn_resume place
  refine ⟨reason, m, by simp [progressAt?, place, waits], resumes, rfl, ?_, fun j other => ?_⟩
  · exact congrArg (Option.map Operation.progress) turn.now
  · exact congrArg (Option.map Operation.progress) (turn.others j other)

/-- A part after which the operation does not build for a watch adds none to those that do. -/
theorem Does.enabling {i j : Nat} {m : Move} (does : Does o o' i m)
    (enables : ∀ b, m.progress ≠ .waits (.building b true)) (h : o'.Enabling j) : o.Enabling j := by
  obtain ⟨b, waits⟩ := h
  by_cases here : j = i
  · rw [here, does.now] at waits
    exact absurd (Option.some.inj waits) (enables b)
  · exact ⟨b, (does.others j here).symm.trans waits⟩

/-! ### Since the watch was switched off -/

/-- What holds since the watch was switched off in the session `o`.  Of the operations that waited
then to begin one, each still waits, or has begun it, or has failed; and a watch is there only if
one of them has begun it. -/
structure SwitchedOff (o o' : Ongoing) : Prop where
  earlier : ∀ i, o'.Enabling i → o.Enabling i
  pending : ∀ i, o.Enabling i → o'.Enabling i ∨ o'.progressAt? i = some (.returned .done) ∨
    ∃ e, o'.progressAt? i = some (.returned (.failed e))
  watch : o'.session.isWatching = true ↔
    ∃ i, o.Enabling i ∧ o'.progressAt? i = some (.returned .done)

/-- Where an operation has come anywhere, no new one is begun. -/
theorem lt_length_of_progressAt? {i : Nat} {p : Progress} (h : o.progressAt? i = some p) :
    i < o.operations.length := by
  obtain ⟨op, place, -⟩ := Option.map_eq_some_iff.mp h
  exact (List.getElem?_eq_some_iff.mp place).1

/-- Switching the watch off ends the one that is there, and leaves the operations alone. -/
theorem switchedOff_begin {view : EditorView}
    (off : o.act? (.begin view (.setAutoBuild false)) = some o') : SwitchedOff o o' := by
  have does := does_begin off
  have same {i : Nat} (enabling : o.Enabling i) : o'.progressAt? i = o.progressAt? i := by
    obtain ⟨b, waits⟩ := enabling
    exact does.others i (Nat.ne_of_lt (lt_length_of_progressAt? waits))
  constructor
  · exact fun i => does.enabling nofun
  · intro i enabling
    obtain ⟨b, waits⟩ := enabling
    exact .inl ⟨b, (same ⟨b, waits⟩).trans waits⟩
  · have ended : o'.session.isWatching = false := by rw [does.session]; rfl
    rw [ended]
    refine ⟨nofun, ?_⟩
    rintro ⟨i, ⟨b, waits⟩, done⟩
    rw [same ⟨b, waits⟩, waits] at done
    cases done

variable {m : Move} {i : Nat}

theorem SwitchedOff.lt_length (h : SwitchedOff o o₁) (enabling : o.Enabling i) :
    i < o₁.operations.length := by
  rcases h.pending i enabling with ⟨b, waits⟩ | done | ⟨e, failed⟩
  · exact lt_length_of_progressAt? waits
  · exact lt_length_of_progressAt? done
  · exact lt_length_of_progressAt? failed

/-- An operation that has nothing to do with the watch leaves all this as it is. -/
theorem SwitchedOff.apart (h : SwitchedOff o o₁) (does : Does o₁ o' i m)
    (apart : Session.Apart o₁.session m) (free : ¬ o.Enabling i) : SwitchedOff o o' := by
  have same {j : Nat} (enabling : o.Enabling j) : o'.progressAt? j = o₁.progressAt? j :=
    does.others j (fun here => free (here ▸ enabling))
  constructor
  · exact fun j enabling => h.earlier j (does.enabling apart.enables enabling)
  · intro j enabling
    unfold Enabling
    rw [same enabling]
    exact h.pending j enabling
  · have kept : o'.session.isWatching = o₁.session.isWatching := by
      rw [does.session, Session.isWatching, apart.watch]
      rfl
    rw [kept, h.watch]
    refine exists_congr fun j => and_congr_right fun enabling => ?_
    rw [same enabling]

/-- An operation whose build is over begins the watch, or fails. -/
theorem SwitchedOff.builds (h : SwitchedOff o o₁) (does : Does o₁ o' i m)
    (enabling : o₁.Enabling i)
    (ended : (m.progress = .returned .done ∧ m.session.isWatching = true) ∨
      ∃ e, m.progress = .returned (.failed e) ∧ m.session.watch = o₁.session.watch) :
    SwitchedOff o o' := by
  have waited := h.earlier i enabling
  have returned : ∀ b, m.progress ≠ .waits (.building b true) := by
    rcases ended with ⟨done, -⟩ | ⟨e, failed, -⟩
    · simp [done]
    · simp [failed]
  constructor
  · exact fun j enabling => h.earlier j (does.enabling returned enabling)
  · intro j pending
    by_cases here : j = i
    · subst here
      rw [does.now]
      rcases ended with ⟨done, -⟩ | ⟨e, failed, -⟩
      · exact .inr (.inl (by rw [done]))
      · exact .inr (.inr ⟨e, by rw [failed]⟩)
    · unfold Enabling
      rw [does.others j here]
      exact h.pending j pending
  · rcases ended with ⟨done, running⟩ | ⟨e, failed, kept⟩
    · rw [does.session, running]
      exact ⟨fun _ => ⟨i, waited, by rw [does.now, done]⟩, fun _ => rfl⟩
    · have same : o'.session.isWatching = o₁.session.isWatching := by
        rw [does.session, Session.isWatching, kept]
        rfl
      rw [same, h.watch]
      -- the place `i` counts neither before, when it waits, nor after, when it has failed
      refine exists_congr fun j => and_congr_right fun _ => ?_
      by_cases here : j = i
      · obtain ⟨b, waits⟩ := enabling
        rw [here, does.now, failed, waits]
        simp
      · rw [does.others j here]

/-- Whatever happens preserves this, unless the watch is switched once more. -/
theorem SwitchedOff.act? {happening : Happening} (h : SwitchedOff o o₁)
    (other : ¬ happening.Switches) (happens : o₁.act? happening = some o') : SwitchedOff o o' := by
  cases happening with
  | begin view request =>
    have apart : Session.Apart o₁.session (o₁.session.begin view request) :=
      Session.apart_begin view other
    exact h.apart (does_begin happens) apart
      (fun enabling => absurd (h.lt_length enabling) (Nat.lt_irrefl _))
  | resume i view reply =>
    obtain ⟨reason, m, waits, resumes, does⟩ := does_resume happens
    by_cases enabling : ∃ b, reason = .building b true
    · obtain ⟨b, rfl⟩ := enabling
      exact h.builds does ⟨b, waits⟩ (Session.resume_building resumes)
    · refine h.apart does (Session.apart_resume (not_exists.mp enabling) resumes) (fun was => ?_)
      rcases h.pending i was with ⟨b, still⟩ | done | ⟨e, failed⟩
      · have same := still.symm.trans waits
        cases same
        exact enabling ⟨b, rfl⟩
      · cases done.symm.trans waits
      · cases failed.symm.trans waits
  | engine a =>
    obtain ⟨e', -, rfl⟩ := Option.map_eq_some_iff.mp happens
    exact ⟨h.earlier, h.pending, h.watch⟩

theorem SwitchedOff.play? {happenings : List Happening} (h : SwitchedOff o o₁)
    (others : ∀ x ∈ happenings, ¬ x.Switches) (plays : o₁.play? happenings = some o') :
    SwitchedOff o o' := by
  induction happenings generalizing o₁ with
  | nil => cases Option.some.inj plays; exact h
  | cons happening happenings ih =>
    obtain ⟨o₂, happens, rest⟩ := play?_cons.mp plays
    obtain ⟨first, later⟩ := List.forall_mem_cons.mp others
    exact ih (h.act? first happens) later rest

end Switching

/-- **Switching the watch off does not reach an operation that is still building.**  The watch is
switched off, and from then on it is neither switched nor are the settings reloaded.  Once all
operations have returned, no watch is running if and only if each operation that waited for a build
to begin one, when it was switched off, has failed. -/
theorem disabled_iff_builds_failed {o o₁ o₂ : Ongoing} {view : EditorView}
    {later : List Happening} (off : o.act? (.begin view (.setAutoBuild false)) = some o₁)
    (last : ∀ h ∈ later, ¬ h.Switches) (plays : o₁.play? later = some o₂)
    (returned : ∀ op ∈ o₂.operations, ∃ answer, op.progress = .returned answer) :
    o₂.session.isWatching = false ↔
      ∀ i, o.Enabling i → ∃ e, o₂.progressAt? i = some (.returned (.failed e)) := by
  have since := (switchedOff_begin off).play? last plays
  have idle (i : Nat) : ¬ o₂.Enabling i := by
    rintro ⟨b, waits⟩
    obtain ⟨op, place, progress⟩ := Option.map_eq_some_iff.mp waits
    obtain ⟨answer, ended⟩ := returned op (List.mem_of_getElem? place)
    cases ended.symm.trans progress
  rw [← Bool.not_eq_true, since.watch, not_exists]
  constructor
  · intro none i enabling
    rcases since.pending i enabling with waits | done | failed
    · exact absurd waits (idle i)
    · exact absurd ⟨enabling, done⟩ (none i)
    · exact failed
  · rintro failed i ⟨enabling, done⟩
    obtain ⟨e, failed⟩ := failed i enabling
    cases done.symm.trans failed

open Engine.Sample in
/-- The watch is switched off while another operation still builds for it, and the build fails. -/
theorem disabled_iff_builds_failed_failing :
    let view : EditorView := ⟨none, none, none⟩
    let start : Ongoing := new root
      (.new { machine with program := fun _ files => (⟨[], [], some 1⟩, files) } settings)
    ∃ o o₁ o₂, start.act? (.begin view (.setAutoBuild true)) = some o ∧ o.Enabling 0 ∧
      o.act? (.begin view (.setAutoBuild false)) = some o₁ ∧
      o₁.play? [.resume 0 view .built] = some o₂ ∧ o₂.session.isWatching = false := by
  intro view start
  have ends : (((start.act? (.begin view (.setAutoBuild true))).bind
      (·.act? (.begin view (.setAutoBuild false)))).bind
        (·.play? [.resume 0 view .built])).map (fun o => o.operations.map Operation.progress) =
      some [.returned (.failed (.processFailure (some 1) "")), .returned .done] := by
    decide +kernel
  obtain ⟨o₂, plays, ended⟩ := Option.map_eq_some_iff.mp ends
  obtain ⟨o₁, off, plays⟩ := Option.bind_eq_some_iff.mp plays
  obtain ⟨o, on, off⟩ := Option.bind_eq_some_iff.mp off
  have at0 : o₂.progressAt? 0 = some (.returned (.failed (.processFailure (some 1) ""))) := by
    rw [progressAt?, ← List.getElem?_map, ended]
    rfl
  have returned : ∀ op ∈ o₂.operations, ∃ answer, op.progress = .returned answer := by
    intro op member
    have progress : op.progress ∈ o₂.operations.map Operation.progress := List.mem_map_of_mem member
    rw [ended] at progress
    rcases List.mem_cons.mp progress with failed | progress
    · exact ⟨_, failed⟩
    · exact ⟨_, List.mem_singleton.mp progress⟩
  have last : ∀ h ∈ [Happening.resume 0 view .built], ¬ h.Switches := by
    simp [Happening.Switches]
  have enabling : o.Enabling 0 := by
    cases Option.some.inj on
    exact ⟨⟨"cscope.out", ⟨[], [], some 1⟩⟩, by decide +kernel⟩
  refine ⟨o, o₁, o₂, on, enabling, off, plays, ?_⟩
  refine (disabled_iff_builds_failed off last plays returned).mpr (fun i waits => ?_)
  have single : o.operations.length = 1 := by
    cases Option.some.inj on
    rfl
  obtain ⟨b, waits⟩ := waits
  have first : i = 0 := by
    have bound := lt_length_of_progressAt? waits
    omega
  exact ⟨_, first ▸ at0⟩

open Engine.Sample in
/-- The watch is switched on and then off, and when both have returned it is running. -/
theorem watching_after_disabled :
    let view : EditorView := ⟨none, none, none⟩
    ((new root engine).play? [.begin view (.setAutoBuild true), .begin view (.setAutoBuild false),
        .resume 0 view .built]).map
          (fun o => (o.operations.map Operation.progress, o.session.isWatching)) =
      some ([.returned .done, .returned .done], true) := by
  decide +kernel

end Ongoing

end SymbolNav
