/-
  SymbolNav/Proofs/Session/Bearings.lean
  ======================================
  **Where operations lead.**

  Jumps, picks and ways back are the only parts of operations that lead to a position:
  all others keep the history, open no file and return no position (`Stays`).  Lookups,
  builds and the watch never come to such a part (`Aside`).  What an operation opens is
  what it returns (`Operation.Sound`).
-/
import SymbolNav.Proofs.Session.Part

namespace SymbolNav

/-! ### Where operations lead -/

/-- The file that is being opened. -/
def Progress.opening? : Progress → Option Position
  | .waits (.opening p) => some p
  | _ => none

/-- The position that has been returned. -/
def Progress.position? : Progress → Option Position
  | .returned (.position p) => p
  | _ => none

def Progress.heading? (p : Progress) : Option Position := p.opening?.or p.position?

/-- The operation has returned no position, or waits for something that leads to none. -/
def Progress.isAside : Progress → Bool
  | .returned (.position _) => false
  | .returned _ | .waits (.lookup ..) | .waits (.building ..) => true
  | .waits _ => false

theorem Progress.heading?_of_isAside {p : Progress} (aside : p.isAside = true) :
    p.heading? = none := by
  cases p with
  | returned answer => cases answer <;> first | rfl | cases aside
  | waits reason => cases reason <;> first | rfl | cases aside

/-- Requests that lead to no position: lookups, builds and the watch. -/
def Request.isAside : Request → Bool
  | .start | .build | .setAutoBuild _ | .reload _ | .look .. => true
  | .query _ | .queryWithPrompt _ | .run _ | .showResults | .jump _ | .pop => false

def Effect.opened? : Effect → Option Position
  | .opened p _ => some p
  | _ => none

/-- The positions that are opened. -/
def opened (effects : List Effect) : List Position := effects.filterMap Effect.opened?

@[simp] theorem opened_append (effects more : List Effect) :
    opened (effects ++ more) = opened effects ++ opened more :=
  List.filterMap_append

@[simp] theorem opened_notices (texts : List String) : opened (texts.map .notice) = [] := by
  simp [opened, Effect.opened?]

namespace Session

/-- The part leads to no position. -/
structure Stays (s : Session) (m : Move) : Prop where
  history : m.session.history = s.history
  opening : m.progress.opening? = none
  position : m.progress.position? = none
  opened : opened m.effects = []

/-- The part belongs to an operation that leads to none at all. -/
structure Aside (s : Session) (m : Move) : Prop extends Stays s m where
  aside : m.progress.isAside = true

section Parts

variable {v : EditorView} {s : Session} {m : Move}

theorem Aside.of_history {s' : Session} (h : Aside s' m) (same : s'.history = s.history) :
    Aside s m :=
  { h with history := h.history.trans same }

theorem Stays.of_history {s' : Session} (h : Stays s' m) (same : s'.history = s.history) :
    Stays s m :=
  { h with history := h.history.trans same }

theorem aside_give (texts : List String) {answer : Answer}
    (aside : (Progress.returned answer).isAside = true) :
    Aside s (s.give (texts.map .notice) answer) := by
  refine ⟨⟨rfl, rfl, ?_, opened_notices texts⟩, aside⟩
  exact (Option.or_eq_none_iff.mp (Progress.heading?_of_isAside aside)).2

theorem aside_install : Aside s s.install := by
  unfold install
  split <;> exact ⟨⟨rfl, rfl, rfl, rfl⟩, rfl⟩

theorem aside_build (thenWatch : Bool) : Aside s (s.build thenWatch) := by
  unfold build
  dsimp only
  split
  · exact ⟨⟨rfl, rfl, rfl, opened_notices _⟩, rfl⟩
  · exact ⟨⟨rfl, rfl, rfl, opened_notices _⟩, rfl⟩

theorem aside_beginWatch : Aside s s.beginWatch := by
  unfold beginWatch
  split
  · exact aside_install
  · exact aside_build true

theorem aside_setAutoBuild (enabled : Bool) : Aside s (s.setAutoBuild enabled) := by
  unfold setAutoBuild
  split
  · exact aside_beginWatch
  · exact ⟨⟨rfl, rfl, rfl, rfl⟩, rfl⟩

theorem aside_reload (config : Config) : Aside s (s.reload config) := by
  unfold reload
  split
  · exact aside_give [] rfl
  · dsimp only
    split
    · split
      · exact aside_beginWatch.of_history rfl
      · exact ⟨⟨rfl, rfl, rfl, rfl⟩, rfl⟩
    · exact ⟨⟨rfl, rfl, rfl, rfl⟩, rfl⟩

theorem isAside_lookupAnswer (s : Session) (what : Lookup) (items : List Item) :
    (Progress.returned (s.lookupAnswer what items)).isAside = true := by
  cases what <;> rfl

theorem aside_look (what : Lookup) (word : String) : Aside s (s.look what word) := by
  unfold look
  dsimp only
  split
  · exact ⟨⟨rfl, rfl, rfl, rfl⟩, rfl⟩
  · exact (aside_give [] (isAside_lookupAnswer ..)).of_history rfl
  · exact ⟨⟨rfl, rfl, rfl, rfl⟩, rfl⟩

theorem aside_begin (v : EditorView) {request : Request} (aside : request.isAside = true) :
    Aside s (s.begin v request) := by
  cases request with
  | start =>
    simp only [begin]
    split
    · exact aside_beginWatch
    · exact aside_give [] rfl
  | build => exact aside_build false
  | setAutoBuild enabled => exact aside_setAutoBuild enabled
  | reload config => exact aside_reload config
  | look what word => exact aside_look what word
  | query | queryWithPrompt | run | showResults | jump | pop => cases aside

theorem aside_resume {reason : Waiting} {reply : Reply}
    (aside : (Progress.waits reason).isAside = true)
    (resumes : s.resume? v reason reply = some m) : Aside s m := by
  unfold resume? at resumes
  split at resumes
  case h_3 what generation =>
    obtain ⟨result, -, rfl⟩ := Option.map_eq_some_iff.mp resumes
    exact aside_give [] (isAside_lookupAnswer ..)
  case h_6 b thenWatch =>
    split at resumes
    case h_1 => cases Option.some.inj resumes; exact aside_give [b.notice] rfl
    case h_2 =>
      split at resumes
      · cases Option.some.inj resumes
        have begins := aside_install (s := s)
        exact { begins with opened := (opened_append [.notice b.notice] _).trans begins.opened }
      · cases Option.some.inj resumes
        exact aside_give [b.notice] rfl
  case h_7 => cases resumes
  all_goals cases aside

theorem stays_ask (spec : QuerySpec) : Stays s (s.ask spec) := by
  unfold ask
  dsimp only
  split <;> exact ⟨rfl, rfl, rfl, rfl⟩

theorem stays_showResults : Stays s s.showResults := by
  unfold showResults
  split <;> exact ⟨rfl, rfl, rfl, rfl⟩

/-- Of the requests only jumps and ways back lead anywhere at once. -/
theorem stays_begin (v : EditorView) {request : Request} (unmoved : ∀ item, request ≠ .jump item)
    (forth : request ≠ .pop) : Stays s (s.begin v request) := by
  cases request with
  | start | build | setAutoBuild | reload | look => exact (aside_begin v rfl).toStays
  | query kind =>
    simp only [begin]
    split
    · exact stays_ask _
    · exact ⟨rfl, rfl, rfl, rfl⟩
  | queryWithPrompt kind => exact ⟨rfl, rfl, rfl, rfl⟩
  | run spec => exact stays_ask spec
  | showResults => exact stays_showResults
  | jump item => exact absurd rfl (unmoved item)
  | pop => exact absurd rfl forth

/-- Of the operations that go on, only those lead anywhere for which something has been picked or
opened. -/
theorem stays_resume {reason : Waiting} {reply : Reply}
    (unpicked : ∀ item, reply ≠ .picked (some item)) (unopened : ∀ p, reason ≠ .opening p)
    (resumes : s.resume? v reason reply = some m) : Stays s m := by
  by_cases aside : (Progress.waits reason).isAside = true
  · exact (aside_resume aside resumes).toStays
  · unfold resume? at resumes
    split at resumes
    case h_1 =>
      split at resumes
      · split at resumes
        · cases Option.some.inj resumes; exact ⟨rfl, rfl, rfl, rfl⟩
        · cases Option.some.inj resumes; exact stays_ask _
      · cases Option.some.inj resumes; exact ⟨rfl, rfl, rfl, rfl⟩
    case h_2 ticket generation =>
      obtain ⟨result, -, rfl⟩ := Option.map_eq_some_iff.mp resumes
      cases result with
      | error e => exact ⟨rfl, rfl, rfl, rfl⟩
      | ok r =>
        simp only [settled]
        split
        · exact stays_showResults.of_history rfl
        · exact ⟨rfl, rfl, rfl, rfl⟩
    case h_4 p item =>
      split at resumes
      case h_1 i => exact absurd rfl (unpicked i)
      case h_2 => cases Option.some.inj resumes; exact ⟨rfl, rfl, rfl, rfl⟩
    case h_5 target failure => exact absurd rfl (unopened target)
    case h_7 => cases resumes
    all_goals exact absurd rfl aside

/-- What a part opens is what it returns. -/
theorem Stays.opened_eq (stays : Stays s m) :
    SymbolNav.opened m.effects = m.progress.position?.toList := by
  rw [stays.opened, stays.position]
  rfl

theorem opened_jump (item : Item) :
    SymbolNav.opened (jump v s item).effects = (jump v s item).progress.position?.toList := by
  unfold jump
  split <;> rfl

theorem opened_begin (v : EditorView) (request : Request) :
    SymbolNav.opened (s.begin v request).effects =
      (s.begin v request).progress.position?.toList := by
  cases request with
  | jump item => exact opened_jump item
  | pop =>
    simp only [begin, pop]
    split <;> exact opened_notices _
  | _ => exact (stays_begin v (by simp) (by simp)).opened_eq

theorem opened_resume {reason : Waiting} {reply : Reply}
    (resumes : s.resume? v reason reply = some m) :
    SymbolNav.opened m.effects = m.progress.position?.toList := by
  by_cases picked : ∃ item, reply = .picked (some item)
  · obtain ⟨item, rfl⟩ := picked
    cases reason with
    | pick p => cases Option.some.inj resumes; exact opened_jump item
    | _ => cases resumes
  · by_cases opening : ∃ p, reason = .opening p
    · obtain ⟨p, rfl⟩ := opening
      cases reply with
      | opened failure => cases failure <;> cases Option.some.inj resumes <;> rfl
      | _ => cases resumes
    · exact (stays_resume (not_exists.mp picked) (not_exists.mp opening) resumes).opened_eq

end Parts

end Session

/-! ### What operations return -/

/-- The operation returns what it opens, and nothing of the kind if it leads to no position. -/
structure Operation.Sound (op : Operation) : Prop where
  opened : opened op.effects = op.progress.position?.toList
  aside : op.request.isAside = true → op.progress.isAside = true

theorem Ongoing.sound_of_act? {o o' : Ongoing} {h : Happening} (happens : o.act? h = some o')
    (sound : ∀ op ∈ o.operations, op.Sound) : ∀ op ∈ o'.operations, op.Sound := by
  cases h with
  | begin view request =>
    cases Option.some.inj happens
    intro op member
    rcases List.mem_append.mp member with old | new
    · exact sound op old
    · rw [List.mem_singleton.mp new]
      exact ⟨Session.opened_begin view request, fun aside => (Session.aside_begin view aside).aside⟩
  | engine a =>
    obtain ⟨e', -, rfl⟩ := Option.map_eq_some_iff.mp happens
    exact sound
  | resume i view reply =>
    obtain ⟨op, reason, m, place, waits, resumes, rfl⟩ := act?_resume.mp happens
    have before := sound op (List.mem_of_getElem? place)
    have silent := before.opened
    rw [waits] at silent
    intro op' member
    rcases List.mem_or_eq_of_mem_set member with old | rfl
    · exact sound op' old
    · constructor
      · show opened (op.effects ++ m.effects) = _
        rw [opened_append, silent]
        exact Session.opened_resume resumes
      · intro aside
        have waiting := before.aside aside
        rw [waits] at waiting
        exact (Session.aside_resume waiting resumes).aside
end SymbolNav
