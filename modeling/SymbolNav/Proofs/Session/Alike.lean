/-
  SymbolNav/Proofs/Session/Alike.lean
  ===================================
  **The same part of an operation on two sessions**, one of which has been asked
  less.

  The sessions are alike (`Session.Alike`) when their engines are, on the runs
  that both of them have, and when they have the same interactive state, unless
  that is what has been left out.  A part that both of them do keeps them alike
  and does the same (`Session.Alike.begin`, `Session.Alike.resume?`).  A part that
  only the first does is not noticed by the other (`Session.Alike.left_out`): what
  is asked on the side leaves the interactive state as it is.
-/
import Mathlib.Data.Option.Defs
import SymbolNav.Proofs.Engine.Renumbered
import SymbolNav.Proofs.Session.Part

namespace SymbolNav

open Engine (Renames given)

/-! ### Interactive operations and lookups -/

/-- The request asks on the side. -/
def Request.isLook : Request → Bool
  | .look .. => true
  | _ => false

/-- The request is an interactive operation. -/
def Request.isInteractive : Request → Bool
  | .query _ | .queryWithPrompt _ | .run _ | .showResults | .jump _ | .pop => true
  | .start | .build | .setAutoBuild _ | .reload _ | .look .. => false

/-- What an interactive operation or a lookup can wait for. -/
def Waiting.Fits (request : Request) : Waiting → Prop
  | .lookup .. => request.isLook = true
  | .building .. => False
  | .prompt _ | .run .. | .pick _ | .opening _ => request.isLook = false

def Progress.Fits (request : Request) : Progress → Prop
  | .returned _ => True
  | .waits reason => reason.Fits request

/-! ### The same up to numbers -/

/-- The effects are the same, except for the command that a notice of an error quotes. -/
inductive Effect.Alike : Effect → Effect → Prop
  | same (x : Effect) : Alike x x
  | error (command command' : String) :
      Alike (.notice (queryErrorNotice command)) (.notice (queryErrorNotice command'))

section Numbers

-- `numbers` are the numbers of the runs that both sessions have.
variable (numbers : List Nat)

inductive Waiting.Alike : Waiting → Waiting → Prop
  | prompt (kind : QueryKind) : Alike (.prompt kind) (.prompt kind)
  | run (ticket : Nat) {g g' : Nat} (renames : Renames numbers g g') :
      Alike (.run ticket g) (.run ticket g')
  | lookup (what : Lookup) {g g' : Nat} (renames : Renames numbers g g') :
      Alike (.lookup what g) (.lookup what g')
  | pick (p : Presentation) : Alike (.pick p) (.pick p)
  | opening (target : Position) : Alike (.opening target) (.opening target)

inductive Progress.Alike : Progress → Progress → Prop
  | returned (answer : Answer) : Alike (.returned answer) (.returned answer)
  | waits {reason reason' : Waiting} (alike : reason.Alike numbers reason') :
      Alike (.waits reason) (.waits reason')

end Numbers

/-- The sessions have the same interactive state. -/
structure SameUse (s s' : Session) : Prop where
  history : s'.history = s.history
  tickets : s'.tickets = s.tickets
  lastResults : Option.Rel Run.Settled.Same s.lastResults s'.lastResults

/-- The sessions are alike; `interactive` says whether they have the same interactive state. -/
structure Session.Alike (host : Host) (interactive : Bool) (numbers : List Nat)
    (s s' : Session) : Prop where
  root : s'.root = s.root
  engine : s.engine.Alike host numbers s'.engine
  use : interactive = true → SameUse s s'

structure Move.Alike (host : Host) (interactive : Bool) (numbers : List Nat) (m m' : Move) :
    Prop where
  session : m.session.Alike host interactive numbers m'.session
  effects : List.Forall₂ Effect.Alike m.effects m'.effects
  progress : m.progress.Alike numbers m'.progress

theorem Waiting.Alike.append {numbers more : List Nat} {w w' : Waiting} (h : w.Alike numbers w') :
    w.Alike (numbers ++ more) w' := by
  cases h with
  | prompt kind => exact .prompt kind
  | run ticket renames => exact .run ticket renames.append
  | lookup what renames => exact .lookup what renames.append
  | pick p => exact .pick p
  | opening target => exact .opening target

theorem Progress.Alike.append {numbers more : List Nat} {p p' : Progress} (h : p.Alike numbers p') :
    p.Alike (numbers ++ more) p' := by
  cases h with
  | returned answer => exact .returned answer
  | waits alike => exact .waits alike.append

theorem Effect.alike_refl (effects : List Effect) : List.Forall₂ Effect.Alike effects effects :=
  List.forall₂_same.mpr (fun x _ => .same x)

namespace Session

section Both

variable {host : Host} {interactive : Bool} {numbers : List Nat} {s s' : Session}

/-! ### Parts that both sessions do -/

/-- A part that leaves the engine as it is takes no number. -/
theorem alike_of_engine_eq {m m' : Move} (h : m.Alike host interactive numbers m')
    (engine : m.session.engine = s.engine) :
    m.Alike host interactive (numbers ++ given s.engine m.session.engine) m' := by
  rw [engine, Engine.given_of_latest_eq rfl, List.append_nil]
  exact h

theorem engine_jump (v : EditorView) (s : Session) (item : Item) :
    (jump v s item).session.engine = s.engine := by
  unfold jump
  split <;> rfl

theorem engine_pop (s : Session) : s.pop.session.engine = s.engine := by
  unfold pop
  dsimp only
  split <;> rfl

theorem engine_showResults (s : Session) : s.showResults.session.engine = s.engine := by
  unfold showResults
  split <;> rfl

theorem engine_settled (s : Session) (ticket : Nat) (result : Except Error Run.Settled) :
    (s.settled ticket result).session.engine = s.engine := by
  unfold settled
  split
  case h_1 => rfl
  case h_2 r =>
    split
    case isTrue => exact engine_showResults { s with lastResults := some r }
    case isFalse => rfl

theorem Alike.give (h : Alike host interactive numbers s s') (effects : List Effect)
    (answer : Answer) :
    (s.give effects answer).Alike host interactive numbers (s'.give effects answer) :=
  ⟨h, Effect.alike_refl effects, .returned answer⟩

theorem Alike.wait (h : Alike host interactive numbers s s') (effects : List Effect)
    {reason reason' : Waiting} (same : reason.Alike numbers reason') :
    (s.wait effects reason).Alike host interactive numbers (s'.wait effects reason') :=
  ⟨h, Effect.alike_refl effects, .waits same⟩

theorem Alike.look (h : Alike host interactive numbers s s') (steady : host.Steady)
    (what : Lookup) (word : String) :
    (s.look what word).Alike host interactive
      (numbers ++ given s.engine (s.look what word).session.engine) (s'.look what word) := by
  have both := h.engine.both steady ⟨what.kind, word⟩ s.root
  unfold Session.look
  rw [h.root]
  generalize s.engine.startComplete ⟨what.kind, word⟩ s.root = result at both ⊢
  generalize s'.engine.startComplete ⟨what.kind, word⟩ s.root = result' at both ⊢
  rcases result with ⟨started, e⟩
  rcases result' with ⟨started', e'⟩
  rcases both with ⟨engine, same⟩
  have session : Alike host interactive (numbers ++ given s.engine e) { s with engine := e }
      { s' with root := s.root, engine := e' } :=
    ⟨rfl, engine, fun kept => ⟨(h.use kept).1, (h.use kept).2, (h.use kept).3⟩⟩
  cases same with
  | value renames => exact session.wait [] (.lookup what renames)
  | failed e => exact session.give [] _
  | crashed => exact session.give [] _

end Both

section Interactive

variable {host : Host} {numbers : List Nat} {s s' : Session}

theorem Alike.jump (h : Alike host true numbers s s') (v : EditorView) (item : Item) :
    (jump v s item).Alike host true numbers (Session.jump v s' item) := by
  have use := h.use rfl
  unfold Session.jump
  cases v.position with
  | none => exact h.wait _ (.opening _)
  | some here =>
    rw [use.history]
    have session : Alike host true numbers { s with history := s.history.push here }
        { s' with history := s.history.push here } :=
      ⟨h.root, h.engine, fun _ => ⟨rfl, use.tickets, use.lastResults⟩⟩
    exact session.wait [] (.opening _)

theorem Alike.pop (h : Alike host true numbers s s') :
    s.pop.Alike host true numbers s'.pop := by
  have use := h.use rfl
  unfold Session.pop
  dsimp only
  rw [use.history]
  cases s.history.peek? with
  | none => exact h.give _ _
  | some p =>
    have session : Alike host true numbers { s with history := s.history.drop }
        { s' with history := s.history.drop } :=
      ⟨h.root, h.engine, fun _ => ⟨rfl, use.tickets, use.lastResults⟩⟩
    exact session.wait _ (.opening _)

theorem Alike.showResults (h : Alike host true numbers s s') :
    s.showResults.Alike host true numbers s'.showResults := by
  have results := (h.use rfl).lastResults
  unfold Session.showResults
  generalize s.lastResults = last at results ⊢
  generalize s'.lastResults = last' at results ⊢
  cases results with
  | none => exact h.give _ _
  | @some r r' same =>
    have title : r'.title = r.title := by rw [same]; rfl
    have sorted : r'.sortedItems = r.sortedItems := by rw [same]; rfl
    dsimp only
    rw [h.engine.config, h.root, title, sorted]
    exact h.wait _ (.pick _)

theorem Alike.queryFailed (h : Alike host true numbers s s') (e : Error) :
    (s.queryFailed e).Alike host true numbers (s'.queryFailed e) :=
  ⟨h, .cons (.error _ _) .nil, .returned _⟩

theorem alike_after {m m' : Move} (h : m.Alike host true numbers m') (effects : List Effect) :
    (after effects m).Alike host true numbers (Session.after effects m') :=
  ⟨h.session, List.rel_append (Effect.alike_refl effects) h.effects, h.progress⟩

theorem Alike.ask (h : Alike host true numbers s s') (steady : host.Steady) (spec : QuerySpec) :
    (s.ask spec).Alike host true (numbers ++ given s.engine (s.ask spec).session.engine)
      (s'.ask spec) := by
  have use := h.use rfl
  have both := h.engine.both steady spec s.root
  unfold Session.ask
  rw [h.root, use.tickets]
  generalize s.engine.startComplete spec s.root = result at both ⊢
  generalize s'.engine.startComplete spec s.root = result' at both ⊢
  rcases result with ⟨started, e⟩
  rcases result' with ⟨started', e'⟩
  rcases both with ⟨engine, same⟩
  have session : Alike host true (numbers ++ given s.engine e)
      { s with tickets := s.tickets + 1, engine := e }
      { s' with root := s.root, tickets := s.tickets + 1, engine := e' } :=
    ⟨rfl, engine, fun _ => ⟨use.history, rfl, use.lastResults⟩⟩
  cases same with
  | value renames => exact session.wait _ (.run _ renames)
  | failed e => exact alike_after (session.queryFailed e) _
  | crashed => exact session.give _ _

theorem Alike.settled (h : Alike host true numbers s s') (ticket : Nat)
    {result result' : Except Error Run.Settled} (same : Run.SameResult result result') :
    (s.settled ticket result).Alike host true numbers (s'.settled ticket result') := by
  have use := h.use rfl
  cases same with
  | error e => exact h.queryFailed e
  | @ok r r' same =>
    unfold Session.settled
    dsimp only
    rw [use.tickets]
    split
    case isTrue =>
      have session : Alike host true numbers { s with lastResults := some r }
          { s' with tickets := s.tickets, lastResults := some r' } :=
        ⟨h.root, h.engine, fun _ => ⟨use.history, rfl, .some same⟩⟩
      exact session.showResults
    case isFalse => exact h.give _ _

end Interactive

section Both

variable {host : Host} {interactive : Bool} {numbers : List Nat} {s s' : Session}

/-- **What both sessions are asked to do they begin alike.** -/
theorem Alike.begin (h : Alike host interactive numbers s s') (steady : host.Steady)
    (v : EditorView) {request : Request}
    (kept : request.isLook = true ∨ request.isInteractive = true ∧ interactive = true) :
    (s.begin v request).Alike host interactive
      (numbers ++ given s.engine (s.begin v request).session.engine) (s'.begin v request) := by
  cases request with
  | look what word => exact h.look steady what word
  | start | build | setAutoBuild | reload => simp [Request.isLook, Request.isInteractive] at kept
  | query kind =>
    obtain rfl : interactive = true := by simpa [Request.isLook, Request.isInteractive] using kept
    unfold Session.begin
    dsimp only
    cases v.currentWord with
    | some word => exact h.ask steady ⟨kind, word⟩
    | none => exact alike_of_engine_eq (h.give _ _) rfl
  | queryWithPrompt kind => exact alike_of_engine_eq (h.wait _ (.prompt kind)) rfl
  | run spec =>
    obtain rfl : interactive = true := by simpa [Request.isLook, Request.isInteractive] using kept
    exact h.ask steady spec
  | showResults =>
    obtain rfl : interactive = true := by simpa [Request.isLook, Request.isInteractive] using kept
    exact alike_of_engine_eq h.showResults (engine_showResults s)
  | jump item =>
    obtain rfl : interactive = true := by simpa [Request.isLook, Request.isInteractive] using kept
    exact alike_of_engine_eq (h.jump v item) (engine_jump v s item)
  | pop =>
    obtain rfl : interactive = true := by simpa [Request.isLook, Request.isInteractive] using kept
    exact alike_of_engine_eq h.pop (engine_pop s)

theorem Alike.resume_lookup (h : Alike host interactive numbers s s') (v : EditorView)
    (what : Lookup) {g g' : Nat} (renames : Renames numbers g g') {reply : Reply} {m : Move}
    (resumes : s.resume? v (.lookup what g) reply = some m) :
    ∃ m', s'.resume? v (.lookup what g') reply = some m' ∧ m.session = s ∧
      m.Alike host interactive numbers m' := by
  cases reply with
  | settled =>
    rcases Option.map_eq_some_iff.mp resumes with ⟨result, comes, rfl⟩
    rcases h.engine.result? renames comes with ⟨result', comes', same⟩
    simp only [Session.resume?, comes', Option.map_some]
    have answer (items : List Item) : s'.lookupAnswer what items = s.lookupAnswer what items := by
      cases what <;> simp only [lookupAnswer, h.root]
    cases same with
    | error e =>
      rw [answer]
      exact ⟨_, rfl, rfl, h.give _ _⟩
    | @ok r r' same =>
      have sorted : r'.sortedItems = r.sortedItems := by rw [same]; rfl
      dsimp only
      rw [answer, sorted]
      exact ⟨_, rfl, rfl, h.give _ _⟩
  | _ => cases resumes

theorem Alike.resume_prompt {numbers : List Nat} (h : Alike host true numbers s s')
    (steady : host.Steady) (v : EditorView) (kind : QueryKind) {reply : Reply} {m : Move}
    (resumes : s.resume? v (.prompt kind) reply = some m) :
    ∃ m', s'.resume? v (.prompt kind) reply = some m' ∧
      m.Alike host true (numbers ++ given s.engine m.session.engine) m' := by
  cases reply with
  | prompted pattern =>
    cases pattern with
    | none =>
      cases Option.some.inj resumes
      exact ⟨_, rfl, alike_of_engine_eq (h.give _ _) rfl⟩
    | some p =>
      simp only [Session.resume?] at resumes ⊢
      split at resumes
      case isTrue blank =>
        cases Option.some.inj resumes
        rw [if_pos blank]
        exact ⟨_, rfl, alike_of_engine_eq (h.give _ _) rfl⟩
      case isFalse asked =>
        cases Option.some.inj resumes
        rw [if_neg asked]
        exact ⟨_, rfl, h.ask steady ⟨kind, p⟩⟩
  | _ => cases resumes

theorem Alike.resume_pick {numbers : List Nat} (h : Alike host true numbers s s') (v : EditorView)
    (p : Presentation) {reply : Reply} {m : Move} (resumes : s.resume? v (.pick p) reply = some m) :
    ∃ m', s'.resume? v (.pick p) reply = some m' ∧ m.session.engine = s.engine ∧
      m.Alike host true numbers m' := by
  cases reply with
  | picked item =>
    cases item with
    | none =>
      cases Option.some.inj resumes
      exact ⟨_, rfl, rfl, h.give _ _⟩
    | some i =>
      cases Option.some.inj resumes
      exact ⟨_, rfl, engine_jump v s i, h.jump v i⟩
  | _ => cases resumes

theorem Alike.resume_opening (h : Alike host interactive numbers s s') (v : EditorView)
    (target : Position) {reply : Reply} {m : Move}
    (resumes : s.resume? v (.opening target) reply = some m) :
    ∃ m', s'.resume? v (.opening target) reply = some m' ∧ m.session = s ∧
      m.Alike host interactive numbers m' := by
  cases reply with
  | opened failure =>
    cases failure with
    | none | some e =>
      cases Option.some.inj resumes
      exact ⟨_, rfl, rfl, h.give _ _⟩
  | _ => cases resumes

/-- **What both sessions go on with they do alike.** -/
theorem Alike.resume? (h : Alike host interactive numbers s s') (steady : host.Steady)
    (v : EditorView) {reason reason' : Waiting} (same : reason.Alike numbers reason')
    (kept : (∃ what g, reason = .lookup what g) ∨ interactive = true) {reply : Reply} {m : Move}
    (resumes : s.resume? v reason reply = some m) :
    ∃ m', s'.resume? v reason' reply = some m' ∧
      m.Alike host interactive (numbers ++ given s.engine m.session.engine) m' := by
  cases same with
  | lookup what renames =>
    rcases h.resume_lookup v what renames resumes with ⟨m', resumes', still, alike⟩
    exact ⟨m', resumes', alike_of_engine_eq alike (congrArg Session.engine still)⟩
  | prompt kind =>
    obtain rfl : interactive = true := by simpa using kept
    exact h.resume_prompt steady v kind resumes
  | run ticket renames =>
    obtain rfl : interactive = true := by simpa using kept
    cases reply with
    | settled =>
      rcases Option.map_eq_some_iff.mp resumes with ⟨result, comes, rfl⟩
      rcases h.engine.result? renames comes with ⟨result', comes', same⟩
      simp only [Session.resume?, comes', Option.map_some]
      exact ⟨_, rfl, alike_of_engine_eq (h.settled ticket same) (engine_settled s ticket result)⟩
    | _ => cases resumes
  | pick p =>
    obtain rfl : interactive = true := by simpa using kept
    rcases h.resume_pick v p resumes with ⟨m', resumes', still, alike⟩
    exact ⟨m', resumes', alike_of_engine_eq alike still⟩
  | opening target =>
    rcases h.resume_opening v target resumes with ⟨m', resumes', still, alike⟩
    exact ⟨m', resumes', alike_of_engine_eq alike (congrArg Session.engine still)⟩

end Both

/-! ### Parts that only one session does -/

/-- A part of an interactive operation or a lookup asks at most one question.  A lookup leaves the
interactive state as it is. -/
structure Part (s : Session) (request : Request) (m : Move) : Prop where
  root : m.session.root = s.root
  engine : m.session.engine = s.engine ∨
    ∃ spec, m.session.engine = (s.engine.startComplete spec s.root).2
  fits : m.progress.Fits request
  aside : request.isLook = true → m.session.history = s.history ∧
    m.session.tickets = s.tickets ∧ m.session.lastResults = s.lastResults

section Part

variable {s : Session} {request : Request}

theorem part_give (effects : List Effect) (answer : Answer) :
    Part s request (s.give effects answer) :=
  ⟨rfl, .inl rfl, trivial, fun _ => ⟨rfl, rfl, rfl⟩⟩

theorem part_look (what : Lookup) (word : String) :
    Part s (.look what word) (s.look what word) := by
  unfold Session.look
  dsimp only
  split <;> exact ⟨rfl, .inr ⟨_, rfl⟩, by trivial, fun _ => ⟨rfl, rfl, rfl⟩⟩

-- From here on the operation is an interactive one.
variable (direct : request.isLook = false)

include direct

theorem Part.of_direct {m : Move} (root : m.session.root = s.root)
    (engine : m.session.engine = s.engine ∨
      ∃ spec, m.session.engine = (s.engine.startComplete spec s.root).2)
    (fits : m.progress.Fits request) : Part s request m :=
  ⟨root, engine, fits, fun look => absurd (look.symm.trans direct) nofun⟩

theorem part_ask (spec : QuerySpec) : Part s request (s.ask spec) := by
  unfold Session.ask
  dsimp only
  split
  case h_1 => exact .of_direct direct rfl (.inr ⟨spec, rfl⟩) direct
  case h_2 => exact .of_direct direct rfl (.inr ⟨spec, rfl⟩) trivial
  case h_3 => exact .of_direct direct rfl (.inr ⟨spec, rfl⟩) trivial

theorem part_showResults : Part s request s.showResults := by
  unfold Session.showResults
  split
  case h_1 => exact part_give ..
  case h_2 => exact .of_direct direct rfl (.inl rfl) direct

theorem part_jump (v : EditorView) (item : Item) : Part s request (jump v s item) := by
  unfold Session.jump
  split <;> exact .of_direct direct rfl (.inl rfl) direct

theorem part_pop : Part s request s.pop := by
  unfold Session.pop
  dsimp only
  split
  case h_1 => exact .of_direct direct rfl (.inl rfl) direct
  case h_2 => exact part_give ..

end Part

theorem part_begin (v : EditorView) (s : Session) {request : Request}
    (work : request.isLook = true ∨ request.isInteractive = true) :
    Part s request (s.begin v request) := by
  cases request with
  | look what word => exact part_look what word
  | start | build | setAutoBuild | reload => simp [Request.isLook, Request.isInteractive] at work
  | query kind =>
    unfold Session.begin
    dsimp only
    cases v.currentWord with
    | some word => exact part_ask rfl ⟨kind, word⟩
    | none => exact part_give ..
  | queryWithPrompt kind => exact .of_direct rfl rfl (.inl rfl) rfl
  | run spec => exact part_ask rfl spec
  | showResults => exact part_showResults rfl
  | jump item => exact part_jump rfl v item
  | pop => exact part_pop rfl

theorem part_resume {v : EditorView} {s : Session} {request : Request} {reason : Waiting}
    {reply : Reply} {m : Move} (fits : reason.Fits request)
    (resumes : s.resume? v reason reply = some m) : Part s request m := by
  cases resumes_of_resume? resumes with
  | gives effects answer => exact part_give ..
  | asks typed => exact part_ask fits _
  | @stores ticket generation result =>
    have shows := part_showResults (s := { s with lastResults := some result }) fits
    exact .of_direct fits shows.root (.inl (engine_showResults _)) shows.fits
  | jumps item => exact part_jump fits v item
  | installs built => exact fits.elim

/-- **A part that has been left out is not noticed**, if it belongs to a lookup or the interactive
state is left out as well. -/
theorem Alike.left_out {host : Host} {interactive : Bool} {numbers : List Nat} {s s' : Session}
    {request : Request} {m : Move} (h : Alike host interactive numbers s s')
    (part : Part s request m) (apart : request.isLook = true ∨ interactive = false) :
    Alike host interactive numbers m.session s' := by
  constructor
  · exact h.root.trans part.root.symm
  · rcases part.engine with same | ⟨spec, asked⟩
    · rw [same]
      exact h.engine
    · rw [asked]
      exact h.engine.left_out spec s.root
  · intro kept
    have look : request.isLook = true := apart.resolve_right (by simp [kept])
    rcases part.aside look with ⟨history, tickets, lastResults⟩
    have use := h.use kept
    constructor
    · rw [history, use.history]
    · rw [tickets, use.tickets]
    · rw [lastResults]
      exact use.lastResults

end Session

end SymbolNav
