/-
  SymbolNav/Session/Basic.lean
  ============================
  **Editor sessions**: asking, picking, jumping and coming back, with builds and
  a watch on the side.

  An operation of a session may wait: for an answer of the person at the
  editor, for a run, for a build.  `Session.begin` does what a request does up
  to the first such point, `Session.resume?` what it does from one to the next.
  Between the two, anything else may happen to the session, so each of them
  looks at the session as it is then.

  Interactive questions take a ticket.  When the run of one has settled and a
  later ticket has been taken meanwhile, its results are dropped.

  The operations are those of the `Navigator`, cut at their awaits:

    * `jump`, `pop`             `jump_to` and `pop` until the file opens
    * `ask`, `settled`          `run_query` before and after its query
    * `showResults`             `show_results` until the pick
    * `look`, `lookupAnswer`    `lookup`, and what `definitions`, `references`,
                                `incoming_calls` and `outgoing_calls` return
    * `beginWatch`, `install`   `set_auto_build` before and after its build
    * `reload`                  `reload_config`
-/
import SymbolNav.Build
import SymbolNav.History
import SymbolNav.Watch.Basic

namespace SymbolNav

/-! ### The editor -/

/-- What the editor shows at some moment. -/
structure EditorView where
  selection : Option String
  word : Option String
  position : Option Position
deriving DecidableEq, Repr, Inhabited

/-- The pattern that the editor suggests, its `current_word`: the selection, or else the word;
neither counts if it is empty. -/
def EditorView.currentWord (v : EditorView) : Option String :=
  (v.selection.filter (· ≠ "")).or (v.word.filter (· ≠ ""))

/-! ### Requests -/

/-- The questions that are asked on the side. -/
inductive Lookup
  | definitions
  | references
  | incoming
  | outgoing
deriving DecidableEq, Repr

def Lookup.kind : Lookup → QueryKind
  | .definitions => .definition
  | .references => .symbol
  | .incoming => .caller
  | .outgoing => .callee

inductive Request
  | start
  | build
  | setAutoBuild (enabled : Bool)
  | reload (config : Config)
  /-- Ask about what the editor suggests. -/
  | query (kind : QueryKind)
  /-- Ask about what the person types. -/
  | queryWithPrompt (kind : QueryKind)
  | run (spec : QuerySpec)
  | showResults
  | jump (item : Item)
  /-- Go back to where the latest jump left from. -/
  | pop
  | look (what : Lookup) (word : String)
deriving DecidableEq, Repr

inductive Answer
  | done
  | text (s : String)
  | position (p : Option Position)
  | items (items : List Item)
  | calls (calls : List Call)
  | failed (e : Error)
  | crashed
deriving DecidableEq, Repr

/-- What an operation waits for. -/
inductive Waiting
  /-- A pattern for a question of this kind. -/
  | prompt (kind : QueryKind)
  /-- The run of an interactive question. -/
  | run (ticket generation : Nat)
  /-- The run of a question on the side. -/
  | lookup (what : Lookup) (generation : Nat)
  | pick (p : Presentation)
  | opening (target : Position)
  /-- A build, after which the watch may have to begin. -/
  | building (b : Build) (thenWatch : Bool)
deriving DecidableEq, Repr

/-- What comes when it has been waited for. -/
inductive Reply
  | prompted (pattern : Option String)
  | settled
  | picked (item : Option Item)
  | opened (failure : Option Error)
  | built
deriving DecidableEq, Repr

/-- What a session shows. -/
inductive Effect
  | notice (text : String)
  | opened (position : Position) (preview : Bool)
  | presented (p : Presentation) (preview : Bool)
  | prompted (default : String)
deriving DecidableEq, Repr

/-! ### Notices -/

def noPattern : String := "Cannot get pattern from the input box."

def noWord : String := "Cannot find a word under the cursor."

def noEditor : String := "Cannot find Active Text Editor."

def queryNotice (pattern : String) : String := "Querying \"" ++ pattern ++ "\"..."

def queryErrorNotice (command : String) : String :=
  "Error occurred while querying: \"" ++ command ++ "\"."

/-! ### Sessions -/

structure Session where
  root : Path
  engine : Engine
  history : History
  lastResults : Option Run.Settled
  tickets : Nat
  watch : Option Watch

/-- How far an operation has come. -/
inductive Progress
  | returned (answer : Answer)
  | waits (reason : Waiting)
deriving DecidableEq, Repr

/-- What a part of an operation does. -/
structure Move where
  session : Session
  effects : List Effect
  progress : Progress

namespace Session

def new (root : Path) (engine : Engine) : Session :=
  { root, engine, history := .empty, lastResults := none, tickets := 0, watch := none }

def give (s : Session) (effects : List Effect) (answer : Answer) : Move :=
  ⟨s, effects, .returned answer⟩

def wait (s : Session) (effects : List Effect) (reason : Waiting) : Move :=
  ⟨s, effects, .waits reason⟩

/-! ### Jumping -/

/-- Remember where the cursor is, and have the item's file opened. -/
def jump (v : EditorView) (s : Session) (item : Item) : Move :=
  match v.position with
  | some here => { s with history := s.history.push here }.wait [] (.opening item.position)
  | none => s.wait [.notice noEditor] (.opening item.position)

/-- Take the latest position off the history, and have its file opened. -/
def pop (s : Session) : Move :=
  let notices := s.history.dropNotices.map .notice
  match s.history.peek? with
  | some p => { s with history := s.history.drop }.wait notices (.opening p)
  | none => s.give notices (.position none)

/-! ### Asking -/

/-- Present the results of the latest question once more. -/
def showResults (s : Session) : Move :=
  match s.lastResults with
  | none => s.give [] (.position none)
  | some r =>
    let config := s.engine.config
    let p := Presentation.ofItems config.output r.title r.sortedItems s.root
    s.wait [.presented p config.preview] (.pick p)

/-- What an interactive question that has failed does. -/
def queryFailed (s : Session) (e : Error) : Move :=
  s.give [.notice (queryErrorNotice (s.engine.lastQuery.getD ""))] (.failed e)

/-- Effects in front of what a part of an operation does. -/
def after (effects : List Effect) (m : Move) : Move := { m with effects := effects ++ m.effects }

/-- Take a ticket and ask: `run_query` up to its await. -/
def ask (s : Session) (spec : QuerySpec) : Move :=
  let ticket := s.tickets + 1
  let notice := [Effect.notice (queryNotice spec.pattern)]
  let (started, engine) := s.engine.startComplete spec s.root
  let s := { s with tickets := ticket, engine }
  match started with
  | .value run => s.wait notice (.run ticket run.generation)
  | .failed e => after notice (s.queryFailed e)
  | .crashed => s.give notice .crashed

/-- What the results of an interactive question lead to: `run_query` after its await. -/
def settled (s : Session) (ticket : Nat) : Except Error Run.Settled → Move
  | .error e => s.queryFailed e
  | .ok r =>
    if s.tickets = ticket then { s with lastResults := some r }.showResults
    else s.give [] (.position none)

/-- The answer to a question on the side. -/
def lookupAnswer (s : Session) (what : Lookup) (items : List Item) : Answer :=
  match what with
  | .definitions | .references => .items items
  | .incoming | .outgoing => .calls (items.map (·.call s.root))

def look (s : Session) (what : Lookup) (word : String) : Move :=
  let (started, engine) := s.engine.startComplete ⟨what.kind, word⟩ s.root
  let s := { s with engine }
  match started with
  | .value run => s.wait [] (.lookup what run.generation)
  | .failed _ => s.give [] (s.lookupAnswer what [])
  | .crashed => s.give [] .crashed

/-! ### Building and watching -/

def isWatching (s : Session) : Bool := s.watch.isSome

/-- Begin to watch for the extensions of the settings; an earlier watch ends. -/
def install (s : Session) : Move :=
  match Watch.start s.engine.host.files s.engine.config.extensions s.root with
  | .ok w => { s with watch := some w }.give [] .done
  | .error e => s.give [] (.failed e)

def build (s : Session) (thenWatch : Bool) : Move :=
  let (begun, notices, engine) := s.engine.beginBuild s.root
  let s := { s with engine }
  match begun with
  | .ok b => s.wait (notices.map .notice) (.building b thenWatch)
  | .error e => s.give (notices.map .notice) (.failed e)

/-- Have the database there and begin to watch. -/
def beginWatch (s : Session) : Move :=
  if s.engine.indexExists s.root then s.install else s.build true

def endWatch (s : Session) : Session := { s with watch := none }

def setAutoBuild (s : Session) (enabled : Bool) : Move :=
  if enabled then s.beginWatch else s.endWatch.give [] .done

/-- Take other settings.  The watch ends, begins or begins anew if they ask for it. -/
def reload (s : Session) (config : Config) : Move :=
  match config.fault? with
  | some e => s.give [] (.failed e)
  | none =>
    let previous := s.engine.config
    let s := { s with engine := s.engine.setConfig config }
    if config.autoBuild ≠ s.isWatching ∨
        (s.isWatching ∧ config.extensions ≠ previous.extensions) then
      if config.autoBuild then s.endWatch.beginWatch else s.endWatch.give [] .done
    else s.give [] .done

/-- The request that an event leads to, as `watch_and_rebuild` arranges it. -/
def reaction? (s : Session) (e : Event) : Option Request :=
  (s.watch.bind (·.reaction? e)).map (fun _ => .build)

/-! ### Operations -/

/-- What a request does up to the first point where it waits: the method of the `Navigator` up to
its first await. -/
def begin (v : EditorView) (s : Session) : Request → Move
  | .start => if s.engine.config.autoBuild then s.beginWatch else s.give [] .done
  | .build => s.build false
  | .setAutoBuild enabled => s.setAutoBuild enabled
  | .reload config => s.reload config
  | .query kind =>
    match v.currentWord with
    | some word => s.ask ⟨kind, word⟩
    | none => s.give [.notice noWord] (.position none)
  | .queryWithPrompt kind =>
    s.wait [.prompted (v.currentWord.getD "")] (.prompt kind)
  | .run spec => s.ask spec
  | .showResults => s.showResults
  | .jump item => s.jump v item
  | .pop => s.pop
  | .look what word => s.look what word

/-- What an operation does from one point where it waits to the next: the method from one await to
the next.  It is nothing if the reply is not what the operation waits for. -/
def resume? (v : EditorView) (s : Session) : Waiting → Reply → Option Move
  | .prompt kind, .prompted pattern =>
    match pattern with
    | some p =>
      if p = "" then some (s.give [.notice noPattern] (.position none)) else some (s.ask ⟨kind, p⟩)
    | none => some (s.give [.notice noPattern] (.position none))
  | .run ticket generation, .settled => (s.engine.result? generation).map (s.settled ticket)
  | .lookup what generation, .settled =>
    (s.engine.result? generation).map fun result =>
      s.give [] (s.lookupAnswer what (match result with
        | .ok r => r.sortedItems
        | .error _ => []))
  | .pick _, .picked item =>
    match item with
    | some i => some (s.jump v i)
    | none => some (s.give [] (.position none))
  | .opening target, .opened failure =>
    match failure with
    | none => some (s.give [.opened target false] (.position (some target)))
    | some e => some (s.give [] (.failed e))
  | .building b thenWatch, .built =>
    let notice := [Effect.notice b.notice]
    match b.result with
    | .error e => some (s.give notice (.failed e))
    | .ok output =>
      if thenWatch then some (after notice s.install) else some (s.give notice (.text output))
  | _, _ => none

end Session

end SymbolNav
