/-
  SymbolNav/Proofs/Session/Tickets.lean
  =====================================
  **Older questions never replace the results of newer ones**, however many
  operations of a session are on their way.

  The invariant (`Orderly`) ties an operation that waits for an interactive run to
  its ticket and to its run: the ticket is its own, so is the run, and the run
  asks what the operation asks.  A part of an operation that is quiet, asks or
  stores (`Goes`) preserves it, and so does whatever happens to the engine.
-/
import SymbolNav.Proofs.Engine.Answers
import SymbolNav.Proofs.Session.Part

namespace SymbolNav.Ongoing

open Engine (Numbered Reaches)
open Session (Quiet Asking)

/-! ### One operation goes on -/

/-- Of the operations, the one at the place `i` has gone on and is `op'` now.  It was `op`
before, or it has been begun just now, with nothing asked or shown. -/
structure Turn (operations operations' : List Operation) (i : Nat) (op op' : Operation) :
    Prop where
  now : operations'[i]? = some op'
  others : ∀ j, j ≠ i → operations'[j]? = operations[j]?
  before : operations[i]? = some op ∨
    operations[i]? = none ∧ op.asked = none ∧ op.effects = []

theorem Turn.eq_or_mem {operations operations' : List Operation} {i j : Nat}
    {op op' x : Operation} (turn : Turn operations operations' i op op')
    (h : operations'[j]? = some x) : j = i ∧ x = op' ∨ j ≠ i ∧ operations[j]? = some x := by
  by_cases same : j = i
  · subst same
    exact .inl ⟨rfl, Option.some.inj (h.symm.trans turn.now)⟩
  · exact .inr ⟨same, (turn.others j same).symm.trans h⟩

theorem turn_begin (operations : List Operation) {op op' : Operation} (asked : op.asked = none)
    (effects : op.effects = []) :
    Turn operations (operations ++ [op']) operations.length op op' where
  now := by simp
  others := by
    intro j other
    by_cases earlier : j < operations.length
    · exact List.getElem?_append_left earlier
    · rw [List.getElem?_eq_none (by simp; omega), List.getElem?_eq_none (by omega)]
  before := .inr ⟨by simp, asked, effects⟩

theorem turn_resume {operations : List Operation} {i : Nat} {op op' : Operation}
    (place : operations[i]? = some op) : Turn operations (operations.set i op') i op op' where
  now := by
    obtain ⟨inside, -⟩ := List.getElem?_eq_some_iff.mp place
    exact List.getElem?_set_self inside
  others := fun j other => List.getElem?_set_ne (Ne.symm other)
  before := .inl place

/-! ### The cases of a happening -/

/-- The operation at the place `i` has waited for its run; the result is stored and presented. -/
structure Stored (o o' : Ongoing) (st : Store) (i : Nat) (op : Operation) : Prop where
  place : o.operations[i]? = some op
  waits : op.progress = .waits (.run st.ticket st.generation)
  settled : o.session.engine.result? st.generation = some (.ok st.result)
  latest : o.session.tickets = st.ticket
  turn : Turn o.operations o'.operations i op (op.go none (o.session.storing st.result))
  session : o'.session = (o.session.storing st.result).session

/-- What happens to a session and its operations. -/
inductive Goes (o : Ongoing) : Happening → Ongoing → Prop
  | engine {a e'} (acts : o.session.engine.act? a = some e') :
      Goes o (.engine a) { o with session := { o.session with engine := e' } }
  | quiet {h i op m operations}
      (turn : Turn o.operations operations i op (op.go none m)) (quiet : Quiet o.session m)
      (unstored : o.store? h = none) : Goes o h ⟨m.session, operations⟩
  | prompts {h i op operations kind text}
      (turn : Turn o.operations operations i op
        (op.go none (o.session.wait [.prompted text] (.prompt kind))))
      (fresh : op.effects = []) (unstored : o.store? h = none) :
      Goes o h ⟨o.session, operations⟩
  | asks {h i op spec operations}
      (turn : Turn o.operations operations i op (op.go (some spec) (o.session.ask spec)))
      (ready : op.effects = [] ∨
        o.operations[i]? = some op ∧ ∃ kind, op.progress = .waits (.prompt kind))
      (unstored : o.store? h = none) : Goes o h ⟨(o.session.ask spec).session, operations⟩
  | stores {i view op st o'} (storing : Stored o o' st i op)
      (stored : o.store? (.resume i view .settled) = some st) :
      Goes o (.resume i view .settled) o'

/-- The cases of `Goes` are all that can happen. -/
theorem goes_of_act? {o o' : Ongoing} {h : Happening} (happens : o.act? h = some o') :
    Goes o h o' := by
  cases h with
  | begin view request =>
    cases Option.some.inj happens
    rcases Session.begin_cases view o.session request with
      ⟨asks, quiet⟩ | ⟨asks, kind, text, begins⟩ | ⟨spec, asks, begins⟩
    · rw [asks]
      exact .quiet (turn_begin o.operations rfl rfl) quiet rfl
    · rw [asks, begins]
      exact .prompts (turn_begin o.operations rfl rfl) rfl rfl
    · rw [asks, begins]
      exact .asks (turn_begin o.operations rfl rfl) (.inl rfl) rfl
  | engine a =>
    obtain ⟨e', acts, rfl⟩ := Option.map_eq_some_iff.mp happens
    exact .engine acts
  | resume i view reply =>
    rcases act?_resume.mp happens with ⟨op, reason, m, place, waits, resumes, rfl⟩
    have store : o.store? (.resume i view reply) = o.session.store? reason reply := by
      simp [store?, place, waits]
    rcases Session.resume_cases resumes with
      ⟨asks, unstored, quiet⟩ | ⟨asks, st, stored, rfl⟩ | ⟨spec, kind, rfl, asks, unstored, rfl⟩
    · rw [asks]
      exact .quiet (turn_resume place) quiet (store.trans unstored)
    · rw [asks]
      obtain ⟨rfl, rfl, settled, latest⟩ := Session.store?_eq_some.mp stored
      exact .stores ⟨place, waits, settled, latest, turn_resume place, rfl⟩ (store.trans stored)
    · rw [asks]
      exact .asks (turn_resume place) (.inr ⟨place, kind, waits⟩) (store.trans unstored)

/-! ### The invariant -/

/-- The operation waits for its own interactive run, and has shown nothing but words. -/
structure Awaits (o : Ongoing) (op : Operation) (ticket generation : Nat) : Prop where
  asked : ∃ spec run, op.asked = some ⟨ticket, spec⟩ ∧
    o.session.engine.run? generation = some run ∧ run.spec = spec ∧ run.cwd = o.session.root
  words : ∀ x ∈ op.effects, x.isWords = true

/-- What the operations of a session know of each other's questions. -/
structure Orderly (o : Ongoing) : Prop where
  numbered : Numbered o.session.engine
  issued : ∀ (i : Nat) (op : Operation) (q : Asked), o.operations[i]? = some op →
    op.asked = some q → q.ticket ≤ o.session.tickets
  distinct : ∀ (i j : Nat) (op op' : Operation) (q q' : Asked), o.operations[i]? = some op →
    o.operations[j]? = some op' → op.asked = some q → op'.asked = some q' →
    q.ticket = q'.ticket → i = j
  awaits : ∀ (i : Nat) (op : Operation) (ticket generation : Nat), o.operations[i]? = some op →
    op.progress = .waits (.run ticket generation) → Awaits o op ticket generation
  alone : ∀ (i j : Nat) (op op' : Operation) (ticket ticket' generation : Nat),
    o.operations[i]? = some op → o.operations[j]? = some op' →
    op.progress = .waits (.run ticket generation) →
    op'.progress = .waits (.run ticket' generation) → i = j
  prompted : ∀ (i : Nat) (op : Operation) (kind : QueryKind), o.operations[i]? = some op →
    op.progress = .waits (.prompt kind) → ∀ x ∈ op.effects, x.isWords = true

theorem orderly_new {root : Path} {engine : Engine} (numbered : Numbered engine) :
    Orderly (new root engine) where
  numbered := numbered
  issued := by simp [new]
  distinct := by simp [new]
  awaits := by simp [new]
  alone := by simp [new]
  prompted := by simp [new]

section Orderly

variable {o : Ongoing}

/-- Where the engine goes on, an operation waits as before. -/
theorem Awaits.of_reaches {op : Operation} {ticket generation : Nat} {s : Session}
    {operations : List Operation} (h : Awaits o op ticket generation)
    (engine : Reaches o.session.engine s.engine) (root : s.root = o.session.root) :
    Awaits ⟨s, operations⟩ op ticket generation where
  asked := by
    obtain ⟨spec, run, asked, found, specs, cwd⟩ := h.asked
    obtain ⟨run', found', kept⟩ := engine.run? found
    exact ⟨spec, run', asked, found', kept.spec.trans specs,
      kept.cwd.trans (cwd.trans root.symm)⟩
  words := h.words

/-- A run that is waited for has its number. -/
theorem Orderly.generation_le (h : Orderly o) {i : Nat} {op : Operation} {ticket generation : Nat}
    (place : o.operations[i]? = some op)
    (waits : op.progress = .waits (.run ticket generation)) :
    generation ≤ o.session.engine.latest := by
  obtain ⟨spec, run, -, found, -, -⟩ := (h.awaits i op ticket generation place waits).asked
  have bound := h.numbered.bounded run (List.mem_of_find?_eq_some found)
  rwa [Engine.generation_of_run? found] at bound

/-- An operation that goes on without asking leaves the others' questions as they are. -/
theorem Orderly.rest (h : Orderly o) {s : Session} {operations : List Operation} {i : Nat}
    {op op' : Operation} (turn : Turn o.operations operations i op op')
    (engine : Reaches o.session.engine s.engine) (root : s.root = o.session.root)
    (tickets : s.tickets = o.session.tickets) (asked : op'.asked = op.asked)
    (run : ∀ ticket generation, op'.progress ≠ .waits (.run ticket generation))
    (prompted : ∀ kind, op'.progress = .waits (.prompt kind) →
      ∀ x ∈ op'.effects, x.isWords = true) : Orderly ⟨s, operations⟩ := by
  -- a question of the operation that goes on was its own before
  have own {q : Asked} (asks : op'.asked = some q) :
      o.operations[i]? = some op ∧ op.asked = some q := by
    rw [asked] at asks
    rcases turn.before with place | ⟨-, blank, -⟩
    · exact ⟨place, asks⟩
    · simp [blank] at asks
  have origin {j : Nat} {x : Operation} {q : Asked} (place : operations[j]? = some x)
      (asks : x.asked = some q) : ∃ y, o.operations[j]? = some y ∧ y.asked = some q := by
    rcases turn.eq_or_mem place with ⟨rfl, rfl⟩ | ⟨-, old⟩
    · exact ⟨op, own asks⟩
    · exact ⟨x, old, asks⟩
  have waiting {j : Nat} {x : Operation} {ticket generation : Nat}
      (place : operations[j]? = some x)
      (waits : x.progress = .waits (.run ticket generation)) : o.operations[j]? = some x := by
    rcases turn.eq_or_mem place with ⟨-, rfl⟩ | ⟨-, old⟩
    · exact absurd waits (run _ _)
    · exact old
  exact {
    numbered := engine.numbered h.numbered
    issued := by
      intro j x q place asks
      obtain ⟨y, old, asks'⟩ := origin place asks
      exact tickets ▸ h.issued j y q old asks'
    distinct := by
      intro j k x y q q' place place' asks asks' same
      obtain ⟨x', old, asked⟩ := origin place asks
      obtain ⟨y', old', asked'⟩ := origin place' asks'
      exact h.distinct j k x' y' q q' old old' asked asked' same
    awaits := by
      intro j x ticket generation place waits
      exact (h.awaits j x ticket generation (waiting place waits) waits).of_reaches engine root
    alone := by
      intro j k x y ticket ticket' generation place place' waits waits'
      exact h.alone j k x y ticket ticket' generation (waiting place waits)
        (waiting place' waits') waits waits'
    prompted := by
      intro j x kind place waits
      rcases turn.eq_or_mem place with ⟨-, rfl⟩ | ⟨-, old⟩
      · exact prompted kind waits
      · exact h.prompted j x kind old waits }

/-- An operation that asks has a ticket and a run that no other has. -/
theorem Orderly.asks (h : Orderly o) {operations : List Operation} {i : Nat} {op : Operation}
    {spec : QuerySpec} {m : Move} (asking : Asking o.session spec m)
    (turn : Turn o.operations operations i op (op.go (some spec) m))
    (words : ∀ x ∈ op.effects, x.isWords = true) : Orderly ⟨m.session, operations⟩ := by
  have asked : (op.go (some spec) m).asked = some ⟨m.session.tickets, spec⟩ := rfl
  exact {
    numbered := asking.engine.numbered h.numbered
    issued := by
      intro j x q place asks
      rcases turn.eq_or_mem place with ⟨-, rfl⟩ | ⟨-, old⟩
      · cases Option.some.inj (asked.symm.trans asks)
        exact Nat.le_refl _
      · have bound := h.issued j x q old asks
        show q.ticket ≤ m.session.tickets
        rw [asking.tickets]
        omega
    distinct := by
      intro j k x y q q' place place' asks asks' same
      have new := asking.tickets
      rcases turn.eq_or_mem place with ⟨rfl, rfl⟩ | ⟨-, old⟩ <;>
        rcases turn.eq_or_mem place' with ⟨rfl, rfl⟩ | ⟨-, old'⟩
      · rfl
      · cases Option.some.inj (asked.symm.trans asks)
        have bound := h.issued k y q' old' asks'
        simp only at same
        omega
      · cases Option.some.inj (asked.symm.trans asks')
        have bound := h.issued j x q old asks
        simp only at same
        omega
      · exact h.distinct j k x y q q' old old' asks asks' same
    awaits := by
      intro j x ticket generation place waits
      rcases turn.eq_or_mem place with ⟨-, rfl⟩ | ⟨-, old⟩
      · obtain ⟨rfl, -, run, found, specs, cwd⟩ := asking.run ticket generation waits
        refine ⟨⟨spec, run, ?_, found, specs, cwd.trans asking.root.symm⟩, ?_⟩
        · rw [asked, asking.tickets]
        · exact List.forall_mem_append.mpr ⟨words, asking.words⟩
      · exact (h.awaits j x ticket generation old waits).of_reaches asking.engine asking.root
    alone := by
      intro j k x y ticket ticket' generation place place' waits waits'
      rcases turn.eq_or_mem place with ⟨rfl, rfl⟩ | ⟨-, old⟩ <;>
        rcases turn.eq_or_mem place' with ⟨rfl, rfl⟩ | ⟨-, old'⟩
      · rfl
      · have new := (asking.run ticket generation waits).2.1
        have bound := h.generation_le old' waits'
        omega
      · have new := (asking.run ticket' generation waits').2.1
        have bound := h.generation_le old waits
        omega
      · exact h.alone j k x y ticket ticket' generation old old' waits waits'
    prompted := by
      intro j x kind place waits
      rcases turn.eq_or_mem place with ⟨-, rfl⟩ | ⟨-, old⟩
      · exact absurd waits (asking.prompt kind)
      · exact h.prompted j x kind old waits }

/-- **Whatever happens preserves the order.** -/
theorem Goes.orderly {o' : Ongoing} {happening : Happening} (h : Orderly o)
    (goes : Goes o happening o') : Orderly o' := by
  cases goes with
  | engine acts =>
    have engine := Reaches.of_act? acts
    exact {
      numbered := engine.numbered h.numbered
      issued := h.issued
      distinct := h.distinct
      awaits := fun i op ticket generation place waits =>
        (h.awaits i op ticket generation place waits).of_reaches engine rfl
      alone := h.alone
      prompted := h.prompted }
  | quiet turn quiet unstored =>
    exact h.rest turn quiet.engine quiet.root quiet.tickets rfl quiet.run
      (fun kind prompts => absurd prompts (quiet.prompt kind))
  | prompts turn fresh unstored =>
    refine h.rest turn (.refl _) rfl rfl rfl nofun ?_
    intro kind prompts
    simp [Operation.go, fresh, Session.wait, Effect.isWords]
  | @asks _ i op spec _ turn ready unstored =>
    refine h.asks (Session.asking_ask h.numbered spec) turn ?_
    rcases ready with fresh | ⟨place, kind, waits⟩
    · simp [fresh]
    · exact h.prompted i op kind place waits
  | @stores i view op st o' storing stored =>
    obtain ⟨session, operations⟩ := o'
    obtain ⟨place, waits, settled, latest, turn, rfl⟩ := storing
    have quiet := Session.quiet_storing o.session st.result
    exact h.rest turn quiet.engine quiet.root quiet.tickets rfl quiet.run
      (fun kind prompts => absurd prompts (quiet.prompt kind))

theorem orderly_of_play? {o' : Ongoing} {happenings : List Happening} (h : Orderly o)
    (plays : o.play? happenings = some o') : Orderly o' := by
  induction happenings generalizing o with
  | nil => cases Option.some.inj plays; exact h
  | cons happening happenings ih =>
    obtain ⟨o₁, happens, rest⟩ := play?_cons.mp plays
    exact ih ((goes_of_act? happens).orderly h) rest

end Orderly

/-! ### What is stored -/

section Stores

variable {o o' : Ongoing} {happening : Happening}

theorem Stored.lastResults {st : Store} {i : Nat} {op : Operation} (h : Stored o o' st i op) :
    o'.session.lastResults = some st.result := by
  rw [h.session]
  exact (Session.quiet_storing o.session st.result).lastResults

theorem Stored.tickets {st : Store} {i : Nat} {op : Operation} (h : Stored o o' st i op) :
    o'.session.tickets = o.session.tickets := by
  rw [h.session]
  exact (Session.quiet_storing o.session st.result).tickets

/-- An operation that waits for an interactive run has not been the one to store. -/
theorem Stored.waiting {st : Store} {i : Nat} {op : Operation} (h : Stored o o' st i op) {j : Nat}
    {x : Operation} {ticket generation : Nat} (place : o'.operations[j]? = some x)
    (waits : x.progress = .waits (.run ticket generation)) :
    j ≠ i ∧ o.operations[j]? = some x := by
  rcases h.turn.eq_or_mem place with ⟨-, rfl⟩ | other
  · exact absurd waits ((Session.quiet_storing o.session st.result).run _ _)
  · exact other

/-- Nothing else stores. -/
theorem Goes.stored {st : Store} (goes : Goes o happening o')
    (stored : o.store? happening = some st) :
    ∃ i view op, happening = .resume i view .settled ∧ Stored o o' st i op := by
  cases goes with
  | engine acts => cases stored
  | quiet turn quiet unstored => cases unstored.symm.trans stored
  | prompts turn fresh unstored => cases unstored.symm.trans stored
  | asks turn ready unstored => cases unstored.symm.trans stored
  | @stores i view op st' _ storing stored' =>
    cases Option.some.inj (stored'.symm.trans stored)
    exact ⟨i, view, op, rfl, storing⟩

/-- The results of a session are the latest that were stored. -/
theorem Goes.lastResults (goes : Goes o happening o') (numbered : Numbered o.session.engine) :
    o'.session.lastResults =
      ((o.store? happening).map Store.result).or o.session.lastResults := by
  cases goes with
  | engine acts => rfl
  | quiet turn quiet unstored => simp [unstored, quiet.lastResults]
  | prompts turn fresh unstored => simp [unstored]
  | asks turn ready unstored =>
    simp [unstored, (Session.asking_ask numbered _).lastResults]
  | stores storing stored => rw [stored]; exact storing.lastResults

theorem Goes.tickets_le (goes : Goes o happening o') (numbered : Numbered o.session.engine) :
    o.session.tickets ≤ o'.session.tickets := by
  cases goes with
  | engine acts => exact Nat.le_refl _
  | quiet turn quiet unstored => exact Nat.le_of_eq quiet.tickets.symm
  | prompts turn fresh unstored => exact Nat.le_refl _
  | @asks _ i op spec _ turn ready unstored =>
    have next := (Session.asking_ask numbered spec).tickets
    show o.session.tickets ≤ (o.session.ask spec).session.tickets
    omega
  | stores storing stored => exact Nat.le_of_eq storing.tickets.symm

/-- An operation that waits for an interactive run has done so before, or has a new ticket. -/
theorem Goes.waiting (goes : Goes o happening o') (numbered : Numbered o.session.engine) {j : Nat}
    {x : Operation} {ticket generation : Nat} (place : o'.operations[j]? = some x)
    (waits : x.progress = .waits (.run ticket generation)) :
    o.operations[j]? = some x ∨ ticket = o.session.tickets + 1 := by
  cases goes with
  | engine acts => exact .inl place
  | quiet turn quiet unstored =>
    rcases turn.eq_or_mem place with ⟨-, rfl⟩ | ⟨-, old⟩
    · exact absurd waits (quiet.run _ _)
    · exact .inl old
  | prompts turn fresh unstored =>
    rcases turn.eq_or_mem place with ⟨-, rfl⟩ | ⟨-, old⟩
    · cases waits
    · exact .inl old
  | asks turn ready unstored =>
    rcases turn.eq_or_mem place with ⟨-, rfl⟩ | ⟨-, old⟩
    · exact .inr ((Session.asking_ask numbered _).run _ _ waits).1
    · exact .inl old
  | stores storing stored => exact .inl (storing.waiting place waits).2

/-- The ticket has been taken, and no operation waits with it for its run any more. -/
structure Past (ticket : Nat) (o : Ongoing) : Prop where
  taken : ticket ≤ o.session.tickets
  unawaited : ∀ (i : Nat) (op : Operation) (generation : Nat), o.operations[i]? = some op →
    op.progress ≠ .waits (.run ticket generation)

theorem Goes.past {ticket : Nat} (goes : Goes o happening o') (numbered : Numbered o.session.engine)
    (past : Past ticket o) : Past ticket o' where
  taken := Nat.le_trans past.taken (goes.tickets_le numbered)
  unawaited := by
    intro j x generation place waits
    rcases goes.waiting numbered place waits with old | new
    · exact past.unawaited j x generation old waits
    · have taken := past.taken
      omega

/-- What is stored once a ticket is past has a greater ticket. -/
theorem Stored.lt_of_past {ticket : Nat} {st : Store} {i : Nat} {op : Operation}
    (h : Stored o o' st i op) (past : Past ticket o) : ticket < st.ticket := by
  have taken := past.taken
  have latest := h.latest
  have other : st.ticket ≠ ticket := by
    rintro rfl
    exact past.unawaited i op _ h.place h.waits
  omega

/-- What has been stored is past. -/
theorem Stored.past {st : Store} {i : Nat} {op : Operation} (h : Stored o o' st i op)
    (orderly : Orderly o) : Past st.ticket o' where
  taken := Nat.le_of_eq (h.latest.symm.trans h.tickets.symm)
  unawaited := by
    intro j x generation place waits
    obtain ⟨other, old⟩ := h.waiting place waits
    obtain ⟨spec, -, asked, -⟩ := (orderly.awaits i op _ _ h.place h.waits).asked
    obtain ⟨spec', -, asked', -⟩ := (orderly.awaits j x _ _ old waits).asked
    exact other (orderly.distinct j i x op _ _ old h.place asked' asked rfl)

theorem stores_cons {o₁ : Ongoing} {happenings : List Happening}
    (happens : o.act? happening = some o₁) :
    o.stores (happening :: happenings) = (o.store? happening).toList ++ o₁.stores happenings := by
  simp [stores, happens]

theorem lastResults_of_play? {happenings : List Happening} (orderly : Orderly o)
    (plays : o.play? happenings = some o') :
    o'.session.lastResults =
      ((o.stores happenings).getLast?.map Store.result).or o.session.lastResults := by
  induction happenings generalizing o with
  | nil => cases Option.some.inj plays; rfl
  | cons happening happenings ih =>
    obtain ⟨o₁, happens, rest⟩ := play?_cons.mp plays
    have goes := goes_of_act? happens
    rw [ih (goes.orderly orderly) rest, goes.lastResults orderly.numbered, stores_cons happens,
      List.getLast?_append]
    cases (o₁.stores happenings).getLast? <;> cases o.store? happening <;> rfl

theorem lt_of_mem_stores {happenings : List Happening} {ticket : Nat} (orderly : Orderly o)
    (past : Past ticket o) (plays : o.play? happenings = some o') :
    ∀ st ∈ o.stores happenings, ticket < st.ticket := by
  induction happenings generalizing o with
  | nil => simp [stores]
  | cons happening happenings ih =>
    obtain ⟨o₁, happens, rest⟩ := play?_cons.mp plays
    have goes := goes_of_act? happens
    intro st member
    rw [stores_cons happens, List.mem_append, Option.mem_toList] at member
    rcases member with now | later
    · obtain ⟨i, view, op, -, storing⟩ := goes.stored now
      exact storing.lt_of_past past
    · exact ih (goes.orderly orderly) (goes.past orderly.numbered past) rest st later

/-- The tickets of what is stored increase. -/
theorem pairwise_stores {happenings : List Happening} (orderly : Orderly o)
    (plays : o.play? happenings = some o') :
    (o.stores happenings).Pairwise (fun st later => st.ticket < later.ticket) := by
  induction happenings generalizing o with
  | nil => exact .nil
  | cons happening happenings ih =>
    obtain ⟨o₁, happens, rest⟩ := play?_cons.mp plays
    have goes := goes_of_act? happens
    rw [stores_cons happens]
    refine List.pairwise_append.mpr ⟨?_, ih (goes.orderly orderly) rest, ?_⟩
    · cases o.store? happening <;> simp
    · intro st now later member
      obtain ⟨i, view, op, -, storing⟩ := goes.stored (Option.mem_toList.mp now)
      exact lt_of_mem_stores (goes.orderly orderly) (storing.past orderly) rest later member

end Stores

/-! ### Timeliness -/

/-- What is presented of a result. -/
def presentationOf (o : Ongoing) (result : Run.Settled) : Presentation :=
  Presentation.ofItems o.session.engine.config.output result.title result.sortedItems
    o.session.root

/-- The operation at the place `i` stores the result of its own run, and presents it. -/
structure Presents (o o' : Ongoing) (st : Store) (i : Nat) (op : Operation) : Prop where
  place : o.operations[i]? = some op
  waited : op.progress = .waits (.run st.ticket st.generation)
  asked : op.asked = some ⟨st.ticket, st.result.spec⟩
  /-- Its ticket is the latest that has been taken. -/
  latest : o.session.tickets = st.ticket
  greatest : ∀ other ∈ o.operations, ∀ q, other.asked = some q → q.ticket ≤ st.ticket
  settled : o.session.engine.result? st.generation = some (.ok st.result)
  /-- No other operation waits for the run. -/
  own : ∀ (j : Nat) (other : Operation) (ticket : Nat), o.operations[j]? = some other →
    other.progress = .waits (.run ticket st.generation) → j = i
  root : st.result.cwd = o.session.root
  stored : o'.session.lastResults = some st.result
  presented : o'.operations[i]? = some { op with
    effects := op.effects ++
      [.presented (o.presentationOf st.result) o.session.engine.config.preview],
    progress := .waits (.pick (o.presentationOf st.result)) }

theorem Stored.presents {o o' : Ongoing} {st : Store} {i : Nat} {op : Operation}
    (h : Stored o o' st i op) (orderly : Orderly o) : Presents o o' st i op := by
  obtain ⟨spec, run, asked, found, specs, cwd⟩ :=
    (orderly.awaits i op _ _ h.place h.waits).asked
  obtain ⟨-, result⟩ := Run.result?_eq_ok.mp (by simpa [Engine.result?, found] using h.settled)
  have ofRun : st.result.spec = spec ∧ st.result.cwd = o.session.root := by
    rw [result]
    exact ⟨specs, cwd⟩
  exact {
    place := h.place
    waited := h.waits
    asked := by rw [asked, ofRun.1]
    latest := h.latest
    greatest := by
      intro other member q asks
      obtain ⟨j, place⟩ := List.mem_iff_getElem?.mp member
      exact h.latest ▸ orderly.issued j other q place asks
    settled := h.settled
    own := fun j other ticket place waits =>
      orderly.alone j i other op ticket st.ticket st.generation place h.place waits h.waits
    root := ofRun.2
    stored := h.lastResults
    presented := h.turn.now }

/-- What holds of a session after anything that can happen to it, and of what happens next. -/
structure Timely (o₀ : Ongoing) (happenings : List Happening) (o : Ongoing) : Prop where
  /-- The results of a session are the latest that were stored. -/
  values : o.session.lastResults = (o₀.stores happenings).getLast?.map Store.result
  increasing : (o₀.stores happenings).Pairwise (fun st later => st.ticket < later.ticket)
  stores : ∀ happening o', o.act? happening = some o' → ∀ st, o.store? happening = some st →
    ∃ i view op, happening = .resume i view .settled ∧ Presents o o' st i op
  unstored : ∀ happening o', o.act? happening = some o' → o.store? happening = none →
    o'.session.lastResults = o.session.lastResults
  /-- Asking a question changes neither the results nor the history. -/
  asking : ∀ happening o', o.act? happening = some o' →
    o'.session.tickets ≠ o.session.tickets →
    o'.session.lastResults = o.session.lastResults ∧ o'.session.history = o.session.history
  /-- An operation whose question was overtaken returns nothing, having shown nothing but words,
  and leaves the session as it is. -/
  overtaken : ∀ (i : Nat) (op : Operation) (ticket generation : Nat) (result : Run.Settled),
    o.operations[i]? = some op → op.progress = .waits (.run ticket generation) →
    o.session.engine.result? generation = some (.ok result) →
    ∀ other ∈ o.operations, ∀ q, other.asked = some q → ticket < q.ticket →
    (∀ x ∈ op.effects, x.isWords = true) ∧
      ∀ view, o.act? (.resume i view .settled) = some ⟨o.session,
        o.operations.set i { op with progress := .returned (.position none) }⟩

/-- An overtaken operation leaves everything as it is. -/
theorem act?_overtaken {o : Ongoing} {i : Nat} {op : Operation} {ticket generation : Nat}
    {result : Run.Settled} (view : EditorView) (place : o.operations[i]? = some op)
    (waits : op.progress = .waits (.run ticket generation))
    (settled : o.session.engine.result? generation = some (.ok result))
    (late : ticket < o.session.tickets) :
    o.act? (.resume i view .settled) = some ⟨o.session,
      o.operations.set i { op with progress := .returned (.position none) }⟩ := by
  have newer : o.session.tickets ≠ ticket := Nat.ne_of_gt late
  have asks : (Waiting.run ticket generation).asks? .settled = none := rfl
  simp [act?, place, waits, Session.resume?, settled, Session.settled, newer, Session.give,
    Operation.go, asks]

theorem asking_of_goes {o o' : Ongoing} {happening : Happening} (goes : Goes o happening o')
    (numbered : Numbered o.session.engine) (taken : o'.session.tickets ≠ o.session.tickets) :
    o'.session.lastResults = o.session.lastResults ∧ o'.session.history = o.session.history := by
  cases goes with
  | engine acts => exact absurd rfl taken
  | quiet turn quiet unstored => exact absurd quiet.tickets taken
  | prompts turn fresh unstored => exact absurd rfl taken
  | @asks _ i op spec _ turn ready unstored =>
    have asking := Session.asking_ask numbered spec
    exact ⟨asking.lastResults, asking.history⟩
  | stores storing stored => exact absurd storing.tickets taken

/-- **Older questions never replace the results of newer ones.**  Whatever has happened to a
session, in any order: what it holds as its results was stored with the greatest ticket so far and
presented by the operation whose run it comes from, and a question that was overtaken leaves no
trace. -/
theorem timely {host : Host} {config : Config} {actions : List Engine.Action} {engine : Engine}
    (used : (Engine.new host config).play? actions = some engine) {root : Path}
    {happenings : List Happening} {o : Ongoing}
    (reached : (new root engine).play? happenings = some o) :
    Timely (new root engine) happenings o := by
  have start : Orderly (new root engine) :=
    orderly_new (Engine.numbered_of_play? (Engine.numbered_new host config) used)
  have orderly := orderly_of_play? start reached
  exact {
    values := (lastResults_of_play? start reached).trans Option.or_none
    increasing := pairwise_stores start reached
    stores := by
      intro happening o' happens st stored
      obtain ⟨i, view, op, resumes, storing⟩ := (goes_of_act? happens).stored stored
      exact ⟨i, view, op, resumes, storing.presents orderly⟩
    unstored := by
      intro happening o' happens unstored
      simpa [unstored] using (goes_of_act? happens).lastResults orderly.numbered
    asking := fun happening o' happens taken =>
      asking_of_goes (goes_of_act? happens) orderly.numbered taken
    overtaken := by
      intro i op ticket generation result place waits settled other member q asks later
      obtain ⟨j, place'⟩ := List.mem_iff_getElem?.mp member
      have taken := orderly.issued j other q place' asks
      refine ⟨(orderly.awaits i op ticket generation place waits).words, fun view => ?_⟩
      exact act?_overtaken view place waits settled (Nat.lt_of_lt_of_le later taken) }

open Engine.Sample in
/-- Two questions whose runs settle in the order of the questions, while the operations go on in
the opposite order. -/
def crossing : List Happening :=
  let view : EditorView := ⟨none, none, none⟩
  [.begin view (.run question), .begin view (.run question)] ++
    (toTheEnd 1 ++ toTheEnd 2).map .engine ++
    [.resume 1 view .settled, .resume 0 view .settled]

open Engine.Sample in
/-- Only the results of the newer question are stored, though the older one goes on last. -/
theorem timely_crossing :
    ((new root engine).stores crossing).map Store.ticket = [2] ∧
      ∃ o, (new root engine).play? crossing = some o ∧
        o.session.lastResults = ((new root engine).stores crossing).getLast?.map Store.result := by
  have ends : ((new root engine).play? crossing).isSome := by decide +kernel
  obtain ⟨o, reached⟩ := Option.isSome_iff_exists.mp ends
  have used : (Engine.new machine settings).play? [] = some engine := rfl
  have law := timely used reached
  exact ⟨by decide +kernel, o, reached, law.values⟩

end SymbolNav.Ongoing
