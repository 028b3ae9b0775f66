/-
  SymbolNav/Proofs/Session/Erasure.lean
  =====================================
  **Leaving operations out** of what happens to a session.

  A `Selection` says which operations are kept.  `Ongoing.restrict` keeps the
  beginnings of these, what they go on with and the steps of their runs, under the
  places and numbers that they have when nothing else is there.

  What is left can happen, and the operations that are kept do the same as before
  (`Shadows.play`), as long as the interactive ones are kept together or left out
  together.
-/
import SymbolNav.Proofs.Session.Alike

namespace SymbolNav

open Engine (Renames given)

/-! ### What is kept -/

/-- Which operations are kept: whether the interactive ones are, and which of the lookups, by their
places. -/
structure Selection where
  interactive : Bool
  lookups : Nat → Bool

def Selection.takes (sel : Selection) (place : Nat) (request : Request) : Bool :=
  if request.isLook then sel.lookups place else sel.interactive

def Selection.Takes (sel : Selection) (operations : List Operation) (i : Nat) : Prop :=
  ∃ op, operations[i]? = some op ∧ sel.takes i op.request = true

/-- The operations that have been kept so far, by their places, and the numbers of their runs. -/
structure Kept where
  places : List Nat
  numbers : List Nat

namespace Kept

/-- What a happening is without those that are left out; nothing if it is one of them. -/
def image? (k : Kept) (sel : Selection) (o : Ongoing) : Happening → Option Happening
  | .begin view request =>
    if sel.takes o.operations.length request then some (.begin view request) else none
  | .resume i view reply =>
    if i ∈ k.places then some (.resume (k.places.idxOf i) view reply) else none
  | .engine (.step g step) =>
    if g ∈ k.numbers then some (.engine (.step (k.numbers.idxOf g + 1) step)) else none
  | .engine a => some (.engine a)

/-- One more happening is kept: an operation that it begins, and the number of a run that it
starts. -/
def grow (k : Kept) (o o₁ : Ongoing) : Kept where
  places := k.places ++
    List.range' o.operations.length (o₁.operations.length - o.operations.length)
  numbers := k.numbers ++ given o.session.engine o₁.session.engine

end Kept

/-- What happens without what is left out. -/
def Ongoing.restrict (sel : Selection) (k : Kept) (o : Ongoing) : List Happening → List Happening
  | [] => []
  | h :: happenings =>
    match o.act? h with
    | none => []
    | some o₁ =>
      match k.image? sel o h with
      | some h' => h' :: o₁.restrict sel (k.grow o o₁) happenings
      | none => o₁.restrict sel k happenings

/-- An operation begins or goes on, or a run takes a step, and the operation is an interactive one
or a lookup. -/
def Happening.IsWork : Happening → Prop
  | .begin _ request => request.isLook = true ∨ request.isInteractive = true
  | .resume .. | .engine (.step ..) => True
  | .engine _ => False

/-! ### What operations wait for -/

/-- Every operation waits for something that suits its request. -/
def Ongoing.Fits (o : Ongoing) : Prop := ∀ op ∈ o.operations, op.progress.Fits op.request

namespace Ongoing

theorem fits_new (root : Path) (engine : Engine) : (new root engine).Fits := by
  simp [Fits, new]

theorem Fits.waits {o : Ongoing} (h : o.Fits) {i : Nat} {op : Operation} {reason : Waiting}
    (place : o.operations[i]? = some op) (waits : op.progress = .waits reason) :
    reason.Fits op.request := by
  have fits := h op (List.mem_of_getElem? place)
  rw [waits] at fits
  exact fits

theorem Fits.act {o o₁ : Ongoing} (h : o.Fits) {x : Happening} (work : x.IsWork)
    (acts : o.act? x = some o₁) : o₁.Fits := by
  cases x with
  | begin view request =>
    cases Option.some.inj acts
    intro op member
    rcases List.mem_append.mp member with old | last
    · exact h op old
    · rw [List.mem_singleton.mp last]
      exact (Session.part_begin view o.session work).fits
  | resume i view reply =>
    rcases act?_resume.mp acts with ⟨op, reason, m, place, waits, resumes, rfl⟩
    intro x member
    rcases List.mem_or_eq_of_mem_set member with old | rfl
    · exact h x old
    · exact (Session.part_resume (h.waits place waits) resumes).fits
  | engine a =>
    rcases Option.map_eq_some_iff.mp acts with ⟨e, -, rfl⟩
    exact h

end Ongoing

/-! ### One session follows the other -/

/-- The operations have done the same. -/
structure Operation.Alike (numbers : List Nat) (op op' : Operation) : Prop where
  request : op'.request = op.request
  asked : op'.asked = op.asked
  effects : List.Forall₂ Effect.Alike op.effects op'.effects
  progress : op.progress.Alike numbers op'.progress

/-- `o'` is `o` without what has been left out. -/
structure Shadows (sel : Selection) (host : Host) (k : Kept) (o o' : Ongoing) : Prop where
  session : o.session.Alike host sel.interactive k.numbers o'.session
  places : ∀ i, i ∈ k.places ↔ sel.Takes o.operations i
  ordered : k.places.Pairwise (· < ·)
  length : o'.operations.length = k.places.length
  operations : ∀ i ∈ k.places, ∃ op op', o.operations[i]? = some op ∧
    o'.operations[k.places.idxOf i]? = some op' ∧ op.Alike k.numbers op'

theorem shadows_new (sel : Selection) (host : Host) (config : Config) (root : Path) :
    Shadows sel host ⟨[], []⟩ (.new root (.new host config)) (.new root (.new host config)) where
  session := ⟨rfl, Engine.alike_new host config, fun _ => ⟨rfl, rfl, .none⟩⟩
  places := by simp [Ongoing.new, Selection.Takes]
  ordered := .nil
  length := rfl
  operations := by simp

section Shadows

variable {sel : Selection} {host : Host} {k : Kept} {o o' : Ongoing}

theorem Operation.Alike.append {numbers more : List Nat} {op op' : Operation}
    (h : op.Alike numbers op') : op.Alike (numbers ++ more) op' :=
  ⟨h.request, h.asked, h.effects, h.progress.append⟩

theorem Operation.alike_go {numbers : List Nat} {interactive : Bool} {op op' : Operation}
    {m m' : Move} {asks : Option QuerySpec} (request : op'.request = op.request)
    (asked : op'.asked = op.asked) (effects : List.Forall₂ Effect.Alike op.effects op'.effects)
    (alike : m.Alike host interactive numbers m') (own : asks = none ∨ interactive = true) :
    (op.go asks m).Alike numbers (op'.go asks m') := by
  constructor
  · exact request
  · cases asks with
    | none => exact asked
    | some spec =>
      have kept : interactive = true := own.resolve_left nofun
      simp only [Operation.go, (alike.session.use kept).tickets]
      rfl
  · exact List.rel_append effects alike.effects
  · exact alike.progress

/-! ### Operations that begin and go on -/

theorem Shadows.lt_length (h : Shadows sel host k o o') {i : Nat} (member : i ∈ k.places) :
    i < o.operations.length := by
  rcases (h.places i).mp member with ⟨op, place, -⟩
  exact (List.getElem?_eq_some_iff.mp place).1

theorem takes_append {operations : List Operation} {op : Operation} {i : Nat} :
    sel.Takes (operations ++ [op]) i ↔
      sel.Takes operations i ∨ i = operations.length ∧ sel.takes i op.request = true := by
  unfold Selection.Takes
  by_cases last : i = operations.length
  · subst last
    simp
  · by_cases earlier : i < operations.length
    · rw [List.getElem?_append_left earlier]
      simp [last]
    · have beyond : operations.length + 1 ≤ i := by omega
      rw [List.getElem?_eq_none (by simpa using beyond), List.getElem?_eq_none (by omega)]
      simp [last]

theorem takes_set {operations : List Operation} {op op₁ : Operation} {i j : Nat}
    (place : operations[i]? = some op) (request : op₁.request = op.request) :
    sel.Takes (operations.set i op₁) j ↔ sel.Takes operations j := by
  unfold Selection.Takes
  by_cases own : i = j
  · subst own
    rw [List.getElem?_set_self (List.getElem?_eq_some_iff.mp place).1, place]
    simp [request]
  · rw [List.getElem?_set_ne own]

section Move

variable {session session' : Session} {more : List Nat}

theorem Shadows.begun (h : Shadows sel host k o o')
    (alike : session.Alike host sel.interactive (k.numbers ++ more) session')
    {op op' : Operation} (takes : sel.takes o.operations.length op.request = true)
    (same : op.Alike (k.numbers ++ more) op') :
    Shadows sel host ⟨k.places ++ [o.operations.length], k.numbers ++ more⟩
      ⟨session, o.operations ++ [op]⟩ ⟨session', o'.operations ++ [op']⟩ := by
  have new : o.operations.length ∉ k.places := fun member => Nat.lt_irrefl _ (h.lt_length member)
  constructor
  case session => exact alike
  case length => simp [h.length]
  case ordered =>
    apply List.pairwise_append.mpr
    refine ⟨h.ordered, List.pairwise_singleton _ _, ?_⟩
    intro i member j last
    rw [List.mem_singleton.mp last]
    exact h.lt_length member
  case places =>
    intro i
    rw [List.mem_append, h.places i, List.mem_singleton, takes_append]
    constructor
    · rintro (old | rfl)
      · exact .inl old
      · exact .inr ⟨rfl, takes⟩
    · rintro (old | ⟨last, -⟩)
      · exact .inl old
      · exact .inr last
  case operations =>
    intro i member
    rcases List.mem_append.mp member with old | last
    · rcases h.operations i old with ⟨x, x', place, place', same⟩
      refine ⟨x, x', ?_, ?_, same.append⟩
      · rw [List.getElem?_append_left (h.lt_length old)]
        exact place
      · rw [List.idxOf_append_of_mem old,
          List.getElem?_append_left (List.getElem?_eq_some_iff.mp place').1]
        exact place'
    · rw [List.mem_singleton.mp last, List.idxOf_append_of_notMem new]
      exact ⟨op, op', by simp, by simp [h.length], same⟩

theorem Shadows.begun_left_out (h : Shadows sel host k o o')
    (alike : session.Alike host sel.interactive k.numbers o'.session) {op : Operation}
    (passes : sel.takes o.operations.length op.request = false) :
    Shadows sel host k ⟨session, o.operations ++ [op]⟩ o' := by
  constructor
  case session => exact alike
  case length => exact h.length
  case ordered => exact h.ordered
  case places =>
    intro i
    rw [h.places i, takes_append]
    constructor
    · exact .inl
    · rintro (old | ⟨rfl, takes⟩)
      · exact old
      · rw [passes] at takes
        cases takes
  case operations =>
    intro i member
    rcases h.operations i member with ⟨x, x', place, place', same⟩
    refine ⟨x, x', ?_, place', same⟩
    rw [List.getElem?_append_left (h.lt_length member)]
    exact place

theorem Shadows.gone_on (h : Shadows sel host k o o')
    (alike : session.Alike host sel.interactive (k.numbers ++ more) session')
    {i : Nat} (member : i ∈ k.places) {op op₁ op₁' : Operation} (place : o.operations[i]? = some op)
    (request : op₁.request = op.request) (same : op₁.Alike (k.numbers ++ more) op₁') :
    Shadows sel host ⟨k.places, k.numbers ++ more⟩ ⟨session, o.operations.set i op₁⟩
      ⟨session', o'.operations.set (k.places.idxOf i) op₁'⟩ := by
  constructor
  case session => exact alike
  case length => simp [h.length]
  case ordered => exact h.ordered
  case places => exact fun j => (h.places j).trans (takes_set place request).symm
  case operations =>
    intro j member'
    rcases h.operations j member' with ⟨x, x', there, there', same'⟩
    by_cases own : i = j
    · subst own
      refine ⟨op₁, op₁', ?_, ?_, same⟩
      · exact List.getElem?_set_self (List.getElem?_eq_some_iff.mp there).1
      · exact List.getElem?_set_self (List.getElem?_eq_some_iff.mp there').1
    · have own' : k.places.idxOf i ≠ k.places.idxOf j := fun same =>
        own ((List.idxOf_inj member).mp same)
      refine ⟨x, x', ?_, ?_, same'.append⟩
      · rw [List.getElem?_set_ne own]
        exact there
      · rw [List.getElem?_set_ne own']
        exact there'

theorem Shadows.gone_on_left_out (h : Shadows sel host k o o')
    (alike : session.Alike host sel.interactive k.numbers o'.session) {i : Nat}
    (other : i ∉ k.places) {op op₁ : Operation} (place : o.operations[i]? = some op)
    (request : op₁.request = op.request) :
    Shadows sel host k ⟨session, o.operations.set i op₁⟩ o' := by
  constructor
  case session => exact alike
  case length => exact h.length
  case ordered => exact h.ordered
  case places => exact fun j => (h.places j).trans (takes_set place request).symm
  case operations =>
    intro j member
    rcases h.operations j member with ⟨x, x', there, there', same⟩
    refine ⟨x, x', ?_, there', same⟩
    have elsewhere : i ≠ j := by
      rintro rfl
      exact other member
    rw [List.getElem?_set_ne elsewhere]
    exact there

end Move

/-! ### Everything that can happen -/

/-- What follows when `x` happens to the first session: it happens to the other as well, if it is
kept. -/
def Shadows.Keeps (sel : Selection) (host : Host) (k : Kept) (o o' o₁ : Ongoing)
    (x : Happening) : Prop :=
  match k.image? sel o x with
  | some x' => ∃ o₁', o'.act? x' = some o₁' ∧ Shadows sel host (k.grow o o₁) o₁ o₁'
  | none => Shadows sel host k o₁ o'

theorem Selection.of_takes {i : Nat} {request : Request} (takes : sel.takes i request = true) :
    request.isLook = true ∨ sel.interactive = true := by
  unfold Selection.takes at takes
  split at takes
  case isTrue look => exact .inl look
  case isFalse => exact .inr takes

theorem Selection.of_passes {i : Nat} {request : Request} (passes : sel.takes i request = false) :
    request.isLook = true ∨ sel.interactive = false := by
  unfold Selection.takes at passes
  split at passes
  case isTrue look => exact .inl look
  case isFalse => exact .inr passes

theorem Waiting.Fits.lookup {request : Request} {reason : Waiting} (fits : reason.Fits request)
    (look : request.isLook = true) : ∃ what g, reason = .lookup what g := by
  cases reason with
  | lookup what g => exact ⟨what, g, rfl⟩
  | building => exact fits.elim
  | prompt | run | pick | opening => exact absurd (look.symm.trans fits) nofun

theorem Shadows.keeps_begin (h : Shadows sel host k o o') (steady : host.Steady)
    (view : EditorView) {request : Request}
    (work : request.isLook = true ∨ request.isInteractive = true) {o₁ : Ongoing}
    (acts : o.act? (.begin view request) = some o₁) :
    Keeps sel host k o o' o₁ (.begin view request) := by
  cases Option.some.inj acts
  unfold Keeps Kept.image?
  dsimp only
  cases takes : sel.takes o.operations.length request with
  | false =>
    have part := Session.part_begin view o.session work
    exact h.begun_left_out (h.session.left_out part (Selection.of_passes takes)) takes
  | true =>
    have kept : request.isLook = true ∨ request.isInteractive = true ∧ sel.interactive = true := by
      rcases Selection.of_takes takes with look | interactive
      · exact .inl look
      · exact work.imp_right (fun direct => ⟨direct, interactive⟩)
    have alike := h.session.begin steady view kept
    have own : request.asks? view = none ∨ sel.interactive = true := by
      rcases kept with look | ⟨-, interactive⟩
      · cases request with
        | look => exact .inl rfl
        | _ => cases look
      · exact .inr interactive
    refine ⟨_, rfl, ?_⟩
    simp only [Kept.grow, List.length_append, List.length_singleton, Nat.add_sub_cancel_left]
    exact h.begun alike.session takes (Operation.alike_go rfl rfl .nil alike own)

theorem Shadows.keeps_resume_of_mem (h : Shadows sel host k o o') (steady : host.Steady)
    (fits : o.Fits) {i : Nat} {view : EditorView} {reply : Reply} {op : Operation}
    {reason : Waiting} {m : Move} (member : i ∈ k.places) (place : o.operations[i]? = some op)
    (waits : op.progress = .waits reason) (resumes : o.session.resume? view reason reply = some m) :
    ∃ o₁', o'.act? (.resume (k.places.idxOf i) view reply) = some o₁' ∧
      Shadows sel host ⟨k.places, k.numbers ++ given o.session.engine m.session.engine⟩
        ⟨m.session, o.operations.set i (op.go (reason.asks? reply) m)⟩ o₁' := by
  rcases h.operations i member with ⟨x, op', there, place', same⟩
  obtain rfl : x = op := Option.some.inj (there.symm.trans place)
  have progress := same.progress
  rw [waits] at progress
  generalize waits' : op'.progress = progress' at progress
  cases progress with
  | @waits _ reason' alike =>
    have kept : (∃ what g, reason = .lookup what g) ∨ sel.interactive = true := by
      rcases (h.places i).mp member with ⟨y, there, takes⟩
      obtain rfl : y = x := Option.some.inj (there.symm.trans place)
      exact (Selection.of_takes takes).imp_left (fits.waits place waits).lookup
    rcases h.session.resume? steady view alike kept resumes with ⟨m', resumes', alike'⟩
    have asks : reason'.asks? reply = reason.asks? reply := by cases alike <;> rfl
    have own : reason.asks? reply = none ∨ sel.interactive = true := by
      rcases kept with ⟨what, g, rfl⟩ | interactive
      · exact .inl rfl
      · exact .inr interactive
    refine ⟨_, Ongoing.act?_resume.mpr ⟨op', reason', m', place', waits', resumes', rfl⟩, ?_⟩
    rw [asks]
    refine h.gone_on alike'.session member place rfl ?_
    exact Operation.alike_go same.request same.asked same.effects alike' own

theorem Shadows.keeps_resume (h : Shadows sel host k o o') (steady : host.Steady) (fits : o.Fits)
    {i : Nat} {view : EditorView} {reply : Reply} {o₁ : Ongoing}
    (acts : o.act? (.resume i view reply) = some o₁) :
    Keeps sel host k o o' o₁ (.resume i view reply) := by
  rcases Ongoing.act?_resume.mp acts with ⟨op, reason, m, place, waits, resumes, rfl⟩
  unfold Keeps Kept.image?
  dsimp only
  by_cases member : i ∈ k.places
  · rw [if_pos member]
    simp only [Kept.grow, List.length_set, Nat.sub_self, List.range'_zero, List.append_nil]
    exact h.keeps_resume_of_mem steady fits member place waits resumes
  · rw [if_neg member]
    have passes : sel.takes i op.request = false :=
      Bool.eq_false_iff.mpr (fun takes => member ((h.places i).mpr ⟨op, place, takes⟩))
    have part := Session.part_resume (fits.waits place waits) resumes
    exact h.gone_on_left_out (h.session.left_out part (Selection.of_passes passes)) member place rfl

theorem Shadows.keeps_step (h : Shadows sel host k o o') (steady : host.Steady) {g : Nat}
    {step : Run.Step} {o₁ : Ongoing} (acts : o.act? (.engine (.step g step)) = some o₁) :
    Keeps sel host k o o' o₁ (.engine (.step g step)) := by
  rcases Option.map_eq_some_iff.mp acts with ⟨e₁, steps, rfl⟩
  unfold Keeps Kept.image?
  dsimp only
  by_cases member : g ∈ k.numbers
  · rw [if_pos member]
    rcases h.session.engine.step steady ⟨member, rfl⟩ steps with ⟨e₁', steps', engine⟩
    have latest : e₁.latest = o.session.engine.latest := by
      rcases Engine.exists_stepped steps with ⟨r, r₁, -, stepped⟩
      exact stepped.latest
    refine ⟨{ o' with session := { o'.session with engine := e₁' } }, ?_, ?_⟩
    · simp only [Ongoing.act?, Engine.act?, steps', Option.map_some]
    · simp only [Kept.grow, Nat.sub_self, List.range'_zero, List.append_nil,
        Engine.given_of_latest_eq latest]
      constructor
      case session => exact ⟨h.session.root, engine, fun kept =>
        ⟨(h.session.use kept).1, (h.session.use kept).2, (h.session.use kept).3⟩⟩
      case places => exact h.places
      case ordered => exact h.ordered
      case length => exact h.length
      case operations => exact h.operations
  · rw [if_neg member]
    constructor
    case session => exact ⟨h.session.root, h.session.engine.other_step member steps, fun kept =>
      ⟨(h.session.use kept).1, (h.session.use kept).2, (h.session.use kept).3⟩⟩
    case places => exact h.places
    case ordered => exact h.ordered
    case length => exact h.length
    case operations => exact h.operations

/-- **What happens to a session happens to the other as well, if it is kept**, and the other still
follows. -/
theorem Shadows.keeps (h : Shadows sel host k o o') (steady : host.Steady) (fits : o.Fits)
    {x : Happening} (work : x.IsWork) {o₁ : Ongoing} (acts : o.act? x = some o₁) :
    Keeps sel host k o o' o₁ x := by
  cases x with
  | begin view request => exact h.keeps_begin steady view work acts
  | resume i view reply => exact h.keeps_resume steady fits acts
  | engine a =>
    cases a with
    | step g step => exact h.keeps_step steady acts
    | start | startComplete | startBuild | setConfig | changeHost => exact work.elim

/-- **Without what is left out, everything else can happen as before.** -/
theorem Shadows.play (h : Shadows sel host k o o') (steady : host.Steady) (fits : o.Fits)
    {happenings : List Happening} (work : ∀ x ∈ happenings, x.IsWork) {o₁ : Ongoing}
    (plays : o.play? happenings = some o₁) :
    ∃ k₁ o₁', o'.play? (o.restrict sel k happenings) = some o₁' ∧
      Shadows sel host k₁ o₁ o₁' := by
  induction happenings generalizing k o o' with
  | nil =>
    cases Option.some.inj plays
    exact ⟨k, o', rfl, h⟩
  | cons x happenings ih =>
    rcases Ongoing.play?_cons.mp plays with ⟨o₂, acts, plays⟩
    rcases List.forall_mem_cons.mp work with ⟨first, later⟩
    have keeps := h.keeps steady fits first acts
    have fits := fits.act first acts
    unfold Shadows.Keeps at keeps
    simp only [Ongoing.restrict, acts]
    cases image : k.image? sel o x with
    | none =>
      rw [image] at keeps
      exact ih keeps fits later plays
    | some x' =>
      rw [image] at keeps
      rcases keeps with ⟨o₂', acts', follows⟩
      rcases ih follows fits later plays with ⟨k₁, o₁', plays', follows⟩
      exact ⟨k₁, o₁', Ongoing.play?_cons.mpr ⟨o₂', acts', plays'⟩, follows⟩

end Shadows

end SymbolNav
