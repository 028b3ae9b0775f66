/-
  SymbolNav/Proofs/Engine/Orders.lean
  ===================================
  **What the order of results depends on.**

  A run can go on in many ways, and in some of them its items come in another
  order; each order of its items is one in which they can come
  (`comesTo_order`).  What is shown is sorted.  So all ways show the same exactly
  when no two different items of the run are at one place (`results_in_order`).
-/
import SymbolNav.Commands
import SymbolNav.Proofs.Engine.Answers
import SymbolNav.Proofs.Item.Order
import SymbolNav.Proofs.Run.Orders
import SymbolNav.Session.Basic

namespace SymbolNav.Engine

open Run (Step)

/-- The run comes to this in one of the ways in which things can go on.  Source lines come from one
reader, and nothing comes too late. -/
def ComesTo (e : Engine) (g : Nat) (reader : SourceReader) (s : Run.Settled) : Prop :=
  ∃ later e', e.play? later = some e' ∧ e.ReadsFrom reader later ∧
    e'.result? g = some (.ok s) ∧ s.stats.discarded = 0

/-- Nothing that is shown of the results tells them apart. -/
structure ShownAlike (s s' : Run.Settled) : Prop where
  sorted : s.sortedItems = s'.sortedItems
  query : ∀ (c : Context) (tree : Bool), c.printAnswer tree s = c.printAnswer tree s'
  calls : ∀ (c : Context) (function : String) (incoming : Bool),
    c.printCalls function incoming (s.sortedItems.map (·.call c.root)) =
      c.printCalls function incoming (s'.sortedItems.map (·.call c.root))
  notes : s.stats.text = s'.stats.text
  lookup : ∀ (session : Session) (what : Lookup),
    session.lookupAnswer what s.sortedItems = session.lookupAnswer what s'.sortedItems
  presentation : ∀ (mode : OutputMode) (root : Path),
    Presentation.ofItems mode s.title s.sortedItems root =
      Presentation.ofItems mode s'.title s'.sortedItems root

theorem shownAlike_of_eq {s s' : Run.Settled} (spec : s.spec = s'.spec) (stats : s.stats = s'.stats)
    (sorted : s.sortedItems = s'.sortedItems) : ShownAlike s s' := by
  have title : s.title = s'.title := congrArg QuerySpec.title spec
  constructor
  · exact sorted
  · intro c tree
    simp only [Context.printAnswer, Run.Settled.toJson, sorted, title, spec, stats]
  · intro c function incoming
    rw [sorted]
  · rw [stats]
  · intro session what
    rw [sorted]
  · intro mode root
    rw [sorted, title]

/-! ### Ways to go on -/

section Ways

variable {e : Engine} {g : Nat} {reader : SourceReader}

theorem exists_play_of_follow {path : List (Surroundings × Step)} {r r' : Run}
    (found : e.run? g = some r) (follows : r.follow? path = some r')
    (still : ∀ x ∈ path, x.1 = e.surroundings) :
    ∃ e', e.play? (path.map (fun x => .step g x.2)) = some e' ∧ e'.run? g = some r' ∧
      e.ReadsFrom e.host.reader (path.map (fun x => .step g x.2)) := by
  induction path generalizing e r with
  | nil => exact ⟨e, rfl, found.trans follows, rfl⟩
  | cons x path ih =>
    rw [Run.follow?] at follows
    rcases Option.bind_eq_some_iff.mp follows with ⟨r₁, happens, follows⟩
    rw [still x List.mem_cons_self] at happens
    have number : r₁.generation = g :=
      (Run.moves_of_step? happens).kept.generation.trans (generation_of_run? found)
    have acts : e.act? (.step g x.2) = some (e.updateRun g (fun _ => r₁)) := by
      simp only [act?, step?, found, happens, Option.map_some]
    rcases ih (run?_updateRun_self found (fun _ _ => number)) follows
      (fun y member => still y (List.mem_cons_of_mem x member)) with ⟨e', plays, there, reads⟩
    refine ⟨e', play?_cons.mpr ⟨_, acts, plays⟩, there, rfl, ?_⟩
    intro e₁ acts₁
    cases Option.some.inj (acts.symm.trans acts₁)
    exact reads

theorem ReadsFrom.now {later : List Action} (reads : e.ReadsFrom reader later) :
    e.host.reader = reader := by
  cases later with
  | nil => exact reads
  | cons a later => exact reads.1

/-! ### One run -/

variable {a : Action} {e₁ : Engine} {run : Run}

/-- All that the run comes to has the same items. -/
theorem ComesTo.eq_reference (numbered : Numbered e) (happens : e.act? a = some e₁)
    (started : e.started? a = some run) {s : Run.Settled}
    (comes : ComesTo e₁ run.generation reader s) :
    run.ending = none ∧ s.spec = run.spec ∧
      s.items.Perm (run.spec.itemsOf reader run.cwd (Hit.ofLines run.unread)) ∧
      s.stats = run.spec.statsOf reader run.cwd run.unread := by
  rcases comes with ⟨later, e₂, plays, reads, result, undiscarded⟩
  rcases exists_course numbered happens started plays with ⟨r, found, -, course⟩
  simp only [result?, found, Option.bind_some] at result
  rcases Run.result?_eq_ok.mp result with ⟨settled, rfl⟩
  rcases course.settled_complete (reader_of_mem_pathOf plays reads) settled undiscarded with
    ⟨items, stats⟩
  exact ⟨(course.placed.drained (.inr settled)).2, course.kept.spec, items, stats⟩

theorem comesTo_order (numbered : Numbered e) (happens : e.act? a = some e₁)
    (started : e.started? a = some run) (ending : run.ending = none) {order : List Item}
    (perm : order.Perm (run.spec.itemsOf e₁.host.reader run.cwd (Hit.ofLines run.unread))) :
    ∃ s, ComesTo e₁ run.generation e₁.host.reader s ∧ s.items = order := by
  rcases run?_of_started? numbered happens started with ⟨found, number, latest, fresh, room⟩
  have keeps : run.dropsAt e₁.surroundings.latest = false := by
    have own : e₁.surroundings.latest = run.generation := latest.trans number.symm
    simp [Run.dropsAt, Run.supersededAt, own]
  rcases Run.exists_follow_order e₁.surroundings fresh room ending keeps perm with
    ⟨path, r', follows, still, settled, items⟩
  rcases exists_play_of_follow found follows still with ⟨e₂, plays, there, reads⟩
  have course := Run.course_of_follow? fresh follows
  have undiscarded : r'.stats.discarded = 0 := by
    apply course.discarded_eq_zero
    intro x member
    rw [still x member]
    exact keeps
  have result : e₂.result? run.generation = some (.ok
      ⟨r'.spec, r'.cwd, r'.items.reverse, r'.stats, r'.supersededAt e₂.latest⟩) := by
    simp only [result?, there, Option.bind_some]
    exact Run.result?_eq_ok.mpr ⟨settled, rfl⟩
  exact ⟨_, ⟨_, e₂, plays, reads, result, undiscarded⟩, items⟩

theorem ComesTo.order_iff (numbered : Numbered e) (happens : e.act? a = some e₁)
    (started : e.started? a = some run) {s : Run.Settled}
    (comes : ComesTo e₁ run.generation reader s) (order : List Item) :
    order.Perm s.items ↔ ∃ s', ComesTo e₁ run.generation reader s' ∧ s'.items = order := by
  rcases comes.eq_reference numbered happens started with ⟨ending, -, items, -⟩
  constructor
  · intro perm
    have now : e₁.host.reader = reader := by
      rcases comes with ⟨later, e₂, -, reads, -, -⟩
      exact reads.now
    rw [← now] at items ⊢
    exact comesTo_order numbered happens started ending (perm.trans items)
  · rintro ⟨s', comes', rfl⟩
    rcases comes'.eq_reference numbered happens started with ⟨-, -, items', -⟩
    exact items'.trans items.symm

theorem ComesTo.shownAlike (numbered : Numbered e) (happens : e.act? a = some e₁)
    (started : e.started? a = some run) {s s' : Run.Settled}
    (comes : ComesTo e₁ run.generation reader s) (comes' : ComesTo e₁ run.generation reader s')
    (apart : Item.Apart s.items) : ShownAlike s s' := by
  rcases comes.eq_reference numbered happens started with ⟨-, spec, items, stats⟩
  rcases comes'.eq_reference numbered happens started with ⟨-, spec', items', stats'⟩
  apply shownAlike_of_eq
  · exact spec.trans spec'.symm
  · exact stats.trans stats'.symm
  · exact (Item.sort_eq_of_perm (items'.trans items.symm) apart).symm

/-- Two different items at one place are shown in either order. -/
theorem ComesTo.exists_sortedItems_ne (numbered : Numbered e) (happens : e.act? a = some e₁)
    (started : e.started? a = some run) {s : Run.Settled}
    (comes : ComesTo e₁ run.generation reader s) {i j : Item} (hi : i ∈ s.items)
    (hj : j ∈ s.items) (tied : i.Ties j) (different : i ≠ j) :
    ∃ s', ComesTo e₁ run.generation reader s' ∧ s'.items.Perm s.items ∧
      s'.sortedItems ≠ s.sortedItems := by
  have visible : ¬ ∀ order : List Item, order.Perm s.items → Item.sort order = s.sortedItems := by
    intro same
    exact different (Item.sort_eq_iff_apart.mp same i hi j hj tied)
  push Not at visible
  rcases visible with ⟨order, perm, other⟩
  rcases (comes.order_iff numbered happens started order).mp perm with ⟨s', comes', rfl⟩
  exact ⟨s', comes', perm, other⟩

end Ways

/-! ### The order of results -/

/-- What the order of the results of a run depends on. -/
structure ResultOrder (e : Engine) (g : Nat) : Prop where
  /-- However the run went, what it came to is sorted by places, and by nothing else. -/
  sorted : ∀ later e' s, e.play? later = some e' → e'.result? g = some (.ok s) →
    (∀ sorted, Item.Sorts s.items sorted ↔ sorted = s.sortedItems) ∧
      ((∀ order : List Item, order.Perm s.items → Item.sort order = s.sortedItems) ↔
        Item.Apart s.items)
  /-- The orders in which the items can come are all the orders that there are. -/
  orders : ∀ reader s, ComesTo e g reader s → ∀ order : List Item,
    order.Perm s.items ↔ ∃ s', ComesTo e g reader s' ∧ s'.items = order
  alike : ∀ reader s s', ComesTo e g reader s → ComesTo e g reader s' → Item.Apart s.items →
    ShownAlike s s'
  different : ∀ reader s, ComesTo e g reader s → ∀ i ∈ s.items, ∀ j ∈ s.items, i.Ties j → i ≠ j →
    ∃ s₁ s₂, ComesTo e g reader s₁ ∧ ComesTo e g reader s₂ ∧ s₁.items.Perm s.items ∧
      s₂.items.Perm s.items ∧ s₁.sortedItems ≠ s₂.sortedItems

/-- **The order of results does not depend on the order in which things happen**, unless two
different items are at one place; then it does. -/
theorem results_in_order {host : Host} {config : Config} {before : List Action} {e e₁ : Engine}
    {a : Action} {run : Run} (reached : (new host config).play? before = some e)
    (happens : e.act? a = some e₁) (started : e.started? a = some run) :
    ResultOrder e₁ run.generation := by
  have numbered := numbered_of_play? (numbered_new host config) reached
  constructor
  case sorted =>
    intro later e₂ s plays result
    constructor
    · intro sorted
      constructor
      · intro sorts
        exact sorts.unique (Item.sorts_sort s.items)
      · rintro rfl
        exact Item.sorts_sort s.items
    · exact Item.sort_eq_iff_apart
  case orders =>
    intro reader s comes order
    exact comes.order_iff numbered happens started order
  case alike =>
    intro reader s s' comes comes' apart
    exact comes.shownAlike numbered happens started comes' apart
  case different =>
    intro reader s comes i hi j hj tied different
    rcases comes.exists_sortedItems_ne numbered happens started hi hj tied different with
      ⟨s', comes', perm, other⟩
    exact ⟨s', s, comes', comes, perm, .refl _, other⟩

namespace Sample

/-! An indexer that reports two hits at one place. -/

def twins : Response :=
  ⟨[97, 32, 102, 32, 50, 32, 120, 10, 97, 32, 102, 32, 50, 32, 121, 10], [], some 0⟩

def twinMachine : Host := { machine with program := fun _ files => (twins, files) }

def laterFirst : List Action :=
  [Run.Step.readLine, .readLine, .endOutput, .permit 0, .resolve 0, .join 0, .permit 0,
    .resolve 0, .join 0, .close].map (.step 1)

/-- Nothing was too late, and two different items are at one place. -/
def twinned : Except Error Run.Settled → Bool
  | .ok s => s.stats.discarded = 0 &&
      s.items.any (fun i => s.items.any (fun j => decide (i.Ties j ∧ i ≠ j)))
  | .error _ => false

end Sample

open Sample in
/-- Of two hits at one place, the one that is resolved first is shown first. -/
theorem results_in_order_twins :
    ∃ e₁ s₁ s₂, (new twinMachine settings).act? (.start question root) = some e₁ ∧
      ComesTo e₁ 1 reader s₁ ∧ ComesTo e₁ 1 reader s₂ ∧ s₁.items.Perm s₂.items ∧
      s₁.sortedItems ≠ s₂.sortedItems := by
  have reached : (new twinMachine settings).play? [] = some (new twinMachine settings) := rfl
  have ends : ((((new twinMachine settings).act? (.start question root)).bind
      (·.play? laterFirst)).bind (·.result? 1) |>.filter twinned).isSome := by decide +kernel
  rcases Option.isSome_iff_exists.mp ends with ⟨result, seen⟩
  rcases Option.filter_eq_some_iff.mp seen with ⟨comes, twinned⟩
  rcases Option.bind_eq_some_iff.mp comes with ⟨e₂, plays, comes⟩
  rcases Option.bind_eq_some_iff.mp plays with ⟨e₁, happens, plays⟩
  have begun : (((new twinMachine settings).started? (.start question root)).filter
      (fun run => run.generation = 1)).isSome := by decide +kernel
  rcases Option.isSome_iff_exists.mp begun with ⟨run, seen⟩
  rcases Option.filter_eq_some_iff.mp seen with ⟨started, number⟩
  have law := results_in_order reached happens started
  rw [of_decide_eq_true number] at law
  cases result with
  | error e => cases twinned
  | ok s =>
    simp only [Sample.twinned, Bool.and_eq_true, decide_eq_true_eq, List.any_eq_true] at twinned
    rcases twinned with ⟨undiscarded, i, hi, j, hj, tied, different⟩
    have given : e₁.host.sources = some reader :=
      sources_of_act? happens (fun _ => by simp)
    have reads : e₁.ReadsFrom reader laterFirst :=
      readsFrom_of_sources given (by simp [laterFirst])
    have here : ComesTo e₁ 1 reader s := ⟨_, e₂, plays, reads, comes, undiscarded⟩
    rcases law.different reader s here i hi j hj tied different with
      ⟨s₁, s₂, comes₁, comes₂, perm₁, perm₂, other⟩
    exact ⟨e₁, s₁, s₂, happens, comes₁, comes₂, perm₁.trans perm₂.symm, other⟩

end SymbolNav.Engine
