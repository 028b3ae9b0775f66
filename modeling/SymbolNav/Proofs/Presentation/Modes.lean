/-
  SymbolNav/Proofs/Presentation/Modes.lean
  ========================================
  **The list and the tree show the same items in the same order.**

  The tree changes the order of items only where those of one file do not stand
  together: an item whose file was shown before goes to its group, and that is the end
  of the tree as long as the latest item is in the same file
  (`flatMap_children_add_latest`).  Sorted items of one file stand together, because
  the order of items begins with the file (`file_same_of_between`).

  Files are sorted by what they name and grouped by what is shown of them.  That these
  are the same has two sides: in the results of a run, files that are shown alike are
  the same (`Path.same_join_relativeTo`), and the converse is asked for
  (`ShowsFilesOnce`).
-/
import SymbolNav.Proofs.Item.Order
import SymbolNav.Proofs.Path.Relative
import SymbolNav.Proofs.Presentation.Grouping
import SymbolNav.Proofs.Session.Tickets

namespace SymbolNav

/-! ### Items that stand together -/

namespace ResultTree

variable {root : Path} {items : List Item} {gs : List FileGroup}

/-- A leaf that goes to the last group, or to a new one, comes last. -/
theorem flatMap_children_add_latest {path : String} (leaf : Leaf) (gs : List FileGroup)
    (unique : (gs.map (·.path)).Nodup)
    (latest : path ∈ gs.map (·.path) → gs.getLast?.map (·.path) = some path) :
    (add path leaf gs).flatMap (·.children) = gs.flatMap (·.children) ++ [leaf] := by
  induction gs with
  | nil => rfl
  | cons g gs ih =>
    obtain ⟨apart, unique⟩ := List.nodup_cons.mp unique
    rw [add]
    by_cases own : g.path = path
    · have alone : gs = [] := by
        by_contra more
        have last := latest (by simp [own])
        rw [List.getLast?_cons_of_ne_nil more] at last
        obtain ⟨f, last, same⟩ := Option.map_eq_some_iff.mp last
        have member : g.path ∈ gs.map (·.path) :=
          List.mem_map.mpr ⟨f, List.mem_of_getLast? last, same.trans own.symm⟩
        exact apart member
      subst alone
      simp [own]
    · rw [if_neg own, List.flatMap_cons, List.flatMap_cons, List.append_assoc]
      congr 1
      refine ih unique ?_
      intro further
      have more : gs ≠ [] := by
        rintro rfl
        cases further
      have last := latest (List.mem_cons_of_mem _ further)
      rwa [List.getLast?_cons_of_ne_nil more] at last

/-- An item whose path came up before is shown in the same file as the item in front of it. -/
def Together (root : Path) (items : List Item) : Prop :=
  ∀ before i after, items = before ++ i :: after →
    i.relativePath root ∈ before.map (·.relativePath root) →
      before.getLast?.map (·.relativePath root) = some (i.relativePath root)

/-- The groups are those of the items, and no leaf has left its place. -/
structure InOrder (root : Path) (items : List Item) (gs : List FileGroup) : Prop where
  grouped : Grouped root items gs
  leaves : gs.flatMap (·.children) = items.map Item.leaf
  latest : gs.getLast?.map (·.path) = items.getLast?.map (·.relativePath root)

theorem inOrder_nil (root : Path) : InOrder root [] [] where
  grouped := grouped_nil root
  leaves := rfl
  latest := rfl

theorem InOrder.add (h : InOrder root items gs) (i : Item)
    (together : i.relativePath root ∈ items.map (·.relativePath root) →
      items.getLast?.map (·.relativePath root) = some (i.relativePath root)) :
    InOrder root (items ++ [i]) (ResultTree.add (i.relativePath root) i.leaf gs) := by
  have latest (known : i.relativePath root ∈ gs.map (·.path)) :
      gs.getLast?.map (·.path) = some (i.relativePath root) := by
    rw [h.latest]
    exact together ((h.grouped.paths.mem _).mp known)
  constructor
  case grouped => exact h.grouped.add i
  case leaves =>
    rw [flatMap_children_add_latest _ gs h.grouped.paths.nodup latest, h.leaves, List.map_append,
      List.map_singleton]
  case latest =>
    rw [List.getLast?_concat, Option.map_some, ← List.getLast?_map, map_path_add]
    split
    case isTrue known => rw [List.getLast?_map, latest known]
    case isFalse new => exact List.getLast?_concat

theorem InOrder.foldl {more : List Item} (h : InOrder root items gs)
    (together : Together root (items ++ more)) :
    InOrder root (items ++ more)
      (more.foldl (fun gs i => ResultTree.add (i.relativePath root) i.leaf gs) gs) := by
  induction more generalizing items gs with
  | nil => rwa [List.append_nil]
  | cons i more ih =>
    have next := ih (h.add i (together items i more rfl)) (by simpa using together)
    rwa [List.append_assoc] at next

/-- **Items that stand together by file keep their places in the tree.** -/
theorem leaves_ofItems (title : String) (together : Together root items) :
    (ofItems title items root).leaves = items.map Item.leaf :=
  ((inOrder_nil root).foldl together).leaves

end ResultTree

/-! ### Sorted items -/

/-- What stands between two items of one file is in that file. -/
theorem Item.file_same_of_between {i j k : Item} (first : i.UpTo j) (second : j.UpTo k)
    (ends : i.file.Same k.file) : j.file.Same k.file := by
  rcases second with before | ⟨same, -⟩
  · exfalso
    rw [← Path.key_eq_iff.mpr ends] at before
    rcases first with before' | ⟨same, -⟩
    · exact List.lt_irrefl _ (List.lt_trans before before')
    · rw [Path.key_eq_iff.mpr same] at before
      exact List.lt_irrefl _ before
  · exact same

/-- Each file is shown in one way. -/
def ShowsFilesOnce (root : Path) (items : List Item) : Prop :=
  ∀ i ∈ items, ∀ j ∈ items, i.file.Same j.file → i.relativePath root = j.relativePath root

/-- The files were reported by an indexer that ran in this directory. -/
def ReportedIn (root : Path) (items : List Item) : Prop :=
  ∀ i ∈ items, ∃ hit : Hit, i.file = hit.path root

instance (root : Path) (items : List Item) : Decidable (ShowsFilesOnce root items) :=
  inferInstanceAs (Decidable (∀ i ∈ items, ∀ j ∈ items, _))

section Sorted

variable {root : Path} {items : List Item}

theorem ReportedIn.same {i j : Item} (reported : ReportedIn root items) (hi : i ∈ items)
    (hj : j ∈ items) (shown : i.relativePath root = j.relativePath root) :
    i.file.Same j.file := by
  obtain ⟨hit, file⟩ := reported i hi
  obtain ⟨hit', file'⟩ := reported j hj
  rw [Item.relativePath, Item.relativePath, file, file'] at shown
  rw [file, file']
  exact Path.same_of_relativeTo_eq shown

theorem together_of_sorted (sorted : items.Pairwise Item.UpTo) (reported : ReportedIn root items)
    (once : ShowsFilesOnce root items) : ResultTree.Together root items := by
  intro before i after whole seen
  obtain ⟨j, hj, shown⟩ := List.mem_map.mp seen
  have nonempty : before ≠ [] := List.ne_nil_of_mem hj
  have inside : ∀ x ∈ before, x ∈ items := by
    intro x member
    rw [whole]
    exact List.mem_append_left _ member
  have member : i ∈ items := by simp [whole]
  -- `k` is the item in front of `i`
  obtain ⟨rest, k, rfl⟩ := (List.eq_nil_or_concat before).resolve_left nonempty
  rw [List.concat_eq_append] at *
  rw [whole, List.append_assoc] at sorted
  have ends : j.file.Same i.file := reported.same (inside j hj) member shown
  have middle : k.file.Same i.file := by
    rcases List.mem_append.mp hj with earlier | latest
    · have later := (List.pairwise_append.mp sorted).2.2 j earlier
      have tail := (List.pairwise_append.mp sorted).2.1
      have first : j.UpTo k := later k (by simp)
      have second : k.UpTo i := (List.pairwise_cons.mp tail).1 i (by simp)
      exact Item.file_same_of_between first second ends
    · cases List.mem_singleton.mp latest
      exact ends
  rw [List.getLast?_concat, Option.map_some, once k (inside k (by simp)) i member middle]

/-- Sorted results of one project are the same in both shapes. -/
theorem items_ofItems_sort (mode : OutputMode) (title : String)
    (reported : ReportedIn root items) (once : ShowsFilesOnce root items) :
    (Presentation.ofItems mode title (Item.sort items) root).items = Item.sort items := by
  have sorts := Item.sorts_sort items
  have back (l : List Item) : (l.map Item.leaf).map (·.item) = l := by
    rw [List.map_map]
    exact List.map_id l
  cases mode with
  | list =>
    show ((Item.sort items).map (·.listEntry root)).map (·.item) = _
    rw [List.map_map]
    exact List.map_id _
  | tree =>
    have members : ∀ {i}, i ∈ Item.sort items → i ∈ items := sorts.perm.mem_iff.mp
    have together := together_of_sorted sorts.nondecreasing
      (fun i hi => reported i (members hi))
      (fun i hi j hj => once i (members hi) j (members hj))
    show (ResultTree.ofItems title (Item.sort items) root).leaves.map (·.item) = _
    rw [ResultTree.leaves_ofItems title together, back]

end Sorted

/-! ### Results of runs -/

theorem Engine.reportedIn_of_result? {host : Host} {config : Config} {actions : List Action}
    {e : Engine} (reached : (new host config).play? actions = some e) {r : Run}
    (member : r ∈ e.runs) {latest : Nat} {s : Run.Settled}
    (settled : r.result? latest = some (.ok s)) : ReportedIn s.cwd s.items := by
  obtain ⟨-, rfl⟩ := Run.result?_eq_ok.mp settled
  intro i inside
  exact exists_path_of_mem_items reached member (List.mem_reverse.mp inside)

namespace Ongoing

open Engine (Reaches)

variable {o o' : Ongoing} {happening : Happening}

/-- The engine of a session goes its own way, and the session keeps its root. -/
theorem Goes.engine_root (goes : Goes o happening o') (numbered : o.session.engine.Numbered) :
    Reaches o.session.engine o'.session.engine ∧ o'.session.root = o.session.root := by
  cases goes with
  | engine acts => exact ⟨.of_act? acts, rfl⟩
  | quiet turn quiet unstored => exact ⟨quiet.engine, quiet.root⟩
  | prompts turn fresh unstored => exact ⟨.refl _, rfl⟩
  | @asks _ _ _ spec _ turn ready unstored =>
    have asking := Session.asking_ask numbered spec
    exact ⟨asking.engine, asking.root⟩
  | @stores _ _ _ st _ storing stored =>
    have quiet := Session.quiet_storing o.session st.result
    rw [storing.session]
    exact ⟨quiet.engine, quiet.root⟩

/-- What a session on a new engine holds as its results comes from the root of the session. -/
structure AtRoot (host : Host) (config : Config) (o : Ongoing) : Prop where
  orderly : Orderly o
  engine : Reaches (Engine.new host config) o.session.engine
  results : ∀ s, o.session.lastResults = some s → ReportedIn o.session.root s.items

variable {host : Host} {config : Config}

theorem AtRoot.go (h : AtRoot host config o) (goes : Goes o happening o') :
    AtRoot host config o' where
  orderly := goes.orderly h.orderly
  engine := h.engine.trans (goes.engine_root h.orderly.numbered).1
  results := by
    intro s holds
    rw [goes.lastResults h.orderly.numbered] at holds
    rw [(goes.engine_root h.orderly.numbered).2]
    cases stored : o.store? happening with
    | none =>
      rw [stored] at holds
      exact h.results s holds
    | some st =>
      rw [stored] at holds
      cases Option.some.inj holds
      obtain ⟨i, view, op, -, storing⟩ := goes.stored stored
      have presents := storing.presents h.orderly
      obtain ⟨r, found, settled⟩ := Option.bind_eq_some_iff.mp presents.settled
      obtain ⟨actions, reached⟩ := h.engine
      rw [← presents.root]
      exact Engine.reportedIn_of_result? reached (List.mem_of_find?_eq_some found) settled

theorem AtRoot.play {happenings : List Happening} (h : AtRoot host config o)
    (plays : o.play? happenings = some o') : AtRoot host config o' := by
  induction happenings generalizing o with
  | nil => cases Option.some.inj plays; exact h
  | cons happening happenings ih =>
    obtain ⟨o₁, happens, rest⟩ := play?_cons.mp plays
    exact ih (h.go (goes_of_act? happens)) rest

end Ongoing

/-- **The list and the tree show the same items in the same order**, as long as each file is shown
in one way.  This holds for what any run of an engine has come to, and for what a session shows as
its results, whatever has happened to them. -/
theorem Presentation.modes_agree :
    (∀ (host : Host) (config : Config) (actions : List Engine.Action) (e : Engine),
      (Engine.new host config).play? actions = some e →
        ∀ r ∈ e.runs, ∀ latest s, r.result? latest = some (.ok s) →
          ShowsFilesOnce s.cwd s.items → ∀ mode title,
            (ofItems mode title s.sortedItems s.cwd).items = s.sortedItems) ∧
    ∀ (host : Host) (config : Config) (actions : List Engine.Action) (engine : Engine),
      (Engine.new host config).play? actions = some engine →
        ∀ (root : Path) (happenings : List Happening) (o : Ongoing),
          (Ongoing.new root engine).play? happenings = some o →
            ∀ s, o.session.lastResults = some s → ShowsFilesOnce o.session.root s.items →
              ∀ mode title,
                (ofItems mode title s.sortedItems o.session.root).items = s.sortedItems := by
  constructor
  · intro host config actions e reached r member latest s settled once mode title
    exact items_ofItems_sort mode title (Engine.reportedIn_of_result? reached member settled) once
  · intro host config actions engine used root happenings o reached s holds once mode title
    have start : Ongoing.AtRoot host config (.new root engine) := {
      orderly := Ongoing.orderly_new
        (Engine.numbered_of_play? (Engine.numbered_new host config) used)
      engine := ⟨actions, used⟩
      results := nofun }
    exact items_ofItems_sort mode title ((start.play reached).results s holds) once

namespace Engine.Sample

/-! An indexer that reports two hits in one file and, between them, one in another. -/

def scattered : Response :=
  ⟨[98, 32, 102, 32, 50, 32, 120, 10, 97, 32, 102, 32, 50, 32, 120, 10, 98, 32, 102, 32, 51, 32,
    121, 10], [], some 0⟩

def scatteringMachine : Host := { machine with program := fun _ files => (scattered, files) }

/-- The first run reads the output, and its tasks come to their ends in the order of the lines. -/
def readScattered : List Action :=
  ([Run.Step.readLine, .readLine, .readLine, .endOutput, .permit 2, .permit 1, .permit 0,
    .resolve 2, .resolve 1, .resolve 0, .join 0, .join 0, .join 0, .close] : List Run.Step).map
      (.step 1)

end Engine.Sample

open Engine.Sample in
/-- The items came file by file in turns; the tree would gather them, but of sorted items it keeps
the order, in the session whose run it was, too. -/
theorem Presentation.modes_agree_scattered :
    (∃ e r s, (Engine.new scatteringMachine settings).play? (.start question root :: readScattered) =
        some e ∧ r ∈ e.runs ∧ r.result? e.latest = some (.ok s) ∧
        (ofItems .tree "f" s.items s.cwd).items ≠ s.items ∧
        (ofItems .tree "f" s.sortedItems s.cwd).items = s.sortedItems) ∧
      ∃ o s, (Ongoing.new root (Engine.new scatteringMachine settings)).play?
          (.begin ⟨none, none, none⟩ (.run question) :: readScattered.map .engine ++
            [.resume 0 ⟨none, none, none⟩ .settled]) = some o ∧
        o.session.lastResults = some s ∧
        (ofItems .tree "f" s.sortedItems o.session.root).items = s.sortedItems := by
  constructor
  · have ends : (((Engine.new scatteringMachine settings).play?
        (.start question root :: readScattered)).bind (fun e => (e.run? 1).bind (fun r =>
          ((r.result? e.latest).bind Except.toOption).filter (fun s =>
            decide (ShowsFilesOnce s.cwd s.items ∧
              (ofItems .tree "f" s.items s.cwd).items ≠ s.items))))).isSome := by
      decide +kernel
    obtain ⟨s, seen⟩ := Option.isSome_iff_exists.mp ends
    obtain ⟨e, plays, seen⟩ := Option.bind_eq_some_iff.mp seen
    obtain ⟨r, found, seen⟩ := Option.bind_eq_some_iff.mp seen
    obtain ⟨comes, apart⟩ := Option.filter_eq_some_iff.mp seen
    obtain ⟨once, gathered⟩ := of_decide_eq_true apart
    obtain ⟨result, comes, ok⟩ := Option.bind_eq_some_iff.mp comes
    obtain ⟨s', rfl⟩ : ∃ s', result = .ok s' := by
      cases result with
      | error e => cases ok
      | ok s' => exact ⟨s', rfl⟩
    cases Option.some.inj ok
    have member : r ∈ e.runs := List.mem_of_find?_eq_some found
    exact ⟨e, r, s, plays, member, comes, gathered,
      modes_agree.1 _ _ _ e plays r member _ s comes once .tree "f"⟩
  · have ends : (((Ongoing.new root (Engine.new scatteringMachine settings)).play?
        (.begin ⟨none, none, none⟩ (.run question) :: readScattered.map .engine ++
          [.resume 0 ⟨none, none, none⟩ .settled])).bind (fun o =>
            o.session.lastResults.filter (fun s =>
              decide (ShowsFilesOnce o.session.root s.items)))).isSome := by
      decide +kernel
    obtain ⟨s, seen⟩ := Option.isSome_iff_exists.mp ends
    obtain ⟨o, plays, seen⟩ := Option.bind_eq_some_iff.mp seen
    obtain ⟨holds, once⟩ := Option.filter_eq_some_iff.mp seen
    have used : (Engine.new scatteringMachine settings).play? [] =
        some (Engine.new scatteringMachine settings) := rfl
    exact ⟨o, s, plays, holds, modes_agree.2 _ _ _ _ used root _ o plays s holds
      (of_decide_eq_true once) .tree "f"⟩

end SymbolNav
