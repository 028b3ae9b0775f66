/-
  SymbolNav/Proofs/Path/Relative.lean
  ===================================
  **A file's path, as it is shown, leads back to the file.**

  Below the project root a path is shown by the steps it takes from there, and joined
  to the root they name the same place again (`components_join_stripPrefix?`).
  Anywhere else it is absolute and shown as it is.  So files that look the same in the
  results of one run are the same (`shown_path_faithful`).
-/
import SymbolNav.Proofs.Engine.Answers
import SymbolNav.Proofs.Path.Components

namespace SymbolNav

namespace Path

variable {p q root : Path}

/-! ### What a path starts from -/

theorem components_eq_nil_iff : p.components = [] ↔ p.text = "" := by
  constructor
  · intro nothing
    rcases parts_cases p with ⟨absolute, -⟩ | rfl | ⟨relative, w, ws, whole, filled⟩
    · rw [components_eq, lead, if_pos absolute] at nothing
      exact absurd nothing (List.cons_ne_nil _ _)
    · rfl
    · rw [components_of_relative relative whole] at nothing
      by_cases dot : w = ['.']
      · simp [dot] at nothing
      · have counts : w.counts = true := by simp [Part.counts, filled, dot]
        simp [stepsOf, counts] at nothing
  · intro empty
    obtain rfl : p = ⟨""⟩ := congrArg mk empty
    rfl

theorem ne_lead_of_mem_steps {c : Component} (member : c ∈ p.steps) :
    (decide (c = .root) || decide (c = .current)) = false := by
  obtain ⟨w, -, rfl⟩ := List.mem_map.mp member
  unfold Part.component
  split <;> simp

/-- The first component tells what a path starts from. -/
theorem lead_eq_head (p : Path) :
    p.lead = p.components.head?.toList.filter
      (fun c => decide (c = .root) || decide (c = .current)) := by
  rw [components_eq]
  unfold lead
  split
  · rfl
  · split
    · rfl
    · cases first : p.steps with
      | nil => rfl
      | cons c s =>
        have step : c ∈ p.steps := by rw [first]; exact List.mem_cons_self
        simpa using ne_lead_of_mem_steps step

theorem lead_eq_of_prefix (named : root.components ≠ [])
    (below : root.components <+: p.components) : root.lead = p.lead := by
  obtain ⟨rest, whole⟩ := below
  have heads : root.components.head? = p.components.head? := by
    rw [← whole, List.head?_append_of_ne_nil _ named]
  rw [lead_eq_head, lead_eq_head, heads]

/-- A path whose components begin with those of another goes on with steps of its own. -/
theorem components_eq_append (named : root.components ≠ [])
    (below : root.components <+: p.components) :
    p.components = root.components ++ p.steps.drop root.steps.length := by
  have leads := lead_eq_of_prefix named below
  obtain ⟨rest, whole⟩ := below
  rw [components_eq root, components_eq p, leads, List.append_assoc] at whole
  have further := List.append_cancel_left whole
  rw [components_eq p, components_eq root, leads, ← further, List.drop_left, List.append_assoc]

/-! ### There and back -/

theorem join_of_empty {base : Path} (empty : base.text = "") (q : Path) : base.join q = q := by
  unfold join
  split
  · rfl
  · simp [empty]

/-- What is left of some parts when those that do not count are dropped at both ends. -/
theorem starts_trimmed (ws : List Part) :
    ∀ w ∈ (withoutIdleEnd (ws.dropWhile (fun w => !w.counts))).head?, w.counts = true := by
  have first := List.head?_dropWhile_not (fun w : Part => !w.counts) ws
  cases rest : ws.dropWhile (fun w => !w.counts) with
  | nil => simp [withoutIdleEnd]
  | cons v vs =>
    have counts : v.counts = true := by simpa [rest] using first
    rw [withoutIdleEnd_cons counts]
    simpa using counts

theorem dropCounting_subset (n : Nat) (ws : List Part) : dropCounting n ws ⊆ ws := by
  induction ws generalizing n with
  | nil => cases n <;> exact List.Subset.refl _
  | cons w ws ih =>
    cases n with
    | zero => exact List.Subset.refl _
    | succ n =>
      rw [dropCounting]
      split
      · exact List.Subset.trans (ih n) (List.subset_cons_self w ws)
      · exact List.Subset.trans (ih (n + 1)) (List.subset_cons_self w ws)

/-- A path of such parts takes the steps of all of them from where one is. -/
theorem ofParts_trimmed {ws : List Part} (free : ∀ w ∈ ws, '/' ∉ w) :
    let q := ofParts (withoutIdleEnd (ws.dropWhile (fun w => !w.counts)))
    q.isAbsolute = false ∧ q.lead = [] ∧ q.steps = stepsOf ws := by
  intro q
  have starts := starts_trimmed ws
  have kept : ∀ w ∈ withoutIdleEnd (ws.dropWhile (fun w => !w.counts)), '/' ∉ w :=
    free_withoutIdleEnd fun w member => free w ((List.dropWhile_sublist _).subset member)
  have relative : q.isAbsolute = false := by
    apply isAbsolute_ofParts kept
    rintro w member rfl
    exact absurd (starts [] member) (by decide)
  have undotted : q.parts.head? ≠ some ['.'] := by
    by_cases nothing : withoutIdleEnd (ws.dropWhile (fun w => !w.counts)) = []
    · have empty : q = ofParts [] := congrArg ofParts nothing
      rw [empty]
      decide
    · rw [show q.parts = _ from parts_ofParts nothing kept]
      intro dot
      exact absurd (starts ['.'] dot) (by decide)
  refine ⟨relative, ?_, ?_⟩
  · rw [lead, relative, if_neg Bool.false_ne_true, if_neg undotted]
  · rw [steps_ofParts kept, stepsOf_withoutIdleEnd, stepsOf_dropWhile]

/-- What is left of a path below another: the whole of it below the empty path, and otherwise the
steps that it goes on with. -/
theorem of_stripPrefix? (h : p.stripPrefix? root = some q) :
    root.text = "" ∧ q.components = p.components ∨
      root.text ≠ "" ∧ q.isAbsolute = false ∧ q.lead = [] ∧
        p.components = root.components ++ q.steps := by
  unfold stripPrefix? at h
  dsimp only at h
  split at h
  case isFalse => cases h
  case isTrue below =>
    split at h
    case isTrue nowhere =>
      obtain rfl := Option.some.inj h
      exact .inl ⟨components_eq_nil_iff.mp nowhere, components_trimEndParts p⟩
    case isFalse named =>
      obtain rfl := Option.some.inj h
      have text : root.text ≠ "" := fun empty => named (components_eq_nil_iff.mpr empty)
      have free : ∀ w ∈ dropCounting (root.parts.filter Part.counts).length p.parts, '/' ∉ w :=
        fun w member => free_of_mem_parts w (dropCounting_subset _ _ member)
      obtain ⟨relative, starts, left⟩ := ofParts_trimmed free
      have counting : (root.parts.filter Part.counts).length = root.steps.length := by
        rw [Path.steps, stepsOf, List.length_map]
      refine .inr ⟨text, relative, starts, ?_⟩
      rw [left, stepsOf_dropCounting, counting]
      exact components_eq_append named (List.isPrefixOf_iff_prefix.mp below)

/-- **A path below another goes on with what is left of it.** -/
theorem components_stripPrefix? (h : p.stripPrefix? root = some q) :
    p.components = root.components ++ q.components := by
  rcases of_stripPrefix? h with ⟨empty, same⟩ | ⟨-, -, starts, whole⟩
  · rw [components_eq_nil_iff.mpr empty, List.nil_append, same]
  · rw [whole, components_eq q, starts, List.nil_append]

/-- **What is left of a path below another leads from there back to it.** -/
theorem components_join_stripPrefix? (h : p.stripPrefix? root = some q) :
    (root.join q).components = p.components := by
  rcases of_stripPrefix? h with ⟨empty, same⟩ | ⟨named, relative, -, whole⟩
  · rw [join_of_empty empty, same]
  · rw [components_join named relative, whole]

theorem stripPrefix?_eq_none (h : p.stripPrefix? root = none) :
    ¬root.components <+: p.components := by
  intro below
  unfold stripPrefix? at h
  dsimp only at h
  rw [if_pos (List.isPrefixOf_iff_prefix.mpr below)] at h
  split at h <;> exact absurd h (Option.some_ne_none _)

/-- A relative path is below what it is joined to. -/
theorem prefix_components_join {child : Path} (base : Path) (relative : child.isAbsolute = false) :
    base.components <+: (base.join child).components := by
  by_cases named : base.text = ""
  · rw [components_eq_nil_iff.mpr named]
    exact List.nil_prefix
  · rw [components_join named relative]
    exact List.prefix_append _ _

/-- **A path that was joined to a root is shown, seen from that root, as one that leads there.** -/
theorem same_join_relativeTo (root file : Path) :
    (root.join ⟨(root.join file).relativeTo root⟩).Same (root.join file) := by
  unfold relativeTo
  cases strips : (root.join file).stripPrefix? root with
  | some q => exact components_join_stripPrefix? strips
  | none =>
    have absolute : file.isAbsolute = true := by
      by_contra relative
      rw [Bool.not_eq_true] at relative
      exact stripPrefix?_eq_none strips (prefix_components_join root relative)
    have there (base : Path) : base.join file = file := if_pos absolute
    rw [Option.getD_none, there root]
    exact congrArg components (there root)

end Path

/-- Paths that were joined to one root are the same if they look the same from there. -/
theorem Path.same_of_relativeTo_eq {root file file' : Path}
    (shown : (root.join file).relativeTo root = (root.join file').relativeTo root) :
    (root.join file).Same (root.join file') := by
  have there := Path.same_join_relativeTo root file
  have there' := Path.same_join_relativeTo root file'
  rw [shown] at there
  exact there.symm.trans there'

/-! ### What is shown of a run -/

theorem Hit.file_of_resolve {hit : Hit} {reader : SourceReader} {root : Path} {token : String}
    {item : Item} (h : hit.resolve reader root token = .value item) :
    item.file = hit.path root := by
  unfold Hit.resolve at h
  dsimp only at h
  split at h
  case h_1 =>
    split at h
    case h_1 => cases h; rfl
    case h_2 => cases h
  case h_2 => cases h
  case h_3 => cases h

namespace Engine

/-- The items of a run are in files that were reported, seen from where the indexer ran. -/
theorem exists_path_of_mem_items {host : Host} {config : Config} {actions : List Action}
    {e : Engine} (reached : (new host config).play? actions = some e) {r : Run}
    (member : r ∈ e.runs) {i : Item} (inside : i ∈ r.items) :
    ∃ hit : Hit, i.file = hit.path r.cwd := by
  obtain ⟨o, -, since⟩ := exists_since reached member
  obtain ⟨origins, all, -, resolved⟩ := since.course.exists_origins
  rw [← all] at inside
  obtain ⟨x, here, rfl⟩ := List.mem_map.mp inside
  obtain ⟨y, -, resolves⟩ := resolved x here
  refine ⟨x.1, ?_⟩
  rw [since.course.kept.cwd]
  exact Hit.file_of_resolve resolves

/-- **A file that is shown is the file that was reported.**

Whatever file an indexer reports and wherever it ran, the path that is shown for the file, taken as
a report of its own, is of the same file.  So items of one run that are shown in one file are in
one file, whatever has happened to the engine. -/
theorem shown_path_faithful :
    (∀ (hit : Hit) (root : Path),
      ({ hit with file := (hit.path root).relativeTo root }.path root).Same (hit.path root)) ∧
    ∀ (host : Host) (config : Config) (actions : List Action) (e : Engine),
      (new host config).play? actions = some e →
        ∀ r ∈ e.runs, ∀ i ∈ r.items, ∀ j ∈ r.items,
          i.relativePath r.cwd = j.relativePath r.cwd → i.file.Same j.file := by
  constructor
  · intro hit root
    exact Path.same_join_relativeTo root ⟨hit.file⟩
  · intro host config actions e reached r member i hi j hj shown
    obtain ⟨hit, file⟩ := exists_path_of_mem_items reached member hi
    obtain ⟨hit', file'⟩ := exists_path_of_mem_items reached member hj
    rw [file, file']
    rw [Item.relativePath, Item.relativePath, file, file'] at shown
    have there := Path.same_join_relativeTo r.cwd ⟨hit.file⟩
    have there' := Path.same_join_relativeTo r.cwd ⟨hit'.file⟩
    unfold Hit.path at shown ⊢
    rw [shown] at there
    exact there.symm.trans there'

namespace Sample

/-! An indexer that reports two hits in one file, which it spells in two ways. -/

def respelled : Response :=
  ⟨[97, 32, 102, 32, 50, 32, 120, 10, 47, 46, 47, 47, 97, 32, 102, 32, 51, 32, 121, 10], [],
    some 0⟩

def respellingMachine : Host := { machine with program := fun _ files => (respelled, files) }

def readBoth : List Action :=
  .start question root ::
    [Run.Step.readLine, .readLine, .endOutput, .permit 0, .permit 1, .resolve 0, .resolve 1].map
      (.step 1)

end Sample

open Sample in
/-- A file that is reported relative to the root and one that is reported from there, with steps
that lead nowhere, are shown alike, and they are the same. -/
theorem shown_path_faithful_respelled :
    ∃ e r, (new respellingMachine settings).play? readBoth = some e ∧ r ∈ e.runs ∧
      ∃ i ∈ r.items, ∃ j ∈ r.items, i.file ≠ j.file ∧
        i.relativePath r.cwd = j.relativePath r.cwd ∧ i.file.Same j.file := by
  have ends : ((((new respellingMachine settings).play? readBoth).bind (·.run? 1)).filter
      (fun r => r.items.any (fun i => r.items.any (fun j =>
        decide (i.file ≠ j.file ∧ i.relativePath r.cwd = j.relativePath r.cwd))))).isSome := by
    decide +kernel
  obtain ⟨r, seen⟩ := Option.isSome_iff_exists.mp ends
  obtain ⟨found, alike⟩ := Option.filter_eq_some_iff.mp seen
  obtain ⟨e, plays, found⟩ := Option.bind_eq_some_iff.mp found
  have member : r ∈ e.runs := List.mem_of_find?_eq_some found
  simp only [List.any_eq_true, decide_eq_true_eq] at alike
  obtain ⟨i, hi, j, hj, respelled, shown⟩ := alike
  have same := shown_path_faithful.2 _ _ _ e plays r member i hi j hj shown
  exact ⟨e, r, plays, member, i, hi, j, hj, respelled, shown, same⟩

end Engine

end SymbolNav
