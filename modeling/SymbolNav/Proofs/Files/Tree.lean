/-
  SymbolNav/Proofs/Files/Tree.lean
  ================================
  **What changes of a tree leave alone.**

  A walk looks at directories only.  So it goes the same way in a tree that has all
  the directories of another (`walk_mono`), and where something is moved it cannot have
  come below a place that is no directory and then ended outside of it
  (`prefix_of_walk`): what such a move takes away or replaces lies off every path to
  the directory around it.
-/
import SymbolNav.FileTree
import SymbolNav.Proofs.Text.Cut
import Mathlib.Tactic.Common
import Mathlib.Data.List.TakeWhile

namespace SymbolNav.FileTree

variable {t t' : FileTree} {p q x y d : Place} {e : Entry}

/-! ### Entries -/

theorem entry?_root (t : FileTree) : t.entry? [] = some .directory :=
  if_pos rfl

theorem entry?_of_inner (t : FileTree) (inner : p ≠ []) :
    t.entry? p = (t.entries.find? (fun f => f.1 = p)).map (·.2) :=
  if_neg inner

theorem contains_of_read {path : Path} {content : List UInt8} (reads : t.read path = .ok content) :
    t.contains path = true := by
  unfold read at reads
  unfold contains
  split at reads
  · cases reads
  · cases reads
  · rename_i found
    rw [found]
    rfl

/-- Where some entries are dropped and the others given other places, the first entry at a place
is found again if no other comes to its new place. -/
theorem find?_relocated (keep : Place → Bool) (f : Place → Place) (kept : keep x = true)
    (moved : f x = y) (only : ∀ z, keep z = true → f z = y → z = x)
    (entries : List (Place × Entry)) :
    (((entries.filter (fun e => keep e.1)).map (fun e => (f e.1, e.2))).find?
      (fun e => e.1 = y)).map (·.2) = (entries.find? (fun e => e.1 = x)).map (·.2) := by
  induction entries with
  | nil => rfl
  | cons e entries ih =>
    by_cases same : e.1 = x
    · simp [same, kept, moved]
    · by_cases keeps : keep e.1 = true
      · have other : f e.1 ≠ y := fun comes => same (only e.1 keeps comes)
        simpa [keeps, other, same] using ih
      · simpa [keeps, same] using ih

theorem entry?_put_self (inner : p ≠ []) : entry? (t.put p e) p = some e := by
  have gone : (t.entries.filter (fun f => f.1 ≠ p)).find? (fun f => f.1 = p) = none := by
    apply List.find?_eq_none.mpr
    intro f member
    simpa using (List.mem_filter.mp member).2
  rw [entry?_of_inner _ inner, put, List.find?_append, gone]
  simp

theorem entry?_put_other (other : q ≠ p) : entry? (t.put p e) q = t.entry? q := by
  by_cases root : q = []
  · rw [root, entry?_root, entry?_root]
  · have kept := find?_relocated (fun z => decide (z ≠ p)) id (x := q)
      (by simpa using other) rfl (fun z _ same => same) t.entries
    have new : [(p, e)].find? (fun f => f.1 = q) = none := by simp [Ne.symm other]
    rw [entry?_of_inner _ root, entry?_of_inner _ root, put, List.find?_append, new, Option.or_none,
      ← kept]
    simp

theorem off_iff : (!y.isPrefixOf q) = true ↔ ¬y <+: q := by
  simp [← List.isPrefixOf_iff_prefix]

/-- The place at which something stands after a move. -/
def relocated (x y z : Place) : Place := if x.isPrefixOf z then y ++ z.drop x.length else z

theorem entries_move (t : FileTree) (x y : Place) :
    (t.move x y).entries = (t.entries.filter (fun f => !y.isPrefixOf f.1)).map
      (fun f => (relocated x y f.1, f.2)) := by
  simp only [move, erase]
  congr 1
  funext f
  unfold relocated
  split <;> rfl

theorem entry?_move_other (source : ¬x <+: q) (target : ¬y <+: q) :
    entry? (t.move x y) q = t.entry? q := by
  by_cases root : q = []
  · rw [root, entry?_root, entry?_root]
  · have stays : relocated x y q = q := if_neg (by simpa using source)
    have only : ∀ z, (!y.isPrefixOf z) = true → relocated x y z = q → z = q := by
      intro z _ comes
      unfold relocated at comes
      split at comes
      · exact absurd (comes ▸ List.prefix_append y _) target
      · exact comes
    rw [entry?_of_inner _ root, entry?_of_inner _ root, entries_move]
    exact find?_relocated (fun z => !y.isPrefixOf z) _ (off_iff.mpr target) stays only t.entries

theorem entry?_move_target (source : x ≠ []) (target : y ≠ []) (apart : ¬y <+: x) :
    entry? (t.move x y) y = t.entry? x := by
  have comes : relocated x y x = y := by simp [relocated]
  have only : ∀ z, (!y.isPrefixOf z) = true → relocated x y z = y → z = x := by
    intro z off comes
    have apart : ¬y <+: z := off_iff.mp off
    unfold relocated at comes
    split at comes
    case isTrue below =>
      obtain ⟨r, rfl⟩ := List.isPrefixOf_iff_prefix.mp below
      have : r = [] := by simpa using comes
      simp [this]
    case isFalse => exact absurd (comes ▸ List.prefix_refl z) apart
  rw [entry?_of_inner _ target, entry?_of_inner _ source, entries_move]
  exact find?_relocated (fun z => !y.isPrefixOf z) _ (off_iff.mpr apart) comes only t.entries

/-! ### Walks -/

theorem walk_append (t : FileTree) (p : Place) (ws vs : List Part) :
    t.walk p (ws ++ vs) = (t.walk p ws).bind (fun q => t.walk q vs) := by
  induction ws generalizing p with
  | nil => rfl
  | cons w ws ih =>
    rw [List.cons_append, walk, walk]
    split
    · rfl
    · rfl
    · exact ih (stepTo p w)

theorem walk_cons_eq_ok {w : Part} {ws : List Part} :
    t.walk p (w :: ws) = .ok d ↔
      t.entry? p = some .directory ∧ t.walk (stepTo p w) ws = .ok d := by
  rw [walk]
  split <;> simp_all

/-- A walk goes the same way where all its directories still are. -/
theorem walk_mono (directories : ∀ q, t.entry? q = some .directory → t'.entry? q = some .directory)
    {ws : List Part} (walks : t.walk p ws = .ok d) : t'.walk p ws = .ok d := by
  induction ws generalizing p with
  | nil => exact walks
  | cons w ws ih =>
    obtain ⟨here, rest⟩ := walk_cons_eq_ok.mp walks
    exact walk_cons_eq_ok.mpr ⟨directories p here, ih rest⟩

theorem prefix_stepTo (below : x <+: p) (inside : x ≠ p) (w : Part) : x <+: stepTo p w := by
  unfold stepTo
  split
  · exact below
  split
  · rcases List.eq_nil_or_concat p with rfl | ⟨r, c, rfl⟩
    · exact absurd (List.prefix_nil.mp below) inside
    · rw [List.concat_eq_append] at below inside ⊢
      rw [List.dropLast_concat]
      exact (List.prefix_concat_iff.mp below).resolve_left inside
  · exact below.trans (List.prefix_append p [w])

/-- A walk that starts below a place that is no directory ends below it. -/
theorem prefix_of_walk (noDirectory : t.entry? x ≠ some .directory) {ws : List Part}
    (walks : t.walk p ws = .ok d) (below : x <+: p) : x <+: d := by
  induction ws generalizing p with
  | nil => cases walks; exact below
  | cons w ws ih =>
    obtain ⟨here, rest⟩ := walk_cons_eq_ok.mp walks
    have inside : x ≠ p := by
      rintro rfl
      exact noDirectory here
    exact ih rest (prefix_stepTo below inside w)

/-- Moving what is no directory to where none is leaves the walks to other places. -/
theorem walk_move (source : t.entry? x ≠ some .directory) (target : t.entry? y ≠ some .directory)
    {ws : List Part} (walks : t.walk p ws = .ok d) (offSource : ¬x <+: d) (offTarget : ¬y <+: d) :
    (t.move x y).walk p ws = .ok d := by
  induction ws generalizing p with
  | nil => exact walks
  | cons w ws ih =>
    obtain ⟨here, rest⟩ := walk_cons_eq_ok.mp walks
    refine walk_cons_eq_ok.mpr ⟨?_, ih rest⟩
    rw [entry?_move_other, here]
    · exact fun below => offSource (prefix_of_walk source walks below)
    · exact fun below => offTarget (prefix_of_walk target walks below)

theorem find_eq_ok_iff {path : Path} : t.find path = .ok (p, e) ↔
    unusable? path = none ∧ t.walk (t.startOf path) path.parts = .ok p ∧ t.entry? p = some e := by
  constructor
  · intro found
    unfold find at found
    split at found
    case h_1 => cases found
    case h_2 usable =>
      split at found
      case h_1 => cases found
      case h_2 place walks =>
        split at found
        case h_1 => cases found
        case h_2 e standing =>
          cases found
          exact ⟨usable, walks, standing⟩
  · rintro ⟨usable, walks, standing⟩
    simp only [find, usable, walks, standing]

/-- Where all directories still are, a path leads where it led, to what is there now. -/
theorem find_mono {path : Path} {e' : Entry} (here : t'.here = t.here)
    (directories : ∀ q, t.entry? q = some .directory → t'.entry? q = some .directory)
    (found : t.find path = .ok (p, e)) (standing : t'.entry? p = some e') :
    t'.find path = .ok (p, e') := by
  obtain ⟨usable, walks, -⟩ := find_eq_ok_iff.mp found
  refine find_eq_ok_iff.mpr ⟨usable, ?_, standing⟩
  rw [startOf, here]
  exact walk_mono directories walks

/-! ### Paths that end in a name -/

/-- The path leads to the directory `d` and then names `w` in it. -/
structure Names (t : FileTree) (p : Path) (before : List Part) (w : Part) (d : Place) : Prop where
  usable : unusable? p = none
  parts : p.parts = before ++ [w]
  name : w ≠ [] ∧ w ≠ ['.'] ∧ w ≠ ['.', '.']
  walks : t.walk (t.startOf p) before = .ok d
  directory : t.entry? d = some .directory

section Names

variable {path : Path} {before : List Part} {w : Part}

theorem names_of_target {g : Target} (h : t.target path = .ok g) (isName : g.isName = true)
    (ends : g.closed = false) : ∃ before, Names t path before g.last g.directory := by
  unfold target at h
  split at h
  case h_1 => cases h
  case h_2 usable =>
    dsimp only at h
    split at h
    case h_1 => cases h; cases isName
    case h_2 last before back =>
      split at h
      case h_1 => cases h
      case h_2 directory walks =>
        split at h
        case h_1 => cases h
        case h_2 => cases h
        case h_3 isDirectory =>
          cases h
          have whole : path.parts.reverse = last :: before := by
            cases parts : path.parts.reverse with
            | nil => rw [parts] at back; cases back
            | cons v rest =>
              have filled : v ≠ [] := by
                rintro rfl
                simp [parts] at ends
              rwa [parts, List.dropWhile_cons_of_neg (by simpa using filled)] at back
          have name : last ≠ [] ∧ last ≠ ['.'] ∧ last ≠ ['.', '.'] := by
            refine ⟨?_, by simpa [Target.isName] using isName⟩
            rintro rfl
            simp [whole] at ends
          refine ⟨before.reverse, usable, ?_, name, walks, isDirectory⟩
          simpa using congrArg List.reverse whole

theorem Names.target (h : Names t path before w d) : t.target path = .ok ⟨d, w, false⟩ := by
  have back : path.parts.reverse = w :: before.reverse := by simp [h.parts]
  have filled : (w :: before.reverse).dropWhile (· = []) = w :: before.reverse :=
    List.dropWhile_cons_of_neg (by simpa using h.name.1)
  simp only [FileTree.target, h.usable, back, filled, List.head?_cons, List.reverse_reverse,
    h.walks, h.directory]
  simp [h.name.1]

theorem Names.find (h : Names t path before w d) (found : t.entry? (d ++ [w]) = some e) :
    t.find path = .ok (d ++ [w], e) := by
  have last : stepTo d w = d ++ [w] := by
    simp [stepTo, h.name.1, h.name.2.1, h.name.2.2]
  have walks : t.walk (t.startOf path) path.parts = .ok (d ++ [w]) := by
    rw [h.parts, walk_append, h.walks]
    exact walk_cons_eq_ok.mpr ⟨h.directory, by rw [last]; rfl⟩
  exact find_eq_ok_iff.mpr ⟨h.usable, walks, found⟩

theorem Names.mono (h : Names t path before w d) (here : t'.here = t.here)
    (directories : ∀ q, t.entry? q = some .directory → t'.entry? q = some .directory) :
    Names t' path before w d where
  usable := h.usable
  parts := h.parts
  name := h.name
  walks := by
    rw [startOf, here]
    exact walk_mono directories h.walks
  directory := directories d h.directory

/-- Where a file is put, all directories are still there. -/
theorem Names.put (h : Names t path before w d)
    (noDirectory : t.entry? (d ++ [w]) ≠ some .directory) (e : Entry) :
    Names (t.put (d ++ [w]) e) path before w d := by
  refine h.mono rfl ?_
  intro q directory
  have other : q ≠ d ++ [w] := by
    rintro rfl
    exact noDirectory directory
  rw [entry?_put_other other, directory]

theorem not_prefix_of_concat (d : Place) (w : Part) : ¬d ++ [w] <+: d := by
  intro below
  have longer := below.length_le
  simp only [List.length_append, List.length_singleton] at longer
  omega

/-- The way to a name stays where another file is moved to it from beside it. -/
theorem Names.move {v : Part} (h : Names t path before w d)
    (source : t.entry? (d ++ [v]) ≠ some .directory)
    (target : t.entry? (d ++ [w]) ≠ some .directory) :
    Names (t.move (d ++ [v]) (d ++ [w])) path before w d where
  usable := h.usable
  parts := h.parts
  name := h.name
  walks := walk_move source target h.walks (not_prefix_of_concat d v) (not_prefix_of_concat d w)
  directory := by
    rw [entry?_move_other (not_prefix_of_concat d v) (not_prefix_of_concat d w)]
    exact h.directory

/-! ### Writing and moving a file -/

theorem of_write {content : List UInt8} (h : t.write path content = .ok t') :
    ∃ before w d executable, Names t path before w d ∧ t.entry? (d ++ [w]) ≠ some .directory ∧
      t' = t.put (d ++ [w]) (.file content executable) := by
  unfold write at h
  split at h
  case h_1 => cases h
  case h_2 g named =>
    split at h
    case isTrue => cases h
    case isFalse opened =>
      simp only [Bool.or_eq_true, Bool.not_eq_true', not_or, Bool.not_eq_true,
        Bool.not_eq_false] at opened
      obtain ⟨before, names⟩ := names_of_target named opened.2 opened.1
      split at h
      case h_1 => cases h
      case h_2 c executable file =>
        cases h
        exact ⟨before, g.last, g.directory, executable, names, by
          rw [show g.directory ++ [g.last] = g.place from rfl, file]; simp, rfl⟩
      case h_3 absent =>
        cases h
        exact ⟨before, g.last, g.directory, false, names, by
          rw [show g.directory ++ [g.last] = g.place from rfl, absent]; simp, rfl⟩

theorem write_of_names (names : Names t path before w d)
    (free : t.entry? (d ++ [w]) ≠ some .directory) (content : List UInt8) :
    ∃ t', t.write path content = .ok t' := by
  have isName : Target.isName ⟨d, w, false⟩ = true := by
    simp [Target.isName, names.name.2.1, names.name.2.2]
  have place : (⟨d, w, false⟩ : Target).place = d ++ [w] := rfl
  simp only [write, names.target, isName, place]
  cases standing : t.entry? (d ++ [w]) with
  | none => exact ⟨_, rfl⟩
  | some e =>
    cases e with
    | directory => exact absurd standing free
    | file => exact ⟨_, rfl⟩

theorem rename_of_names {source : Path} {before' : List Part} {w' : Part} {d' : Place}
    {content : List UInt8} {executable : Bool} (names : Names t source before w d)
    (file : t.entry? (d ++ [w]) = some (.file content executable))
    (names' : Names t path before' w' d') (free : t.entry? (d' ++ [w']) ≠ some .directory) :
    ∃ t', t.rename source path = .ok t' := by
  have isName : Target.isName ⟨d, w, false⟩ = true := by
    simp [Target.isName, names.name.2.1, names.name.2.2]
  have isName' : Target.isName ⟨d', w', false⟩ = true := by
    simp [Target.isName, names'.name.2.1, names'.name.2.2]
  have place : (⟨d, w, false⟩ : Target).place = d ++ [w] := rfl
  have place' : (⟨d', w', false⟩ : Target).place = d' ++ [w'] := rfl
  simp only [rename, names.target, names'.target, bind, Except.bind, isName, isName', place,
    place', file]
  by_cases same : d ++ [w] = d' ++ [w']
  · exact ⟨t, if_pos same⟩
  · exact ⟨_, (if_neg same).trans (if_neg free)⟩

theorem of_rename {source : Path} {content : List UInt8} {executable : Bool}
    (h : t.rename source path = .ok t') (names : Names t source before w d)
    (file : t.entry? (d ++ [w]) = some (.file content executable)) :
    ∃ before' w' d', Names t path before' w' d' ∧ (d ++ [w] = d' ++ [w'] ∧ t' = t ∨
      d ++ [w] ≠ d' ++ [w'] ∧ t.entry? (d' ++ [w']) ≠ some .directory ∧
        t' = t.move (d ++ [w]) (d' ++ [w'])) := by
  have place : (⟨d, w, false⟩ : Target).place = d ++ [w] := rfl
  simp only [rename, names.target, bind, Except.bind] at h
  split at h
  case h_1 => cases h
  case h_2 g named =>
    split at h
    case isTrue => cases h
    case isFalse isName =>
      simp only [Bool.or_eq_true, Bool.not_eq_true', not_or, Bool.not_eq_false] at isName
      rw [place, file] at h
      dsimp only at h
      split at h
      case isTrue => cases h
      case isFalse opened =>
        obtain ⟨before', names'⟩ := names_of_target named isName.2 (by simpa using opened)
        refine ⟨before', g.last, g.directory, names', ?_⟩
        split at h
        case isTrue same => cases h; exact .inl ⟨same, rfl⟩
        case isFalse other =>
          split at h
          case isTrue => cases h
          case isFalse noDirectory => cases h; exact .inr ⟨other, noDirectory, rfl⟩

end Names

/-! ### Making directories -/

theorem eq_of_walk_empty {ws : List Part} (empty : ∀ w ∈ ws, w = [])
    (walks : t.walk p ws = .ok d) : d = p := by
  induction ws generalizing p with
  | nil => cases walks; rfl
  | cons w ws ih =>
    obtain ⟨rfl, others⟩ := List.forall_mem_cons.mp empty
    exact ih others (walk_cons_eq_ok.mp walks).2

theorem stepTo_of_isName {g : Target} (isName : g.isName = true) (filled : g.last ≠ []) (d : Place) :
    stepTo d g.last = d ++ [g.last] := by
  have name : g.last ≠ ['.'] ∧ g.last ≠ ['.', '.'] := by simpa [Target.isName] using isName
  simp [stepTo, filled, name.1, name.2]

/-- There is nothing to be made where a directory is. -/
theorem makeDirectory_of_find {path : Path} (found : t.find path = .ok (p, .directory)) :
    t.makeDirectory path = .error .alreadyExists := by
  obtain ⟨usable, walks, standing⟩ := find_eq_ok_iff.mp found
  unfold makeDirectory target
  simp only [usable]
  cases back : path.parts.reverse.dropWhile (· = []) with
  | nil => rfl
  | cons last before =>
    obtain ⟨filled, rest, empty, whole⟩ := Text.exists_of_dropWhile_reverse back
    have filled : last ≠ [] := by simpa using filled
    have empty : ∀ w ∈ rest, w = [] := by simpa using empty
    rw [whole, walk_append] at walks
    cases way : t.walk (t.startOf path) before.reverse with
    | error fault => rw [way] at walks; cases walks
    | ok q =>
      rw [way] at walks
      obtain ⟨directory, walks⟩ := walk_cons_eq_ok.mp walks
      have ends : p = stepTo q last := eq_of_walk_empty empty walks
      simp only [way, directory]
      refine if_pos (or_iff_not_imp_left.mpr fun isName => ?_)
      have place := stepTo_of_isName (g := ⟨q, last, _⟩) (by simpa using isName) filled q
      show (t.entry? (q ++ [last])).isSome = true
      rw [← place, ← ends, standing]
      rfl

theorem isDirectory_iff {path : Path} :
    t.isDirectory path = true ↔ ∃ place, t.find path = .ok (place, .directory) := by
  unfold isDirectory
  split
  case h_1 place found => exact iff_of_true rfl ⟨place, found⟩
  case h_2 other => exact iff_of_false Bool.false_ne_true fun ⟨place, found⟩ => other place found

theorem makeDirectoriesIn_of_isDirectory {path : Path} (h : t.isDirectory path = true)
    (fuel : Nat) : makeDirectoriesIn fuel t path = (t, none) := by
  obtain ⟨place, found⟩ := isDirectory_iff.mp h
  have made : t.makeDirectory path = .error .alreadyExists := makeDirectory_of_find found
  unfold makeDirectoriesIn
  simp [made, h]

theorem makeDirectories_of_isDirectory {path : Path} (h : t.isDirectory path = true) :
    t.makeDirectories path = (t, none) :=
  makeDirectoriesIn_of_isDirectory h _

end SymbolNav.FileTree
