/-
  SymbolNav/Proofs/Files/Making.lean
  ==================================
  **Making directories adds directories on the way, and nothing else.**

  A path leads to a place whether anything stands there or not (`FileTree.place`).
  Making a directory and those above it fills the places of the path and of the paths
  above it where nothing is, one by one, and may stop anywhere (`Grown`).

  In a tree in which everything stands in a directory (`Rooted`), nothing is below a
  file.  So a file that is moved takes nothing with it, and nothing is lost below the
  place that it takes (`Rooted.entry?_move`).
-/
import SymbolNav.Proofs.Files.Tree
import Mathlib.Data.List.Induction

namespace SymbolNav

/-- A path that is reached by going up, once or more often. -/
inductive Path.Ancestor : Path → Path → Prop
  | parent {a p : Path} (above : p.parent? = some a) : Ancestor a p
  | further {a b p : Path} (above : p.parent? = some b) (up : Ancestor a b) : Ancestor a p

namespace FileTree

variable {t t' t'' : FileTree} {x y d : Place} {e : Entry} {path : Path}

/-! ### Trees in which everything stands in a directory -/

def Rooted (t : FileTree) : Prop :=
  ∀ d w, t.entry? (d ++ [w]) ≠ none → t.entry? d = some .directory

theorem entry?_ne_none_iff (inner : x ≠ []) : t.entry? x ≠ none ↔ ∃ f ∈ t.entries, f.1 = x := by
  rw [entry?_of_inner t inner, ne_eq, Option.map_eq_none_iff, List.find?_eq_none]
  simp

theorem rooted_of_entries (h : ∀ f ∈ t.entries, t.entry? f.1.dropLast = some .directory) :
    t.Rooted := by
  intro d w there
  obtain ⟨f, listed, same⟩ := (entry?_ne_none_iff (by simp)).mp there
  have above := h f listed
  rwa [same, List.dropLast_concat] at above

theorem Rooted.above (rooted : t.Rooted) {q : Place} (below : x <+: q) (inside : x ≠ q)
    (there : t.entry? q ≠ none) : t.entry? x = some .directory := by
  induction q using List.reverseRecOn with
  | nil => exact absurd (List.prefix_nil.mp below) inside
  | append_singleton q w ih =>
    have directory := rooted q w there
    have closer : x <+: q := (List.prefix_concat_iff.mp below).resolve_left inside
    by_cases here : x = q
    · rw [here]
      exact directory
    · exact ih closer here (by simp [directory])

/-- Nothing is below a place that is no directory. -/
theorem Rooted.entry?_below (rooted : t.Rooted) (noDirectory : t.entry? x ≠ some .directory)
    {q : Place} (below : x <+: q) (inside : x ≠ q) : t.entry? q = none := by
  by_contra there
  exact noDirectory (rooted.above below inside there)

theorem Rooted.put (rooted : t.Rooted) {w : Part} (directory : t.entry? d = some .directory)
    (noDirectory : t.entry? (d ++ [w]) ≠ some .directory) : (t.put (d ++ [w]) e).Rooted := by
  have kept {q : Place} (there : t.entry? q = some .directory) :
      entry? (t.put (d ++ [w]) e) q = some .directory := by
    have other : q ≠ d ++ [w] := by
      rintro rfl
      exact noDirectory there
    rw [entry?_put_other other, there]
  intro d' w' there
  by_cases here : d' ++ [w'] = d ++ [w]
  · obtain ⟨rfl, -⟩ := List.append_inj' here rfl
    exact kept directory
  · rw [entry?_put_other here] at there
    exact kept (rooted d' w' there)

/-- **Only the file is moved.** -/
theorem Rooted.entry?_move (rooted : t.Rooted) {content : List UInt8} {executable : Bool}
    (file : t.entry? x = some (.file content executable))
    (free : t.entry? y ≠ some .directory) (other : x ≠ y) (q : Place) :
    entry? (t.move x y) q = if q = y then t.entry? x else if q = x then none else t.entry? q := by
  have noDirectory : t.entry? x ≠ some .directory := by simp [file]
  have source : x ≠ [] := by
    rintro rfl
    exact noDirectory (entry?_root t)
  have target : y ≠ [] := by
    rintro rfl
    exact free (entry?_root t)
  have apart : ¬y <+: x := by
    intro below
    exact free (rooted.above below (Ne.symm other) (by simp [file]))
  -- whatever is found after the move is at `y` or stood below neither place before
  have gone (q : Place) (elsewhere : q ≠ y) (below : x <+: q ∨ y <+: q) :
      entry? (t.move x y) q = none := by
    have inner : q ≠ [] := by
      rintro rfl
      rcases below with below | below
      · exact source (List.prefix_nil.mp below)
      · exact target (List.prefix_nil.mp below)
    rw [entry?_of_inner _ inner, entries_move, Option.map_eq_none_iff, List.find?_eq_none]
    intro f member comes
    obtain ⟨f, kept, rfl⟩ := List.mem_map.mp member
    obtain ⟨listed, kept⟩ := List.mem_filter.mp kept
    have off : ¬y <+: f.1 := off_iff.mp kept
    have comes : relocated x y f.1 = q := by simpa using comes
    unfold relocated at comes
    split at comes
    case isTrue inside =>
      have inside : x <+: f.1 := List.isPrefixOf_iff_prefix.mp inside
      have there : t.entry? f.1 ≠ none := by
        by_cases root : f.1 = []
        · rw [root, entry?_root]
          simp
        · exact (entry?_ne_none_iff root).mpr ⟨f, listed, rfl⟩
      have same : x = f.1 := by
        by_contra apart
        exact noDirectory (rooted.above inside apart there)
      rw [same, List.drop_length, List.append_nil] at comes
      exact elsewhere comes.symm
    case isFalse outside =>
      rcases below with below | below
      · exact outside (List.isPrefixOf_iff_prefix.mpr (comes ▸ below))
      · exact off (comes ▸ below)
  by_cases arrived : q = y
  · rw [if_pos arrived, arrived, entry?_move_target source target apart]
  · rw [if_neg arrived]
    by_cases left : q = x
    · rw [if_pos left]
      exact gone q arrived (.inl (left ▸ List.prefix_refl x))
    · rw [if_neg left]
      by_cases below : x <+: q ∨ y <+: q
      · rw [gone q arrived below]
        rcases below with below | below
        · exact (rooted.entry?_below noDirectory below (Ne.symm left)).symm
        · exact (rooted.entry?_below free below (Ne.symm arrived)).symm
      · obtain ⟨offSource, offTarget⟩ := not_or.mp below
        exact entry?_move_other offSource offTarget

theorem Rooted.move (rooted : t.Rooted) {content : List UInt8} {executable : Bool} {w : Part}
    (file : t.entry? x = some (.file content executable))
    (directory : t.entry? d = some .directory) (free : t.entry? (d ++ [w]) ≠ some .directory)
    (other : x ≠ d ++ [w]) : (t.move x (d ++ [w])).Rooted := by
  have kept {q : Place} (there : t.entry? q = some .directory) :
      entry? (t.move x (d ++ [w])) q = some .directory := by
    have away : q ≠ d ++ [w] := by
      rintro rfl
      exact free there
    have unlike : q ≠ x := by
      rintro rfl
      rw [file] at there
      cases there
    rw [rooted.entry?_move file free other, if_neg away, if_neg unlike, there]
  intro d' w' there
  by_cases arrived : d' ++ [w'] = d ++ [w]
  · obtain ⟨rfl, -⟩ := List.append_inj' arrived rfl
    exact kept directory
  · rw [rooted.entry?_move file free other, if_neg arrived] at there
    split at there
    · exact absurd rfl there
    · exact kept (rooted d' w' there)

/-! ### Where a path leads -/

/-- The place that a path leads to, whether anything stands there or not. -/
def place (t : FileTree) (p : Path) : Place := p.parts.foldl stepTo (t.startOf p)

theorem place_of_here (same : t'.here = t.here) (p : Path) : t'.place p = t.place p := by
  rw [place, place, startOf, startOf, same]

theorem eq_foldl_of_walk {ws : List Part} (walks : t.walk x ws = .ok d) :
    d = ws.foldl stepTo x := by
  induction ws generalizing x with
  | nil =>
    cases walks
    rfl
  | cons w ws ih => exact ih (walk_cons_eq_ok.mp walks).2

theorem foldl_stepTo_empty {ws : List Part} (empty : ∀ w ∈ ws, w = []) (d : Place) :
    ws.foldl stepTo d = d := by
  induction ws with
  | nil => rfl
  | cons w ws ih =>
    obtain ⟨rfl, others⟩ := List.forall_mem_cons.mp empty
    exact ih others

theorem place_of_find (found : t.find path = .ok (d, e)) : t.place path = d := by
  obtain ⟨-, walks, -⟩ := find_eq_ok_iff.mp found
  exact (eq_foldl_of_walk walks).symm

theorem Names.place_eq {before : List Part} {w : Part} (names : Names t path before w d) :
    t.place path = d ++ [w] := by
  rw [place, names.parts, List.foldl_append, ← eq_foldl_of_walk names.walks]
  simp [stepTo, names.name.1, names.name.2.1, names.name.2.2]

/-- Where nothing stands at its place, a path names nothing. -/
theorem contains_eq_false (free : t.entry? (t.place path) = none) : t.contains path = false := by
  unfold contains
  cases found : t.find path with
  | error fault => rfl
  | ok standing =>
    obtain ⟨q, e⟩ := standing
    rw [place_of_find found, (find_eq_ok_iff.mp found).2.2] at free
    cases free

/-! ### Making directories -/

theorem of_makeDirectory (h : t.makeDirectory path = .ok t') :
    ∃ d w, t.place path = d ++ [w] ∧ t.entry? d = some .directory ∧
      t.entry? (d ++ [w]) = none ∧ t' = t.put (d ++ [w]) .directory := by
  unfold makeDirectory at h
  split at h
  case h_1 => cases h
  case h_2 g named =>
    split at h
    case isTrue => cases h
    case isFalse free =>
      cases h
      simp only [Bool.not_eq_true', not_or, Bool.not_eq_false, Bool.not_eq_true,
        Option.isSome_eq_false_iff, Option.isNone_iff_eq_none] at free
      obtain ⟨isName, free⟩ := free
      unfold target at named
      split at named
      case h_1 => cases named
      case h_2 usable =>
        dsimp only at named
        split at named
        case h_1 =>
          cases named
          cases isName
        case h_2 last before back =>
          split at named
          case h_1 => cases named
          case h_2 d walks =>
            split at named
            case h_1 => cases named
            case h_2 => cases named
            case h_3 directory =>
              cases named
              obtain ⟨filled, rest, empty, whole⟩ := Text.exists_of_dropWhile_reverse back
              have filled : last ≠ [] := by simpa using filled
              have empty : ∀ w ∈ rest, w = [] := by simpa using empty
              refine ⟨d, last, ?_, directory, free, rfl⟩
              rw [place, whole, List.foldl_append, ← eq_foldl_of_walk walks, List.foldl_cons,
                foldl_stepTo_empty empty]
              exact stepTo_of_isName isName filled d

/-- Directories have been made in a tree, at some of these places. -/
structure Grown (t t' : FileTree) (places : Place → Prop) : Prop where
  here : t'.here = t.here
  entries : ∀ q, t'.entry? q = t.entry? q ∨
    t.entry? q = none ∧ t'.entry? q = some .directory ∧ places q
  rooted : t.Rooted → t'.Rooted

section Grown

variable {places more : Place → Prop}

theorem Grown.refl (t : FileTree) : Grown t t places := ⟨rfl, fun _ => .inl rfl, id⟩

theorem Grown.mono (h : Grown t t' places) (wider : ∀ q, places q → more q) :
    Grown t t' more where
  here := h.here
  entries := by
    intro q
    refine (h.entries q).imp_right ?_
    rintro ⟨free, made, among⟩
    exact ⟨free, made, wider q among⟩
  rooted := h.rooted

theorem Grown.trans (h : Grown t t' places) (h' : Grown t' t'' places) : Grown t t'' places where
  here := h'.here.trans h.here
  entries := by
    intro q
    rcases h.entries q with same | ⟨free, made, among⟩
    · rw [← same]
      exact h'.entries q
    · refine .inr ⟨free, ?_, among⟩
      rcases h'.entries q with same | ⟨free', -, -⟩
      · rw [same, made]
      · rw [made] at free'
        cases free'
  rooted := h'.rooted ∘ h.rooted

/-- Directories stay. -/
theorem Grown.directory (h : Grown t t' places) (there : t.entry? d = some .directory) :
    t'.entry? d = some .directory := by
  rcases h.entries d with same | ⟨free, made, -⟩
  · rw [same, there]
  · exact made

theorem grown_makeDirectory (h : t.makeDirectory path = .ok t') :
    Grown t t' (· = t.place path) := by
  obtain ⟨d, w, leads, directory, free, rfl⟩ := of_makeDirectory h
  refine ⟨rfl, fun q => ?_, fun rooted => rooted.put directory (by simp [free])⟩
  by_cases here : q = d ++ [w]
  · subst here
    exact .inr ⟨free, entry?_put_self (by simp), leads.symm⟩
  · exact .inl (entry?_put_other here)

theorem grown_ensureLast (h : t.ensureLast path = .ok t') : Grown t t' (· = t.place path) := by
  unfold ensureLast at h
  split at h
  case h_1 made =>
    cases h
    exact grown_makeDirectory made
  case h_2 =>
    split at h
    case isTrue =>
      cases h
      exact .refl t
    case isFalse => cases h

/-- The place of a path, and those of the paths above it. -/
def OnTheWay (t : FileTree) (p : Path) (q : Place) : Prop :=
  q = t.place p ∨ ∃ a, a.Ancestor p ∧ q = t.place a

theorem grown_makeDirectoriesIn (fuel : Nat) (t : FileTree) (p : Path) :
    Grown t (makeDirectoriesIn fuel t p).1 (t.OnTheWay p) := by
  induction fuel generalizing t p with
  | zero =>
    unfold makeDirectoriesIn
    split
    · exact .refl t
    split
    case h_1 made => exact (grown_makeDirectory made).mono fun q here => .inl here
    case h_2 => exact .refl t
    case h_3 => split <;> exact .refl t
  | succ fuel ih =>
    unfold makeDirectoriesIn
    split
    · exact .refl t
    split
    case h_1 made => exact (grown_makeDirectory made).mono fun q here => .inl here
    case h_3 => split <;> exact .refl t
    case h_2 =>
      split
      case h_2 => exact .refl t
      case h_1 fuel' above same up =>
        cases same
        have upper : Grown t (makeDirectoriesIn fuel t above).1 (t.OnTheWay p) := by
          refine (ih t above).mono ?_
          rintro q (here | ⟨a, further, here⟩)
          · exact .inr ⟨above, .parent up, here⟩
          · exact .inr ⟨a, .further up further, here⟩
        split
        case h_1 fault result => exact result ▸ upper
        case h_2 t₁ result =>
          rw [result] at upper
          split
          case h_1 t₂ made =>
            refine upper.trans ((grown_ensureLast made).mono fun q here => .inl ?_)
            rw [here, place_of_here upper.here]
          case h_2 => exact upper

theorem grown_makeDirectories (t : FileTree) (p : Path) :
    Grown t (t.makeDirectories p).1 (t.OnTheWay p) :=
  grown_makeDirectoriesIn p.parts.length t p

end Grown

end FileTree

end SymbolNav
