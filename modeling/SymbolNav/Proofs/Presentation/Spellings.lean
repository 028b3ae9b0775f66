/-
  SymbolNav/Proofs/Presentation/Spellings.lean
  ============================================
  **Which items of one file share a group of the tree.**

  A group is kept for each path that is shown, not for each file.  Every item is in one
  group (`ResultTree.Grouped.existsUnique`), and two items of one file are in the same
  one if and only if the spellings of their file agree as far as they are shown
  (`ResultTree.one_group_iff_spelled_alike`).  A doubled separator or a dot within what
  is shown makes another group for the same file (`ResultTree.two_groups_of_one_file`).
-/
import SymbolNav.Proofs.Path.Spelling
import SymbolNav.Proofs.Presentation.Grouping
import Mathlib.Data.List.Nodup

namespace SymbolNav

namespace ResultTree

variable {root : Path} {items : List Item} {gs : List FileGroup} {g : FileGroup} {i j : Item}

theorem leaf_injective : Function.Injective Item.leaf :=
  fun _ _ same => congrArg Leaf.item same

/-- An item is below the path that is shown for its file. -/
theorem Grouped.leaf_mem_iff (h : Grouped root items gs) (member : g ∈ gs) :
    i.leaf ∈ g.children ↔ i ∈ items ∧ i.relativePath root = g.path := by
  rw [h.children_eq member, List.mem_map_of_injective leaf_injective, List.mem_filter,
    decide_eq_true_iff]

theorem Grouped.exists_group (h : Grouped root items gs) (inside : i ∈ items) :
    ∃ g ∈ gs, g.path = i.relativePath root :=
  List.mem_map.mp ((h.paths.mem _).mpr (List.mem_map_of_mem inside))

/-- Every item is in one group. -/
theorem Grouped.existsUnique (h : Grouped root items gs) (inside : i ∈ items) :
    ∃! g, g ∈ gs ∧ i.leaf ∈ g.children := by
  obtain ⟨g, member, path⟩ := h.exists_group inside
  refine ⟨g, ⟨member, (h.leaf_mem_iff member).mpr ⟨inside, path.symm⟩⟩, ?_⟩
  rintro g' ⟨member', leaf⟩
  have path' := ((h.leaf_mem_iff member').mp leaf).2
  exact List.inj_on_of_nodup_map h.paths.nodup member' member (path'.symm.trans path.symm)

/-- Two items share a group if the same path is shown for them. -/
theorem Grouped.share_iff (h : Grouped root items gs) (inside : i ∈ items) (inside' : j ∈ items) :
    (∃ g ∈ gs, i.leaf ∈ g.children ∧ j.leaf ∈ g.children) ↔
      i.relativePath root = j.relativePath root := by
  constructor
  · rintro ⟨g, member, leaf, leaf'⟩
    exact ((h.leaf_mem_iff member).mp leaf).2.trans ((h.leaf_mem_iff member).mp leaf').2.symm
  · intro shown
    obtain ⟨g, member, path⟩ := h.exists_group inside
    exact ⟨g, member, (h.leaf_mem_iff member).mpr ⟨inside, path.symm⟩,
      (h.leaf_mem_iff member).mpr ⟨inside', (path.trans shown).symm⟩⟩

/-- **One file, one group for each spelling that is shown.**

Each of two items of the same file is in one group of the tree, and they are in the same one if and
only if the spellings of their file agree as far as they are shown from the root. -/
theorem one_group_iff_spelled_alike (title : String) (items : List Item) (root : Path) {i j : Item}
    (inside : i ∈ items) (inside' : j ∈ items) (same : i.file.Same j.file) :
    let groups := (ofItems title items root).files
    (∃! g, g ∈ groups ∧ i.leaf ∈ g.children) ∧ (∃! g, g ∈ groups ∧ j.leaf ∈ g.children) ∧
      ((∃ g ∈ groups, i.leaf ∈ g.children ∧ j.leaf ∈ g.children) ↔
        Path.SpelledAlike root i.file j.file) := by
  intro groups
  have grouped : Grouped root items groups := grouped_ofItems title items root
  refine ⟨grouped.existsUnique inside, grouped.existsUnique inside', ?_⟩
  rw [grouped.share_iff inside inside']
  exact Path.relativeTo_eq_iff same

namespace Sample

def itemIn (file : String) : Item := ⟨⟨file⟩, "f", 0, 4, 1, "int f;", "int f;"⟩

/-- Two items of one file, which is spelled differently only where it is not shown. -/
def respelledAround : List Item := [itemIn "/./p//src/a.c", itemIn "/p/src/a.c/."]

/-- Two items of one file, which is spelled differently where it is shown. -/
def respelledWithin : List Item := [itemIn "/p/src//a.c", itemIn "/p/src/a.c"]

end Sample

open Sample in
theorem one_group_iff_spelled_alike_around :
    Path.SpelledAlike ⟨"/p/"⟩ ⟨"/./p//src/a.c"⟩ ⟨"/p/src/a.c/."⟩ := by
  have alike := one_group_iff_spelled_alike "f" respelledAround ⟨"/p/"⟩
    (i := itemIn "/./p//src/a.c") (j := itemIn "/p/src/a.c/.") (by decide) (by decide) (by decide)
  refine alike.2.2.mp ?_
  decide +kernel

open Sample in
/-- A doubled separator within what is shown makes a second group for the same file. -/
theorem two_groups_of_one_file :
    let groups := (ofItems "f" respelledWithin ⟨"/p"⟩).files
    groups.map (·.path) = ["src//a.c", "src/a.c"] ∧
      ∃ i ∈ respelledWithin, ∃ j ∈ respelledWithin, i.file.Same j.file ∧
        ¬∃ g ∈ groups, i.leaf ∈ g.children ∧ j.leaf ∈ g.children := by
  decide +kernel

end ResultTree

end SymbolNav
