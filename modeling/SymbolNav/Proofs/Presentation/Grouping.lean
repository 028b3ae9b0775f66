/-
  SymbolNav/Proofs/Presentation/Grouping.lean
  ===========================================
  **The tree is the list of results, by file.**

  One more item goes to the group of its path or makes a new last one
  (`Grouped.add`).  So once all items are in, there is one group for each path that is
  shown, in the order in which the paths come up, and each group has the items of its
  path in their own order, whether or not they stood together
  (`groupsByFile_ofItems`).
-/
import SymbolNav.Presentation
import Mathlib.Data.List.Perm.Basic

namespace SymbolNav

/-! ### First places -/

/-- Each element of `l` once, in the order in which they first come up. -/
structure FirstSeen {α : Type} [DecidableEq α] (firsts l : List α) : Prop where
  mem : ∀ x, x ∈ firsts ↔ x ∈ l
  order : firsts.Pairwise (fun x y => l.idxOf x < l.idxOf y)

namespace FirstSeen

variable {α : Type} [DecidableEq α] {firsts l : List α} {x : α}

theorem nodup (h : FirstSeen firsts l) : firsts.Nodup :=
  h.order.imp (fun earlier same => absurd (same ▸ earlier) (Nat.lt_irrefl _))

theorem eq_nil_iff (h : FirstSeen firsts l) : firsts = [] ↔ l = [] := by
  rw [List.eq_nil_iff_forall_not_mem, List.eq_nil_iff_forall_not_mem]
  exact forall_congr' (fun x => not_congr (h.mem x))

/-- What comes later moves no first place. -/
theorem order_append (h : FirstSeen firsts l) (more : List α) :
    firsts.Pairwise (fun x y => (l ++ more).idxOf x < (l ++ more).idxOf y) := by
  refine h.order.imp_of_mem ?_
  intro x y hx hy earlier
  rw [List.idxOf_append_of_mem ((h.mem x).mp hx), List.idxOf_append_of_mem ((h.mem y).mp hy)]
  exact earlier

theorem again (h : FirstSeen firsts l) (known : x ∈ firsts) : FirstSeen firsts (l ++ [x]) where
  mem := by
    intro y
    rw [List.mem_append, List.mem_singleton, ← h.mem]
    constructor
    · exact .inl
    · rintro (old | rfl)
      · exact old
      · exact known
  order := h.order_append [x]

theorem fresh (h : FirstSeen firsts l) (new : x ∉ firsts) :
    FirstSeen (firsts ++ [x]) (l ++ [x]) where
  mem := by
    intro y
    rw [List.mem_append, List.mem_append, h.mem]
  order := by
    refine List.pairwise_append.mpr ⟨h.order_append [x], List.pairwise_singleton _ _, ?_⟩
    intro y hy z hz
    obtain rfl := List.mem_singleton.mp hz
    have old : y ∈ l := (h.mem y).mp hy
    rw [List.idxOf_append_of_mem old,
      List.idxOf_append_of_notMem (fun seen => new ((h.mem z).mpr seen))]
    exact Nat.lt_add_right _ (List.idxOf_lt_length_of_mem old)

end FirstSeen

namespace ResultTree

variable {root : Path} {items : List Item} {gs : List FileGroup} {g : FileGroup}

/-! ### One more leaf -/

/-- The leaves of the first group with this path. -/
def childrenOf (p : String) (gs : List FileGroup) : List Leaf :=
  match gs.find? (fun g => g.path = p) with
  | some g => g.children
  | none => []

/-- Only a path without a group gets a new one. -/
theorem map_path_add (path : String) (leaf : Leaf) (gs : List FileGroup) :
    (add path leaf gs).map (·.path) =
      if path ∈ gs.map (·.path) then gs.map (·.path) else gs.map (·.path) ++ [path] := by
  induction gs with
  | nil => rfl
  | cons g gs ih =>
    rw [add]
    by_cases own : g.path = path
    · simp [own]
    · have further : path ∈ (g :: gs).map (·.path) ↔ path ∈ gs.map (·.path) := by
        simp [Ne.symm own]
      rw [if_neg own, List.map_cons, ih]
      simp only [further]
      split <;> rfl

theorem childrenOf_add (path : String) (leaf : Leaf) (gs : List FileGroup) (p : String) :
    childrenOf p (add path leaf gs) =
      childrenOf p gs ++ if path = p then [leaf] else [] := by
  induction gs with
  | nil => by_cases own : path = p <;> simp [add, childrenOf, own]
  | cons g gs ih =>
    rw [add]
    by_cases here : g.path = path
    · rw [if_pos here]
      by_cases own : g.path = p
      · simp [childrenOf, own, here.symm.trans own]
      · have other : path ≠ p := here ▸ own
        simp [childrenOf, own, other]
    · rw [if_neg here]
      by_cases own : g.path = p
      · have other : path ≠ p := fun same => here (own.trans same.symm)
        simp [childrenOf, own, other]
      · simpa [childrenOf, own] using ih

theorem flatMap_children_add (path : String) (leaf : Leaf) (gs : List FileGroup) :
    ((add path leaf gs).flatMap (·.children)).Perm (gs.flatMap (·.children) ++ [leaf]) := by
  induction gs with
  | nil => exact .refl _
  | cons g gs ih =>
    rw [add]
    split
    · rw [List.flatMap_cons, List.flatMap_cons, List.append_assoc, List.append_assoc]
      exact List.perm_append_comm.append_left g.children
    · rw [List.flatMap_cons, List.flatMap_cons, List.append_assoc]
      exact ih.append_left g.children

/-! ### All leaves -/

/-- The groups are those of the items. -/
structure Grouped (root : Path) (items : List Item) (gs : List FileGroup) : Prop where
  paths : FirstSeen (gs.map (·.path)) (items.map (·.relativePath root))
  children : ∀ p, childrenOf p gs =
    (items.filter (fun i => i.relativePath root = p)).map Item.leaf
  leaves : (gs.flatMap (·.children)).Perm (items.map Item.leaf)

theorem grouped_nil (root : Path) : Grouped root [] [] where
  paths := ⟨fun _ => Iff.rfl, .nil⟩
  children := fun _ => rfl
  leaves := .refl _

theorem Grouped.add (h : Grouped root items gs) (i : Item) :
    Grouped root (items ++ [i]) (add (i.relativePath root) i.leaf gs) where
  paths := by
    rw [map_path_add, List.map_append, List.map_singleton]
    split
    case isTrue known => exact h.paths.again known
    case isFalse new => exact h.paths.fresh new
  children := by
    intro p
    rw [childrenOf_add, h.children, List.filter_append, List.map_append]
    by_cases own : i.relativePath root = p <;> simp [own]
  leaves := by
    rw [List.map_append]
    exact (flatMap_children_add _ _ gs).trans (h.leaves.append_right [i.leaf])

theorem Grouped.foldl (h : Grouped root items gs) (more : List Item) :
    Grouped root (items ++ more)
      (more.foldl (fun gs i => ResultTree.add (i.relativePath root) i.leaf gs) gs) := by
  induction more generalizing items gs with
  | nil => rwa [List.append_nil]
  | cons i more ih =>
    have next := ih (h.add i)
    rwa [List.append_assoc] at next

theorem grouped_ofItems (title : String) (items : List Item) (root : Path) :
    Grouped root items (ofItems title items root).files :=
  (grouped_nil root).foldl items

/-! ### The tree -/

theorem childrenOf_path (unique : (gs.map (·.path)).Nodup) (member : g ∈ gs) :
    childrenOf g.path gs = g.children := by
  induction gs with
  | nil => cases member
  | cons f gs ih =>
    obtain ⟨apart, unique⟩ := List.nodup_cons.mp unique
    rcases List.mem_cons.mp member with rfl | later
    · simp [childrenOf]
    · have other : f.path ≠ g.path := by
        intro same
        exact apart (List.mem_map.mpr ⟨g, later, same.symm⟩)
      have rest := ih unique later
      simpa [childrenOf, other] using rest

/-- Each group has the items of its path, in their own order. -/
theorem Grouped.children_eq (h : Grouped root items gs) (member : g ∈ gs) :
    g.children = (items.filter (fun i => i.relativePath root = g.path)).map Item.leaf := by
  rw [← childrenOf_path h.paths.nodup member, h.children]

theorem size_eq (t : ResultTree) : t.size = t.leaves.length := by
  have total : ∀ (gs : List FileGroup) (n : Nat),
      gs.foldl (fun n f => n + f.children.length) n =
        n + (gs.flatMap (·.children)).length := by
    intro gs
    induction gs with
    | nil => exact fun n => rfl
    | cons g gs ih =>
      intro n
      rw [List.foldl_cons, ih, List.flatMap_cons, List.length_append, Nat.add_assoc]
  rw [size, total, Nat.zero_add]
  rfl

/-- The tree is that of the items, by the files that are shown for them. -/
structure GroupsByFile (t : ResultTree) (items : List Item) (root : Path) : Prop where
  distinct : (t.files.map (·.path)).Nodup
  paths : FirstSeen (t.files.map (·.path)) (items.map (·.relativePath root))
  nonempty : ∀ g ∈ t.files, g.children ≠ []
  children : ∀ g ∈ t.files,
    g.children = (items.filter (fun i => i.relativePath root = g.path)).map Item.leaf
  leaves : t.leaves.Perm (items.map Item.leaf)
  shown : (Presentation.tree t).items.Perm items
  size : t.size = items.length
  isEmpty : t.isEmpty = true ↔ items = []

/-- **Grouping by file**: one group for each path that is shown, in the order in which the paths
come up, with all items of the path in their own order. -/
theorem groupsByFile_ofItems (title : String) (items : List Item) (root : Path) :
    (ofItems title items root).GroupsByFile items root := by
  have grouped := grouped_ofItems title items root
  generalize ofItems title items root = t at grouped ⊢
  have children : ∀ g ∈ t.files,
      g.children = (items.filter (fun i => i.relativePath root = g.path)).map Item.leaf :=
    fun g member => grouped.children_eq member
  constructor
  case distinct => exact grouped.paths.nodup
  case paths => exact grouped.paths
  case children => exact children
  case leaves => exact grouped.leaves
  case nonempty =>
    intro g member
    -- the group's path is that of some item
    have shown := (grouped.paths.mem g.path).mp (List.mem_map_of_mem member)
    obtain ⟨i, inside, own⟩ := List.mem_map.mp shown
    rw [children g member]
    apply List.ne_nil_of_mem (a := i.leaf)
    apply List.mem_map_of_mem
    simp [inside, own]
  case shown =>
    have back : (items.map Item.leaf).map (·.item) = items := by
      rw [List.map_map]
      exact List.map_id items
    have all := grouped.leaves.map (·.item)
    rwa [back] at all
  case size =>
    rw [size_eq, ← List.length_map Item.leaf]
    exact grouped.leaves.length_eq
  case isEmpty =>
    have none := grouped.paths.eq_nil_iff
    rw [List.map_eq_nil_iff, List.map_eq_nil_iff] at none
    rw [isEmpty, List.isEmpty_iff, none]

end ResultTree

end SymbolNav
