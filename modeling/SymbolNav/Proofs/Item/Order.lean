/-
  SymbolNav/Proofs/Item/Order.lean
  ================================
  **The order of items is the order of their places, and nothing else.**

  `Item.UpTo` tells the order of places in words: the files step by step, then
  the lines, then the columns.  `Item.sort` gives the one list that has the items
  in that order and leaves those at one place as they came (`sorts_sort`,
  `Sorts.unique`).

  So the order in which the items came can be seen in the sorted list only where
  two different items are at one place; and there it can be seen
  (`sort_eq_iff_apart`).
-/
import Mathlib.Data.List.Basic
import SymbolNav.Item

namespace SymbolNav

/-! ### Components and paths -/

theorem Component.key_injective : Function.Injective Component.key := by
  intro c d same
  cases c with
  | name s =>
    cases d with
    | name t =>
      have codes : s.toList.map Char.toNat = t.toList.map Char.toNat := by
        simpa [Component.key] using same
      have chars : s.toList = t.toList := by
        apply List.map_injective_iff.mpr _ codes
        intro x y code
        exact Char.toNat_inj.mp code
      rw [String.toList_inj.mp chars]
    | root | current | parent => simp [Component.key] at same
  | root | current | parent => cases d <;> simp [Component.key] at same ⊢

theorem Path.key_eq_iff {p q : Path} : p.key = q.key ↔ p.Same q :=
  (List.map_injective_iff.mpr Component.key_injective).eq_iff

theorem compareLex_eq_lt_iff {α : Type} {cmp : α → α → Ordering} [Std.LawfulEqCmp cmp]
    {l m : List α} :
    List.compareLex cmp l m = .lt ↔ List.Lex (fun a b => cmp a b = .lt) l m := by
  induction l generalizing m with
  | nil =>
    cases m with
    | nil => simp [List.compareLex]
    | cons b m => exact ⟨fun _ => .nil, fun _ => rfl⟩
  | cons a l ih =>
    cases m with
    | nil => simp [List.compareLex]
    | cons b m =>
      rw [List.compareLex_cons_cons, List.cons_lex_cons_iff, Ordering.then_eq_lt, ih]
      rw [Std.LawfulEqCmp.compare_eq_iff_eq]

theorem Path.compare_key_eq_lt_iff {p q : Path} :
    compare p.key q.key = .lt ↔ p.key < q.key := by
  have step (a b : List Nat) : compare a b = .lt ↔ a < b := by
    rw [List.compare_eq_compareLex, compareLex_eq_lt_iff]
    simp only [Nat.compare_eq_lt]
    rfl
  rw [List.compare_eq_compareLex, compareLex_eq_lt_iff]
  simp only [step]
  rfl

namespace Item

/-! ### Places -/

/-- The items are at one place. -/
def Ties (i j : Item) : Prop := i.file.Same j.file ∧ i.line = j.line ∧ i.column = j.column

instance (i j : Item) : Decidable (Ties i j) := inferInstanceAs (Decidable (_ ∧ _))

/-- The place of `i` comes before that of `j`, or is the same. -/
def UpTo (i j : Item) : Prop :=
  i.file.key < j.file.key ∨
    i.file.Same j.file ∧ (i.line < j.line ∨ i.line = j.line ∧ i.column ≤ j.column)

/-- How the place of an item compares with that of another. -/
def comparePlaces : Item → Item → Ordering :=
  compareLex (compareOn fun k => k.file.key) (compareLex (compareOn line) (compareOn column))

instance : Std.TransCmp comparePlaces :=
  inferInstanceAs (Std.TransCmp (compareLex _ (compareLex _ _)))

theorem notAfter_eq (i j : Item) : i.notAfter j = (comparePlaces i j).isLE := by
  unfold notAfter comparePlaces
  generalize compareLex _ _ i j = o
  cases o <;> rfl

theorem comparePlaces_eq_eq_iff {i j : Item} : comparePlaces i j = .eq ↔ i.Ties j := by
  unfold comparePlaces Ties
  rw [compareLex_eq_eq, compareLex_eq_eq]
  unfold compareOn
  rw [Std.LawfulEqOrd.compare_eq_iff_eq, Path.key_eq_iff, Nat.compare_eq_eq, Nat.compare_eq_eq]

theorem isLE_comparePlaces {i j : Item} : (comparePlaces i j).isLE ↔ i.UpTo j := by
  unfold comparePlaces UpTo compareLex compareOn
  rw [Ordering.isLE_then_iff_or, Ordering.isLE_then_iff_or, Path.compare_key_eq_lt_iff,
    Std.LawfulEqOrd.compare_eq_iff_eq, Path.key_eq_iff]
  rw [Nat.compare_eq_lt, Nat.compare_eq_eq, Nat.isLE_compare]

theorem notAfter_trans (i j k : Item) (first : i.notAfter j = true) (second : j.notAfter k = true) :
    i.notAfter k = true := by
  rw [notAfter_eq] at *
  exact Std.TransCmp.isLE_trans first second

theorem notAfter_total (i j : Item) : (i.notAfter j || j.notAfter i) = true := by
  have swapped : comparePlaces i j = (comparePlaces j i).swap := Std.OrientedCmp.eq_swap
  rw [notAfter_eq, notAfter_eq, swapped]
  cases comparePlaces j i <;> rfl

theorem ties_iff {i j : Item} : i.Ties j ↔ i.UpTo j ∧ j.UpTo i := by
  rw [← comparePlaces_eq_eq_iff, ← isLE_comparePlaces, ← isLE_comparePlaces]
  constructor
  · intro same
    rw [same, Std.OrientedCmp.eq_symm same]
    exact ⟨rfl, rfl⟩
  · rintro ⟨first, second⟩
    exact Std.OrientedCmp.isLE_antisymm first second

theorem Ties.refl (i : Item) : i.Ties i := ⟨rfl, rfl, rfl⟩

theorem Ties.symm {i j : Item} (h : i.Ties j) : j.Ties i := ⟨h.1.symm, h.2.1.symm, h.2.2.symm⟩

theorem Ties.trans {i j k : Item} (first : i.Ties j) (second : j.Ties k) : i.Ties k :=
  ⟨first.1.trans second.1, first.2.1.trans second.2.1, first.2.2.trans second.2.2⟩

/-! ### The sorted list -/

/-- The items in the order of their places; those at one place are as they came. -/
structure Sorts (items sorted : List Item) : Prop where
  perm : sorted.Perm items
  nondecreasing : sorted.Pairwise UpTo
  stable : ∀ i : Item, sorted.filter (Ties i ·) = items.filter (Ties i ·)

theorem sorts_sort (items : List Item) : Sorts items (sort items) := by
  have perm : (sort items).Perm items := List.mergeSort_perm items notAfter
  constructor
  · exact perm
  · apply (List.pairwise_mergeSort notAfter_trans notAfter_total items).imp
    intro i j notAfter
    rwa [notAfter_eq, isLE_comparePlaces] at notAfter
  · intro i
    -- what is at one place is in order already, so sorting leaves it as it is
    have inOrder : (items.filter (Ties i ·)).Pairwise (fun j k => j.notAfter k = true) := by
      apply List.pairwise_of_forall_mem_list
      intro j hj k hk
      have tied : j.Ties k :=
        (of_decide_eq_true (List.mem_filter.mp hj).2).symm.trans
          (of_decide_eq_true (List.mem_filter.mp hk).2)
      rw [notAfter_eq, isLE_comparePlaces]
      exact (ties_iff.mp tied).1
    have part : (items.filter (Ties i ·)).Sublist (sort items) :=
      List.sublist_mergeSort notAfter_trans notAfter_total inOrder List.filter_sublist
    have within := part.filter (Ties i ·)
    simp only [List.filter_filter, Bool.and_self] at within
    exact (within.eq_of_length (perm.filter _).length_eq.symm).symm

theorem mem_of_filters {l m : List Item}
    (same : ∀ i : Item, l.filter (Ties i ·) = m.filter (Ties i ·)) {i : Item} (member : i ∈ l) :
    i ∈ m := by
  have kept : i ∈ l.filter (Ties i ·) := List.mem_filter.mpr ⟨member, decide_eq_true (.refl i)⟩
  rw [same] at kept
  exact List.mem_of_mem_filter kept

/-- A list in order is known when it is known for each place. -/
theorem eq_of_filters {l m : List Item} (first : l.Pairwise UpTo) (second : m.Pairwise UpTo)
    (same : ∀ i : Item, l.filter (Ties i ·) = m.filter (Ties i ·)) : l = m := by
  induction l generalizing m with
  | nil =>
    cases m with
    | nil => rfl
    | cons b m => exact absurd (mem_of_filters (fun i => (same i).symm) List.mem_cons_self) nofun
  | cons a l ih =>
    cases m with
    | nil => exact absurd (mem_of_filters same List.mem_cons_self) nofun
    | cons b m =>
      rcases List.pairwise_cons.mp first with ⟨least, first⟩
      rcases List.pairwise_cons.mp second with ⟨least', second⟩
      have tied : a.Ties b := by
        apply ties_iff.mpr
        constructor
        · rcases List.mem_cons.mp (mem_of_filters (fun i => (same i).symm) List.mem_cons_self) with
            rfl | member
          · exact (ties_iff.mp (.refl b)).1
          · exact least b member
        · rcases List.mem_cons.mp (mem_of_filters same List.mem_cons_self) with rfl | member
          · exact (ties_iff.mp (.refl a)).1
          · exact least' a member
      have heads := same a
      simp only [List.filter_cons, Ties.refl, tied, decide_true, if_true] at heads
      have head : a = b := (List.cons.inj heads).1
      rw [head]
      congr 1
      apply ih first second
      intro i
      have whole := same i
      rw [List.filter_cons, List.filter_cons, head] at whole
      split at whole
      case isTrue => exact (List.cons.inj whole).2
      case isFalse => exact whole

theorem Sorts.unique {items sorted sorted' : List Item} (h : Sorts items sorted)
    (h' : Sorts items sorted') : sorted = sorted' :=
  eq_of_filters h.nondecreasing h'.nondecreasing
    (fun i => (h.stable i).trans (h'.stable i).symm)

/-! ### The order in which the items came -/

/-- Different items are at different places. -/
def Apart (items : List Item) : Prop := ∀ i ∈ items, ∀ j ∈ items, i.Ties j → i = j

theorem sort_eq_of_perm {items order : List Item} (perm : order.Perm items) (apart : Apart items) :
    sort order = sort items := by
  have sorts := sorts_sort order
  have sorts' := sorts_sort items
  apply List.Perm.eq_of_pairwise _ sorts.nondecreasing sorts'.nondecreasing
  · exact sorts.perm.trans (perm.trans sorts'.perm.symm)
  · intro i j hi hj first second
    apply apart
    · exact perm.mem_iff.mp (sorts.perm.mem_iff.mp hi)
    · exact sorts'.perm.mem_iff.mp hj
    · exact ties_iff.mpr ⟨first, second⟩

/-- Two different items at one place are seen in the order in which they came. -/
theorem sort_ne_of_ties {i j : Item} (rest : List Item) (tied : i.Ties j) (different : i ≠ j) :
    sort (i :: j :: rest) ≠ sort (j :: i :: rest) := by
  intro same
  have first := (sorts_sort (i :: j :: rest)).stable i
  have second := (sorts_sort (j :: i :: rest)).stable i
  rw [same, second] at first
  simp [Ties.refl, tied] at first
  exact different first.1.symm

/-- **The order in which items come is of no matter exactly when different items are at different
places.** -/
theorem sort_eq_iff_apart {items : List Item} :
    (∀ order : List Item, order.Perm items → sort order = sort items) ↔ Apart items := by
  constructor
  · intro same i hi j hj tied
    by_contra different
    have split : items.Perm (i :: j :: (items.erase i).erase j) := by
      have other : j ∈ items.erase i := (List.mem_erase_of_ne (Ne.symm different)).mpr hj
      exact (List.perm_cons_erase hi).trans ((List.perm_cons_erase other).cons i)
    apply sort_ne_of_ties ((items.erase i).erase j) tied different
    rw [same _ split.symm, same _ ((List.Perm.swap i j _).trans split.symm)]
  · intro apart order perm
    exact sort_eq_of_perm perm apart

end Item

end SymbolNav
