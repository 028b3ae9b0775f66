/-
  SymbolNav/Proofs/Path/Spelling.lean
  ===================================
  **When two spellings of a path are shown alike.**

  Of a path below the root, its parts from one step to another are shown
  (`SpelledFrom`): those that do not count are dropped at both ends and stay in between.
  Below the empty path only the end is dropped, and elsewhere nothing.  So paths that
  name the same place are shown alike if and only if they agree in the parts that are
  left (`relativeTo_eq_iff`).
-/
import SymbolNav.Proofs.Path.Relative

namespace SymbolNav

namespace Path

variable {p q root : Path} {n : Nat} {front mid mid' tail ws vs : List Part} {w : Part}

/-! ### Parts that do not count -/

/-- None of the parts is a step. -/
def Idle (ws : List Part) : Prop := ∀ w ∈ ws, w.counts = false

theorem exists_idle_end (ws : List Part) :
    ∃ tail, Idle tail ∧ ws = withoutIdleEnd ws ++ tail := by
  refine ⟨ws.rtakeWhile (fun w => !w.counts), ?_, List.rdropWhile_append_rtakeWhile.symm⟩
  intro w member
  simpa using List.mem_rtakeWhile_imp member

theorem withoutIdleEnd_append_idle (idle : Idle tail) (ws : List Part) :
    withoutIdleEnd (ws ++ tail) = withoutIdleEnd ws := by
  have behind : ∀ w ∈ tail.reverse, (!w.counts) = true := by
    intro w member
    simp [idle w (List.mem_reverse.mp member)]
  rw [withoutIdleEnd, List.reverse_append, List.dropWhile_append_of_pos behind, withoutIdleEnd]

theorem withoutIdleEnd_of_last (stop : ∀ w ∈ mid.getLast?, w.counts = true) :
    withoutIdleEnd mid = mid := by
  rw [withoutIdleEnd_eq_rdropWhile, List.rdropWhile_eq_self_iff]
  intro some
  simpa using stop _ (List.getLast_mem_getLast? some)

/-- Different parts make different paths, up to the one empty part that the empty path has. -/
theorem ofParts_injective (free : ∀ w ∈ ws, '/' ∉ w) (free' : ∀ w ∈ vs, '/' ∉ w)
    (filled : ws ≠ [[]]) (filled' : vs ≠ [[]]) (same : ofParts ws = ofParts vs) : ws = vs := by
  have nothing : (ofParts []).parts = [[]] := rfl
  by_cases none : ws = []
  · by_cases none' : vs = []
    · rw [none, none']
    · rw [none] at same
      exact absurd (by rw [← parts_ofParts none' free', ← same, nothing]) filled'
  · by_cases none' : vs = []
    · rw [none'] at same
      exact absurd (by rw [← parts_ofParts none free, same, nothing]) filled
    · rw [← parts_ofParts none free, same, parts_ofParts none' free']

/-! ### From one step to another -/

/-- These are the parts of the path after its first `n` steps, from the next step to the last. -/
structure SpelledFrom (p : Path) (n : Nat) (mid : List Part) : Prop where
  whole : ∃ front tail, p.parts = front ++ mid ++ tail ∧
    (front.filter Part.counts).length = n ∧ Idle tail
  first : ∀ w ∈ mid.head?, w.counts = true
  last : ∀ w ∈ mid.getLast?, w.counts = true

/-- What is left after the first `n` steps, without the parts that do not count before the next. -/
theorem dropWhile_dropCounting (front rest : List Part) :
    (dropCounting (front.filter Part.counts).length (front ++ rest)).dropWhile
      (fun w => !w.counts) = rest.dropWhile (fun w => !w.counts) := by
  induction front with
  | nil => cases rest <;> rfl
  | cons w front ih =>
    by_cases counts : w.counts = true
    · rw [List.filter_cons_of_pos counts, List.length_cons, List.cons_append, dropCounting,
        if_pos counts, ih]
    · rw [List.filter_cons_of_neg counts]
      cases steps : (front.filter Part.counts).length with
      | zero =>
        rw [steps] at ih
        rw [← ih]
        simp [dropCounting, counts]
      | succ n =>
        rw [steps] at ih
        rw [List.cons_append, dropCounting, if_neg counts, ih]

theorem exists_front (enough : n ≤ (ws.filter Part.counts).length) :
    ∃ front, ws = front ++ dropCounting n ws ∧ (front.filter Part.counts).length = n := by
  induction ws generalizing n with
  | nil =>
    obtain rfl : n = 0 := by simpa using enough
    exact ⟨[], rfl, rfl⟩
  | cons w ws ih =>
    cases n with
    | zero => exact ⟨[], rfl, rfl⟩
    | succ n =>
      by_cases counts : w.counts = true
      · rw [List.filter_cons_of_pos counts] at enough
        obtain ⟨front, whole, steps⟩ := ih (Nat.le_of_succ_le_succ enough)
        refine ⟨w :: front, ?_, by rw [List.filter_cons_of_pos counts, List.length_cons, steps]⟩
        rw [dropCounting, if_pos counts, List.cons_append, ← whole]
      · rw [List.filter_cons_of_neg counts] at enough
        obtain ⟨front, whole, steps⟩ := ih enough
        refine ⟨w :: front, ?_, by rw [List.filter_cons_of_neg counts, steps]⟩
        rw [dropCounting, if_neg counts, List.cons_append, ← whole]

/-- The parts of a path from one step to another, as they are cut out of it. -/
def cutFrom (p : Path) (n : Nat) : List Part :=
  withoutIdleEnd ((dropCounting n p.parts).dropWhile (fun w => !w.counts))

theorem SpelledFrom.eq_cutFrom (h : p.SpelledFrom n mid) : mid = p.cutFrom n := by
  obtain ⟨front, tail, whole, steps, idle⟩ := h.whole
  have starts : (mid ++ tail).dropWhile (fun w => !w.counts) = mid ∨
      (mid ++ tail).dropWhile (fun w => !w.counts) = mid ++ tail := by
    cases mid with
    | nil =>
      left
      exact List.dropWhile_eq_nil_iff.mpr fun w member => by simp [idle w member]
    | cons w ws =>
      right
      exact List.dropWhile_cons_of_neg (by simp [h.first w rfl])
  rw [cutFrom, whole, List.append_assoc, ← steps, dropWhile_dropCounting]
  rcases starts with cut | stays
  · rw [cut, withoutIdleEnd_of_last h.last]
  · rw [stays, withoutIdleEnd_append_idle idle, withoutIdleEnd_of_last h.last]

theorem spelledFrom_cutFrom (enough : n ≤ p.steps.length) : p.SpelledFrom n (p.cutFrom n) where
  whole := by
    rw [steps, stepsOf, List.length_map] at enough
    obtain ⟨front, whole, steps⟩ := exists_front enough
    obtain ⟨tail, idle, rest⟩ :=
      exists_idle_end ((dropCounting n p.parts).dropWhile (fun w => !w.counts))
    have idle' :
        ((dropCounting n p.parts).takeWhile (fun w => !w.counts)).filter Part.counts = [] :=
      List.filter_eq_nil_iff.mpr fun w member => by simpa using List.mem_takeWhile_imp member
    refine ⟨front ++ (dropCounting n p.parts).takeWhile (fun w => !w.counts), tail, ?_, ?_, idle⟩
    · rw [cutFrom, List.append_assoc, ← rest, List.append_assoc, List.takeWhile_append_dropWhile]
      exact whole
    · rw [List.filter_append, idle', List.append_nil, steps]
  first := starts_trimmed _
  last := last_withoutIdleEnd _

/-! ### What is shown -/

theorem relativeTo_outside (outside : ¬root.components <+: p.components) :
    p.relativeTo root = p.text := by
  have apart : root.components.isPrefixOf p.components = false :=
    Bool.eq_false_iff.mpr fun inside => outside (List.isPrefixOf_iff_prefix.mp inside)
  simp [relativeTo, stripPrefix?, apart]

theorem relativeTo_of_unnamed (unnamed : root.text = "") (p : Path) :
    p.relativeTo root = (p.trimEndParts p.parts).text := by
  simp [relativeTo, stripPrefix?, components_eq_nil_iff.mpr unnamed]

theorem relativeTo_below (named : root.text ≠ "") (below : root.components <+: p.components) :
    p.relativeTo root = (ofParts (p.cutFrom root.steps.length)).text := by
  have filled : root.components ≠ [] := fun nothing => named (components_eq_nil_iff.mp nothing)
  simp [relativeTo, stripPrefix?, List.isPrefixOf_iff_prefix.mpr below, filled, cutFrom, steps,
    stepsOf]

/-- The two paths are the same text as far as they are shown from the root. -/
inductive SpelledAlike (root p q : Path) : Prop
  | whole (text : p = q)
  /-- From the empty path, all is shown but the end that does not count. -/
  | beginning (unnamed : root.text = "") {w : Part} {mid tail tail' : List Part}
      (left : p.parts = w :: (mid ++ tail)) (right : q.parts = w :: (mid ++ tail'))
      (idle : Idle tail) (idle' : Idle tail')
  /-- From the root, a path below it is shown from its next step to its last. -/
  | middle (named : root.text ≠ "") (below : root.components <+: p.components) {mid : List Part}
      (left : p.SpelledFrom root.steps.length mid) (right : q.SpelledFrom root.steps.length mid)

/-! ### Shown alike -/

theorem ne_singleton_nil (stop : ∀ w ∈ ws.getLast?, w.counts = true) : ws ≠ [[]] := by
  rintro rfl
  exact absurd (stop [] rfl) (by decide)

theorem isAbsolute_of_same (same : p.Same q) : p.isAbsolute = q.isAbsolute := by
  have leads : p.lead = q.lead := by
    rw [lead_eq_head, lead_eq_head, show p.components = _ from same]
  have absolute (r : Path) : r.isAbsolute = decide (r.lead = [.root]) := by
    unfold lead
    split
    · simp [*]
    · split <;> simp [*]
  rw [absolute, absolute, leads]

/-- The first part is empty if the path starts at the root, or is empty itself. -/
theorem first_eq_nil_iff (whole : p.parts = w :: ws) :
    w = [] ↔ p.isAbsolute = true ∨ p.text = "" := by
  rcases parts_cases p with ⟨absolute, vs, parts⟩ | rfl | ⟨relative, v, vs, parts, filled⟩
  · obtain ⟨rfl, -⟩ := List.cons.inj (whole.symm.trans parts)
    simp [absolute]
  · obtain ⟨rfl, -⟩ := List.cons.inj (whole.symm.trans (show parts ⟨""⟩ = [[]] from rfl))
    simp
  · obtain ⟨rfl, -⟩ := List.cons.inj (whole.symm.trans parts)
    have named : p.text ≠ "" := by
      intro empty
      obtain rfl : p = ⟨""⟩ := congrArg mk empty
      exact filled (List.cons.inj parts).1.symm
    simp [filled, relative, named]

theorem first_eq_nil_of_same {v : Part} (same : p.Same q) (left : p.parts = w :: ws)
    (right : q.parts = v :: vs) : w = [] ↔ v = [] := by
  have named : p.text = "" ↔ q.text = "" := by
    rw [← components_eq_nil_iff, ← components_eq_nil_iff, show p.components = _ from same]
  rw [first_eq_nil_iff left, first_eq_nil_iff right, isAbsolute_of_same same, named]

/-- From the empty path, two spellings of one place are shown alike if they begin with the same
part and agree in the others up to those at the end that do not count. -/
theorem text_trimEndParts_eq_iff {v : Part} (same : p.Same q) (left : p.parts = w :: ws)
    (right : q.parts = v :: vs) :
    (p.trimEndParts p.parts).text = (q.trimEndParts q.parts).text ↔
      w = v ∧ withoutIdleEnd ws = withoutIdleEnd vs := by
  have starts := isAbsolute_of_same same
  have first := first_eq_nil_of_same same left right
  have kept : ∀ x ∈ w :: withoutIdleEnd ws, '/' ∉ x :=
    free_cons_withoutIdleEnd (left ▸ free_of_mem_parts)
  have kept' : ∀ x ∈ v :: withoutIdleEnd vs, '/' ∉ x :=
    free_cons_withoutIdleEnd (right ▸ free_of_mem_parts)
  rw [left, right]
  by_cases empty : w = []
  case neg =>
    have relative : p.isAbsolute = false := by
      by_contra absolute
      exact empty ((first_eq_nil_iff left).mpr (.inl (by simpa using absolute)))
    rw [trimEndParts_of_relative relative empty, trimEndParts_of_relative (starts ▸ relative)
      (mt first.mpr empty)]
    constructor
    · intro shown
      have agree := ofParts_injective kept kept' (by simp [empty]) (by simp [mt first.mpr empty])
        (congrArg mk shown)
      exact List.cons.inj agree
    · rintro ⟨rfl, agree⟩
      rw [agree]
  case pos =>
    have empty' := first.mp empty
    subst empty empty'
    rcases (first_eq_nil_iff left).mp rfl with absolute | nothing
    case inl =>
      have absolute' : q.isAbsolute = true := starts ▸ absolute
      simp only [trimEndParts, absolute, absolute', if_true, String.append_right_inj, true_and]
      refine ⟨fun shown => ?_, congrArg fun us => (ofParts us).text⟩
      exact ofParts_injective (List.forall_mem_cons.mp kept).2 (List.forall_mem_cons.mp kept').2
        (ne_singleton_nil (last_withoutIdleEnd ws)) (ne_singleton_nil (last_withoutIdleEnd vs))
        (congrArg mk shown)
    case inr =>
      obtain rfl : p = q := by
        have nothing' : q.components = [] := same.symm.trans (components_eq_nil_iff.mpr nothing)
        exact congrArg mk (nothing.trans (components_eq_nil_iff.mp nothing').symm)
      obtain ⟨-, rfl⟩ := List.cons.inj (left.symm.trans right)
      simp

/-- Below the root, two spellings of one place are shown alike if they take their last steps in
the same words. -/
theorem text_cutFrom_eq_iff :
    (ofParts (p.cutFrom n)).text = (ofParts (q.cutFrom n)).text ↔ p.cutFrom n = q.cutFrom n := by
  have free (r : Path) : ∀ w ∈ r.cutFrom n, '/' ∉ w :=
    free_withoutIdleEnd fun w member =>
      free_of_mem_parts w (dropCounting_subset _ _ ((List.dropWhile_sublist _).subset member))
  refine ⟨fun shown => ?_, congrArg fun ws => (ofParts ws).text⟩
  exact ofParts_injective (free p) (free q) (ne_singleton_nil (last_withoutIdleEnd _))
    (ne_singleton_nil (last_withoutIdleEnd _)) (congrArg mk shown)

theorem steps_le_of_below (named : root.text ≠ "") (below : root.components <+: p.components) :
    root.steps.length ≤ p.steps.length := by
  have leads := lead_eq_of_prefix (mt components_eq_nil_iff.mp named) below
  rw [components_eq, components_eq, leads] at below
  exact ((List.prefix_append_right_inj _).mp below).length_le

theorem spelledAlike_iff_of_outside (outside : ¬root.components <+: p.components) :
    SpelledAlike root p q ↔ p = q := by
  constructor
  · rintro (text | ⟨unnamed, -, -, -, -⟩ | ⟨-, below, -, -⟩)
    · exact text
    · exact absurd (components_eq_nil_iff.mpr unnamed ▸ List.nil_prefix) outside
    · exact absurd below outside
  · exact .whole

theorem spelledAlike_iff_of_unnamed {v : Part} (unnamed : root.text = "") (left : p.parts = w :: ws)
    (right : q.parts = v :: vs) :
    SpelledAlike root p q ↔
      w = v ∧ withoutIdleEnd ws = withoutIdleEnd vs := by
  constructor
  · rintro (rfl | ⟨-, parts, parts', idle, idle'⟩ | ⟨named, -, -, -⟩)
    · obtain ⟨rfl, rfl⟩ := List.cons.inj (left.symm.trans right)
      exact ⟨rfl, rfl⟩
    · obtain ⟨rfl, rfl⟩ := List.cons.inj (left.symm.trans parts)
      obtain ⟨rfl, rfl⟩ := List.cons.inj (right.symm.trans parts')
      rw [withoutIdleEnd_append_idle idle, withoutIdleEnd_append_idle idle']
      exact ⟨rfl, rfl⟩
    · exact absurd unnamed named
  · rintro ⟨rfl, agree⟩
    obtain ⟨tail, idle, whole⟩ := exists_idle_end ws
    obtain ⟨tail', idle', whole'⟩ := exists_idle_end vs
    exact .beginning unnamed (left.trans (congrArg (List.cons w) whole))
      (right.trans (congrArg (List.cons w) (agree ▸ whole'))) idle idle'

theorem spelledAlike_iff_of_below (named : root.text ≠ "")
    (below : root.components <+: p.components) (below' : root.components <+: q.components) :
    SpelledAlike root p q ↔ p.cutFrom root.steps.length = q.cutFrom root.steps.length := by
  constructor
  · rintro (rfl | ⟨unnamed, -, -, -, -⟩ | ⟨-, -, left, right⟩)
    · rfl
    · exact absurd unnamed named
    · exact left.eq_cutFrom.symm.trans right.eq_cutFrom
  · intro agree
    have left := spelledFrom_cutFrom (steps_le_of_below named below)
    have right := spelledFrom_cutFrom (steps_le_of_below named below')
    exact .middle named below left (agree ▸ right)

/-- **Two spellings of one place are shown alike if they are the same text as far as they are
shown.** -/
theorem relativeTo_eq_iff (same : p.Same q) :
    p.relativeTo root = q.relativeTo root ↔ SpelledAlike root p q := by
  by_cases below : root.components <+: p.components
  case neg =>
    have outside : ¬root.components <+: q.components := same ▸ below
    rw [relativeTo_outside below, relativeTo_outside outside, spelledAlike_iff_of_outside below]
    exact ⟨congrArg mk, congrArg text⟩
  case pos =>
    by_cases named : root.text = ""
    case pos =>
      obtain ⟨w, ws, left⟩ := List.exists_cons_of_ne_nil p.parts_ne_nil
      obtain ⟨v, vs, right⟩ := List.exists_cons_of_ne_nil q.parts_ne_nil
      rw [relativeTo_of_unnamed named, relativeTo_of_unnamed named,
        text_trimEndParts_eq_iff same left right, spelledAlike_iff_of_unnamed named left right]
    case neg =>
      have below' : root.components <+: q.components := same ▸ below
      rw [relativeTo_below named below, relativeTo_below named below', text_cutFrom_eq_iff,
        spelledAlike_iff_of_below named below below']

end Path

end SymbolNav
