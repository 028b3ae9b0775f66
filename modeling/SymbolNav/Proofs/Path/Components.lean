/-
  SymbolNav/Proofs/Path/Components.lean
  =====================================
  **What a path names, part by part.**

  The components of a path are what it starts from, its *lead* (the root, a leading
  dot or nothing), and then its *steps*, the parts that count (`components_eq`).  What
  is done to a path's text is seen in these two: joining appends steps
  (`components_join`), and dropping parts that do not count changes nothing
  (`stepsOf_withoutIdleEnd`, `components_trimEndParts`).
-/
import SymbolNav.Path
import SymbolNav.Proofs.Text.Cut

namespace SymbolNav

open Text

namespace Path

variable {p base child : Path} {ws vs : List Part} {w : Part}

/-! ### Parts -/

theorem free_of_mem_parts : ∀ v ∈ p.parts, '/' ∉ v :=
  fun _ => sep_not_mem_splitOn

theorem parts_ofParts (nonempty : ws ≠ []) (free : ∀ w ∈ ws, '/' ∉ w) :
    (ofParts ws).parts = ws := by
  rw [parts, ofParts, String.toList_ofList]
  exact List.splitOn_intercalate '/' free nonempty

theorem parts_ne_nil (p : Path) : p.parts ≠ [] :=
  List.splitOn_ne_nil _ _

/-! ### Steps -/

/-- The steps that some parts are. -/
def stepsOf (ws : List Part) : List Component := (ws.filter Part.counts).map Part.component

/-- What a path does after its start. -/
def steps (p : Path) : List Component := stepsOf p.parts

/-- Where a path starts, if it says so. -/
def lead (p : Path) : List Component :=
  if p.isAbsolute then [.root] else if p.parts.head? = some ['.'] then [.current] else []

theorem components_eq (p : Path) : p.components = p.lead ++ p.steps := by
  unfold components lead steps stepsOf
  dsimp only
  split
  · rfl
  · split <;> rfl

@[simp] theorem stepsOf_append (ws vs : List Part) :
    stepsOf (ws ++ vs) = stepsOf ws ++ stepsOf vs := by
  simp [stepsOf]

theorem stepsOf_eq_nil (idle : ∀ w ∈ ws, w.counts = false) : stepsOf ws = [] := by
  have none : ws.filter Part.counts = [] := by
    apply List.filter_eq_nil_iff.mpr
    intro w member
    simp [idle w member]
  rw [stepsOf, none, List.map_nil]

theorem stepsOf_dropWhile (ws : List Part) :
    stepsOf (ws.dropWhile (fun w => !w.counts)) = stepsOf ws := by
  have idle : stepsOf (ws.takeWhile (fun w => !w.counts)) = [] := by
    apply stepsOf_eq_nil
    intro w member
    simpa using List.mem_takeWhile_imp member
  have whole := stepsOf_append (ws.takeWhile (fun w => !w.counts))
    (ws.dropWhile (fun w => !w.counts))
  rw [List.takeWhile_append_dropWhile, idle, List.nil_append] at whole
  exact whole.symm

/-- The program is built on core alone, which has no name for what `withoutIdleEnd` does. -/
theorem withoutIdleEnd_eq_rdropWhile (ws : List Part) :
    withoutIdleEnd ws = ws.rdropWhile (fun w => !w.counts) := rfl

theorem withoutIdleEnd_cons (counts : w.counts = true) (ws : List Part) :
    withoutIdleEnd (w :: ws) = w :: withoutIdleEnd ws :=
  rdropWhile_append_stop (p := fun w => !Part.counts w) (l := [w]) (by simp [counts]) ws

theorem last_withoutIdleEnd (ws : List Part) :
    ∀ w ∈ (withoutIdleEnd ws).getLast?, w.counts = true := by
  intro w last
  have stop := getLast?_rdropWhile_not (p := fun w : Part => !w.counts) (l := ws) last
  simpa using stop

theorem free_withoutIdleEnd (free : ∀ w ∈ ws, '/' ∉ w) : ∀ w ∈ withoutIdleEnd ws, '/' ∉ w :=
  fun w member => free w ((List.rdropWhile_prefix _ ws).subset member)

theorem free_cons_withoutIdleEnd (free : ∀ v ∈ w :: ws, '/' ∉ v) :
    ∀ v ∈ w :: withoutIdleEnd ws, '/' ∉ v := by
  obtain ⟨first, others⟩ := List.forall_mem_cons.mp free
  exact List.forall_mem_cons.mpr ⟨first, free_withoutIdleEnd others⟩

/-- Parts that do not count are dropped from the end. -/
theorem filter_withoutIdleEnd (ws : List Part) :
    (withoutIdleEnd ws).filter Part.counts = ws.filter Part.counts := by
  have idle : (ws.rtakeWhile (fun w => !w.counts)).filter Part.counts = [] := by
    apply List.filter_eq_nil_iff.mpr
    intro w member
    simpa using List.mem_rtakeWhile_imp member
  have whole : (withoutIdleEnd ws ++ ws.rtakeWhile (fun w => !w.counts)).filter Part.counts =
      ws.filter Part.counts :=
    congrArg (List.filter Part.counts) List.rdropWhile_append_rtakeWhile
  rwa [List.filter_append, idle, List.append_nil] at whole

theorem stepsOf_withoutIdleEnd (ws : List Part) : stepsOf (withoutIdleEnd ws) = stepsOf ws := by
  rw [stepsOf, filter_withoutIdleEnd, stepsOf]

theorem stepsOf_dropCounting (n : Nat) (ws : List Part) :
    stepsOf (dropCounting n ws) = (stepsOf ws).drop n := by
  induction ws generalizing n with
  | nil => cases n <;> simp [dropCounting, stepsOf]
  | cons w ws ih =>
    cases n with
    | zero => rfl
    | succ n =>
      by_cases counts : w.counts = true
      · rw [dropCounting, if_pos counts, ih]
        simp [stepsOf, counts]
      · rw [dropCounting, if_neg counts, ih]
        simp [stepsOf, counts]

/-! ### Paths of parts -/

theorem steps_ofParts (free : ∀ w ∈ ws, '/' ∉ w) : (ofParts ws).steps = stepsOf ws := by
  cases ws with
  | nil => rfl
  | cons w ws => rw [steps, parts_ofParts (List.cons_ne_nil w ws) free]

/-- A path that is made of parts starts with its first part, unless that is empty. -/
theorem isAbsolute_ofParts (free : ∀ w ∈ ws, '/' ∉ w) (starts : ∀ w ∈ ws.head?, w ≠ []) :
    (ofParts ws).isAbsolute = false := by
  cases ws with
  | nil => rfl
  | cons w ws =>
    obtain ⟨c, r, rfl⟩ := List.exists_cons_of_ne_nil (starts w rfl)
    have other : c ≠ '/' := by
      rintro rfl
      exact free _ List.mem_cons_self List.mem_cons_self
    rw [isAbsolute, ofParts, String.toList_ofList]
    cases ws <;> simp [List.intercalate, List.intersperse, other]

/-! ### Joining -/

/-- Joined to a path that has a text, a relative path adds its parts. -/
theorem parts_join (named : base.text ≠ "") (relative : child.isAbsolute = false) :
    ∃ ws, ws ≠ [] ∧ (base.join child).parts = ws ++ child.parts ∧
      (ws = base.parts ∨ ws ++ [[]] = base.parts) := by
  by_cases closed : base.text.toList.getLast? = some '/'
  · obtain ⟨t, text⟩ := List.getLast?_eq_some_iff.mp closed
    refine ⟨t.splitOn '/', List.splitOn_ne_nil _ t, ?_, .inr ?_⟩
    · rw [join, relative, if_neg Bool.false_ne_true, if_pos (.inr closed), parts,
        String.toList_append, text, List.append_assoc, List.singleton_append,
        List.splitOn_append_cons_self]
      rfl
    · rw [parts, text, List.splitOn_append_cons_self]
      rfl
  · refine ⟨base.parts, parts_ne_nil base, ?_, .inl rfl⟩
    rw [join, relative, if_neg Bool.false_ne_true, if_neg (not_or.mpr ⟨named, closed⟩), parts,
      String.toList_append, String.toList_append, List.append_assoc]
    have slash : "/".toList = ['/'] := rfl
    rw [slash, List.singleton_append]
    exact List.splitOn_append_cons_self _ _

theorem isAbsolute_join (named : base.text ≠ "") (relative : child.isAbsolute = false) :
    (base.join child).isAbsolute = base.isAbsolute := by
  have filled : base.text.toList ≠ [] := by simpa using named
  rw [join, relative, if_neg Bool.false_ne_true]
  unfold isAbsolute
  split <;> simp [List.head?_append_of_ne_nil _ filled]

/-- **Joining appends steps.** -/
theorem components_join (named : base.text ≠ "") (relative : child.isAbsolute = false) :
    (base.join child).components = base.components ++ child.steps := by
  obtain ⟨ws, nonempty, whole, front⟩ := parts_join named relative
  have first : (base.join child).parts.head? = base.parts.head? := by
    rw [whole, List.head?_append_of_ne_nil ws nonempty]
    rcases front with rfl | closed
    · rfl
    · rw [← closed, List.head?_append_of_ne_nil ws nonempty]
  have done : stepsOf ws = base.steps := by
    rcases front with rfl | closed
    · rfl
    · rw [steps, ← closed, stepsOf_append]
      exact (List.append_nil _).symm
  have lead_eq : (base.join child).lead = base.lead := by
    rw [lead, lead, isAbsolute_join named relative, first]
  have steps_eq : (base.join child).steps = base.steps ++ child.steps := by
    rw [steps, whole, stepsOf_append, done]
    rfl
  rw [components_eq, components_eq, lead_eq, steps_eq, List.append_assoc]

/-! ### Dropping what does not count -/

/-- A path starts at the root, or it is empty, or it starts with a part that is not. -/
theorem parts_cases (p : Path) :
    (p.isAbsolute = true ∧ ∃ ws, p.parts = [] :: ws) ∨ p = ⟨""⟩ ∨
      p.isAbsolute = false ∧ ∃ w ws, p.parts = w :: ws ∧ w ≠ [] := by
  cases text : p.text.toList with
  | nil => exact .inr (.inl (by cases p; simpa using text))
  | cons c r =>
    by_cases slash : c = '/'
    · refine .inl ⟨by simp [isAbsolute, text, slash], r.splitOn '/', ?_⟩
      rw [parts, text, List.splitOn_cons_eq_if_modifyHead, if_pos (by simpa using slash)]
    · refine .inr (.inr ⟨by simp [isAbsolute, text, slash], ?_⟩)
      obtain ⟨w, ws, -, more⟩ := exists_splitOn_cons slash r
      exact ⟨c :: w, ws, by rw [parts, text, more], by simp⟩

/-- A path starts at the root if its first part is empty and others follow. -/
theorem isAbsolute_of_parts {before idle : List Part} (whole : p.parts = before ++ w :: idle)
    (filled : w ≠ []) :
    p.isAbsolute = decide (before.head? = some []) := by
  rcases parts_cases p with ⟨absolute, ws, parts⟩ | rfl | ⟨relative, v, ws, parts, named⟩
  · rw [absolute]
    rw [whole] at parts
    cases before with
    | nil => exact absurd (List.cons.inj parts).1 filled
    | cons b bs => simp [(List.cons.inj parts).1]
  · cases before with
    | nil => exact absurd (List.cons.inj whole).1.symm filled
    | cons b bs =>
      have longer := congrArg List.length (List.cons.inj whole).2
      simp at longer
  · rw [relative]
    rw [whole] at parts
    cases before with
    | nil => rfl
    | cons b bs => simp [(List.cons.inj parts).1, named]

theorem parts_root (q : Path) :
    (⟨"/" ++ q.text⟩ : Path).isAbsolute = true ∧
      (⟨"/" ++ q.text⟩ : Path).parts = [] :: q.parts := by
  have slash : "/".toList = ['/'] := rfl
  refine ⟨by simp [isAbsolute, slash], ?_⟩
  rw [parts, String.toList_append, slash, List.singleton_append,
    List.splitOn_cons_eq_if_modifyHead, if_pos (by simp)]
  rfl

theorem components_root (q : Path) :
    (⟨"/" ++ q.text⟩ : Path).components = .root :: q.steps := by
  obtain ⟨absolute, whole⟩ := parts_root q
  rw [components_eq, lead, if_pos absolute, steps, whole]
  rfl

theorem components_of_relative (relative : p.isAbsolute = false) (whole : p.parts = w :: ws) :
    p.components = (if w = ['.'] then [.current] else []) ++ stepsOf (w :: ws) := by
  rw [components_eq, lead, relative, if_neg Bool.false_ne_true, steps, whole, List.head?_cons]
  simp only [Option.some.injEq]

/-- The first part of a relative path stays, be it a step or a dot. -/
theorem trimEndParts_of_relative (relative : p.isAbsolute = false) (filled : w ≠ [])
    (ws : List Part) :
    p.trimEndParts (w :: ws) = ofParts (w :: withoutIdleEnd ws) := by
  unfold trimEndParts
  dsimp only
  rw [relative, if_neg Bool.false_ne_true]
  split
  case isTrue => rfl
  case isFalse undotted =>
    have counts : w.counts = true := by simp [Part.counts, filled, undotted]
    exact congrArg ofParts (withoutIdleEnd_cons counts ws)

theorem components_trimEndParts (p : Path) :
    (p.trimEndParts p.parts).components = p.components := by
  have free := free_of_mem_parts (p := p)
  rcases parts_cases p with ⟨absolute, ws, whole⟩ | rfl | ⟨relative, w, ws, whole, filled⟩
  · rw [whole] at free
    have trimmed : p.trimEndParts ([] :: ws) = ⟨"/" ++ (ofParts (withoutIdleEnd ws)).text⟩ :=
      if_pos absolute
    rw [whole, trimmed, components_root,
      steps_ofParts (free_withoutIdleEnd fun v later => free v (List.mem_cons_of_mem _ later)),
      stepsOf_withoutIdleEnd, components_eq p, lead, if_pos absolute, steps, whole]
    rfl
  · rfl
  · rw [whole] at free
    have kept := free_cons_withoutIdleEnd free
    have steps_eq : stepsOf (w :: withoutIdleEnd ws) = stepsOf (w :: ws) :=
      calc stepsOf (w :: withoutIdleEnd ws)
          = stepsOf [w] ++ stepsOf (withoutIdleEnd ws) := stepsOf_append [w] _
        _ = stepsOf [w] ++ stepsOf ws := by rw [stepsOf_withoutIdleEnd]
        _ = stepsOf (w :: ws) := (stepsOf_append [w] ws).symm
    rw [whole, trimEndParts_of_relative relative filled, components_of_relative relative whole,
      components_of_relative (isAbsolute_ofParts kept (by simpa using filled))
        (parts_ofParts (List.cons_ne_nil _ _) kept), steps_eq]

end Path

end SymbolNav
