/-
  SymbolNav/Proofs/History/Retrace.lean
  =====================================
  **Jumps and ways back, as one sequence.**

  A way back belongs to the latest jump before it that none belongs to yet.  So it is
  the jump of a part of the sequence, from the one to the other, in which each other
  jump is gone back from (`Matched`).  What is left over is told from the end of the
  sequence: `debt` is the number of positions that it takes from what there was before
  it, and a jump is `unmatched` where what follows takes none.

  Each jump leaves something on a stack, its origin or its target, and each way back
  takes something off.  The stack ends up with what the unmatched jumps have left on
  what there was before (`retrace_eq`), and a way back takes off what its own jump has
  left (`Nested.exists_jump`).
-/
import SymbolNav.Item
import Mathlib.Data.List.Infix

namespace SymbolNav

/-- A jump from one position to another. -/
structure Jump where
  origin : Position
  target : Position
deriving DecidableEq, Repr

inductive Navigation
  | jump (j : Jump)
  /-- Back to a position that was left, if there is any. -/
  | back (target : Option Position)
deriving DecidableEq, Repr

namespace Navigation

/-- Where it leads. -/
def target? : Navigation → Option Position
  | .jump j => some j.target
  | .back target => target

def isJump : Navigation → Bool
  | .jump _ => true
  | .back _ => false

def jumps (ns : List Navigation) : Nat := ns.countP isJump

def backs (ns : List Navigation) : Nat := ns.countP (fun n => !n.isJump)

variable {ns : List Navigation}

@[simp] theorem jumps_nil : jumps [] = 0 := rfl
@[simp] theorem backs_nil : backs [] = 0 := rfl
@[simp] theorem jumps_jump (j : Jump) : jumps (.jump j :: ns) = jumps ns + 1 :=
  List.countP_cons_of_pos rfl
@[simp] theorem jumps_back (p : Option Position) : jumps (.back p :: ns) = jumps ns :=
  List.countP_cons_of_neg nofun
@[simp] theorem backs_jump (j : Jump) : backs (.jump j :: ns) = backs ns :=
  List.countP_cons_of_neg nofun
@[simp] theorem backs_back (p : Option Position) : backs (.back p :: ns) = backs ns + 1 :=
  List.countP_cons_of_pos rfl

theorem jumps_append (ns ms : List Navigation) : jumps (ns ++ ms) = jumps ns + jumps ms :=
  List.countP_append

theorem backs_append (ns ms : List Navigation) : backs (ns ++ ms) = backs ns + backs ms :=
  List.countP_append

/-! ### What belongs together -/

/-- Nothing goes further back than it has come. -/
def Nested (ns : List Navigation) : Prop := ∀ front, front <+: ns → backs front ≤ jumps front

/-- Each jump is gone back from, and nothing else is gone back to. -/
structure Matched (ns : List Navigation) : Prop where
  nested : Nested ns
  all : backs ns = jumps ns

/-- How many of the positions that were left before are gone back to. -/
def debt : List Navigation → Nat
  | [] => 0
  | .jump _ :: ns => debt ns - 1
  | .back _ :: ns => debt ns + 1

theorem debt_le_iff {k : Nat} :
    debt ns ≤ k ↔ ∀ front, front <+: ns → backs front ≤ jumps front + k := by
  induction ns generalizing k with
  | nil =>
    constructor
    · intro _ front begins
      rw [List.prefix_nil.mp begins]
      simp
    · intro _
      exact Nat.zero_le k
  | cons n ns ih =>
    -- a beginning of the sequence is empty or has `n` in front
    have fronts (P : List Navigation → Prop) (empty : P []) :
        (∀ front, front <+: n :: ns → P front) ↔ ∀ front, front <+: ns → P (n :: front) := by
      constructor
      · intro all front begins
        exact all _ ((List.prefix_cons_inj n).mpr begins)
      · intro all front begins
        rcases List.prefix_cons_iff.mp begins with rfl | ⟨rest, rfl, begins'⟩
        · exact empty
        · exact all rest begins'
    rw [fronts _ (by simp)]
    cases n with
    | jump j =>
      have more := ih (k := k + 1)
      rw [debt, Nat.sub_le_iff_le_add, more]
      simp only [backs_jump, jumps_jump]
      exact forall₂_congr fun front _ => by omega
    | back p =>
      cases k with
      | zero =>
        refine iff_of_false (by simp [debt]) ?_
        intro all
        simpa using all [] List.nil_prefix
      | succ k =>
        rw [debt, Nat.add_le_add_iff_right, ih]
        simp only [backs_back, jumps_back]
        exact forall₂_congr fun front _ => by omega

theorem debt_eq_zero_iff : debt ns = 0 ↔ Nested ns := by
  rw [← Nat.le_zero, debt_le_iff]
  rfl

instance (ns : List Navigation) : Decidable (Nested ns) :=
  decidable_of_iff (debt ns = 0) debt_eq_zero_iff

/-- The jumps that are not gone back from: what follows them goes no further back. -/
def unmatched : List Navigation → List Jump
  | [] => []
  | .jump j :: ns => if Nested ns then j :: unmatched ns else unmatched ns
  | .back _ :: ns => unmatched ns

/-- Jumps that are gone back from and ways back from them are equally many. -/
theorem length_unmatched (ns : List Navigation) :
    (unmatched ns).length + backs ns = jumps ns + debt ns := by
  induction ns with
  | nil => rfl
  | cons n ns ih =>
    cases n with
    | back p =>
      rw [unmatched, backs_back, jumps_back, debt]
      omega
    | jump j =>
      rw [unmatched, backs_jump, jumps_jump, debt]
      by_cases nested : Nested ns
      · have none := debt_eq_zero_iff.mpr nested
        rw [if_pos nested, List.length_cons]
        omega
      · have some := mt debt_eq_zero_iff.mp nested
        rw [if_neg nested]
        omega

theorem Nested.append_left {ms : List Navigation} (nested : Nested (ns ++ ms)) : Nested ns :=
  fun front begins => nested front (begins.trans (List.prefix_append ns ms))

theorem Matched.unmatched_eq (matched : Matched ns) : unmatched ns = [] := by
  have total := length_unmatched ns
  rw [debt_eq_zero_iff.mpr matched.nested, matched.all] at total
  exact List.length_eq_zero_iff.mp (by omega)

/-- After the last unmatched jump, each jump is gone back from. -/
theorem exists_of_unmatched_ne_nil (some : unmatched ns ≠ []) :
    ∃ before j between, ns = before ++ .jump j :: between ∧ Matched between := by
  induction ns with
  | nil => exact absurd rfl some
  | cons n ns ih =>
    by_cases none : unmatched ns = []
    · cases n with
      | back p => exact absurd none some
      | jump j =>
        have nested : Nested ns := by
          by_contra broken
          rw [unmatched, if_neg broken] at some
          exact some none
        have total := length_unmatched ns
        rw [none, debt_eq_zero_iff.mpr nested, List.length_nil, Nat.zero_add] at total
        exact ⟨[], j, ns, rfl, nested, total⟩
    · obtain ⟨before, j, between, rfl, matched⟩ := ih none
      exact ⟨n :: before, j, between, rfl, matched⟩

/-- Each way back has its jump. -/
theorem Nested.exists_jump {target : Option Position} (nested : Nested (ns ++ [.back target])) :
    ∃ before j between, ns = before ++ .jump j :: between ∧ Matched between := by
  apply exists_of_unmatched_ne_nil
  intro none
  have total := length_unmatched ns
  rw [none, debt_eq_zero_iff.mpr nested.append_left, List.length_nil] at total
  have bound := nested _ (List.prefix_refl _)
  simp only [backs_append, jumps_append, backs_back, jumps_back, backs_nil, jumps_nil] at bound
  omega

/-! ### The stack -/

/-- The stack after some navigation, on which each jump leaves something. -/
def retrace (leaves : Jump → Position) : List Position → List Navigation → List Position
  | stack, [] => stack
  | stack, .jump j :: ns => retrace leaves (leaves j :: stack) ns
  | stack, .back _ :: ns => retrace leaves stack.tail ns

theorem retrace_append (leaves : Jump → Position) (stack : List Position)
    (ns ms : List Navigation) :
    retrace leaves stack (ns ++ ms) = retrace leaves (retrace leaves stack ns) ms := by
  induction ns generalizing stack with
  | nil => rfl
  | cons n ns ih =>
    cases n with
    | jump j => exact ih _
    | back p => exact ih _

/-- **Unmatched jumps leave something behind, and only debts are taken off what was there.** -/
theorem retrace_eq (leaves : Jump → Position) (stack : List Position) (ns : List Navigation) :
    retrace leaves stack ns = ((unmatched ns).map leaves).reverse ++ stack.drop (debt ns) := by
  induction ns generalizing stack with
  | nil => rfl
  | cons n ns ih =>
    cases n with
    | back p => rw [retrace, ih, unmatched, debt, List.drop_tail]
    | jump j =>
      rw [retrace, ih, unmatched, debt]
      by_cases nested : Nested ns
      · simp [nested, debt_eq_zero_iff.mpr nested]
      · obtain ⟨k, debt⟩ := Nat.exists_eq_succ_of_ne_zero (mt debt_eq_zero_iff.mp nested)
        simp [nested, debt]

theorem Nested.retrace_eq (nested : Nested ns) (leaves : Jump → Position)
    (stack : List Position) :
    retrace leaves stack ns = ((unmatched ns).map leaves).reverse ++ stack := by
  rw [Navigation.retrace_eq, debt_eq_zero_iff.mpr nested, List.drop_zero]

theorem Matched.retrace_eq (matched : Matched ns) (leaves : Jump → Position)
    (stack : List Position) : retrace leaves stack ns = stack := by
  rw [matched.nested.retrace_eq, matched.unmatched_eq]
  rfl

/-- A jump that is gone back from up to here has left the latest thing. -/
theorem Matched.retrace_jump (matched : Matched ns) (leaves : Jump → Position)
    (stack : List Position) (before : List Navigation) (j : Jump) :
    retrace leaves stack (before ++ .jump j :: ns) =
      leaves j :: retrace leaves stack before := by
  rw [retrace_append, retrace, matched.retrace_eq]

end Navigation

end SymbolNav
