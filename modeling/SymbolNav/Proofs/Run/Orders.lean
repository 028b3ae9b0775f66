/-
  SymbolNav/Proofs/Run/Orders.lean
  ================================
  **The items of a run can come in any order.**

  Its hits can come to their ends one by one in whatever order is wanted
  (`exists_drain`), and every order of the items is the order of the items of
  some order of the hits (`exists_filterMap_eq`).  So for every order of the items
  there is a way to the end along which they come in that order
  (`exists_follow_order`).
-/
import SymbolNav.Proofs.Run.Reference
import SymbolNav.Proofs.Run.Settle

namespace SymbolNav.Run

variable (s : Surroundings)

/-- What has been kept of a list in some order has been kept of the list in some order. -/
theorem exists_filterMap_eq {α β : Type} (f : α → Option β) {order : List β} {l : List α}
    (perm : order.Perm (l.filterMap f)) : ∃ l' : List α, l'.Perm l ∧ l'.filterMap f = order := by
  induction order generalizing l with
  | nil => exact ⟨l, .refl l, perm.symm.eq_nil⟩
  | cons b order ih =>
    rcases List.mem_filterMap.mp (perm.mem_iff.mp List.mem_cons_self) with ⟨a, member, kept⟩
    rcases List.append_of_mem member with ⟨before, after, rfl⟩
    have rest : order.Perm ((before ++ after).filterMap f) := by
      apply List.Perm.cons_inv (a := b)
      apply perm.trans
      apply ((List.perm_middle (a := a)).filterMap f).trans
      simp [kept]
    rcases ih rest with ⟨l', whole, items⟩
    refine ⟨a :: l', ?_, ?_⟩
    · exact (whole.cons a).trans List.perm_middle.symm
    · simp [kept, items]

/-- The hits of the tasks that wait have come to their ends, in this order. -/
structure HasDrained (r r' : Run) (hits : List Hit) : Prop where
  kept : Kept r r'
  draining : r'.phase = .draining
  tasks : r'.tasks = []
  items : r'.items = (r.spec.itemsOf s.reader r.cwd hits).reverse ++ r.items

theorem exists_drain {r : Run} (waits : Waits r) (draining : r.phase = .draining)
    (keeps : r.dropsAt s.latest = false) {hits : List Hit}
    (perm : hits.Perm (r.tasks.map Task.hit)) :
    ∃ steps, HasDrained s r (r.after s steps) hits := by
  induction hits generalizing r with
  | nil =>
    refine ⟨[], .refl r, draining, ?_, by simp [QuerySpec.itemsOf, after]⟩
    exact List.map_eq_nil_iff.mp perm.symm.eq_nil
  | cons hit hits ih =>
    rcases List.mem_map.mp (perm.mem_iff.mp List.mem_cons_self) with ⟨t, member, rfl⟩
    rcases List.append_of_mem member with ⟨before, after, tasks⟩
    have completes := completes_of_waits s waits draining tasks
    generalize others : [Step.permit before.length, .resolve before.length, .join before.length] =
      first at completes
    have rest : hits.Perm ((r.after s first).tasks.map Task.hit) := by
      apply List.Perm.cons_inv (a := t.hit)
      apply perm.trans
      rw [tasks, completes.tasks, List.map_append, List.map_append]
      exact List.perm_middle
    have keeps' : (r.after s first).dropsAt s.latest = false :=
      (completes.kept.dropsAt _).trans keeps
    rcases ih completes.waits completes.draining keeps' rest with ⟨steps, drained⟩
    refine ⟨first ++ steps, ?_⟩
    rw [after_append]
    constructor
    · exact completes.kept.trans drained.kept
    · exact drained.draining
    · exact drained.tasks
    · rw [drained.items, completes.items keeps, completes.kept.spec, completes.kept.cwd]
      simp only [QuerySpec.itemsOf, List.filterMap_cons, resolution]
      cases (r.spec.resolve s.reader r.cwd t.hit).value? <;> simp

/-- **For every order of the items there is a way to the end along which they come in it**, as long
as no item comes too late. -/
theorem exists_follow_order {r : Run} (fresh : Fresh r) (room : 0 < r.limit)
    (ending : r.ending = none) (keeps : r.dropsAt s.latest = false) {order : List Item}
    (perm : order.Perm (r.spec.itemsOf s.reader r.cwd (Hit.ofLines r.unread))) :
    ∃ (path : List (Surroundings × Step)) (r' : Run), r.follow? path = some r' ∧
      (∀ x ∈ path, x.1 = s) ∧ r'.phase = .settled none ∧ r'.items.reverse = order := by
  rcases exists_filterMap_eq _ perm with ⟨hits, whole, items⟩
  rcases hasRead_of_reading s (fresh.waits room) fresh.running with ⟨read, unread⟩
  generalize reading : List.replicate r.unread.length Step.readLine = first at read unread
  have present : hits.Perm ((r.after s first).tasks.map Task.hit) := by
    rw [read.hits, fresh.tasks]
    simpa using whole.trans (List.reverse_perm _).symm
  have drains : (r.after s first).step? s .endOutput =
      some { r.after s first with phase := .draining } :=
    (Moves.drain read.running unread (read.kept.ending.trans ending)).step?
  have late := (read.kept.dropsAt s.latest).trans keeps
  rcases exists_drain (r := { r.after s first with phase := .draining }) s
    ⟨read.waits.room, read.waits.unclosed, read.waits.queued⟩ rfl late present with ⟨steps, drained⟩
  rcases exists_follow_after s r (first ++ .endOutput :: (steps ++ [.close])) with
    ⟨path, follows, known⟩
  have closes := (Moves.close (s := s) drained.draining drained.tasks).step?
  rw [after_append, after_cons, drains, Option.getD_some, after_append, after_cons, closes] at follows
  refine ⟨path, _, follows, fun x member => (known x member).1, rfl, ?_⟩
  show (Run.after s { r.after s first with phase := .draining } steps).items.reverse = order
  rw [drained.items]
  simp only [read.items, read.kept.spec, read.kept.cwd, fresh.items, List.append_nil,
    List.reverse_reverse]
  exact items

end SymbolNav.Run
