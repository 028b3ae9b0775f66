/-
  SymbolNav/Proofs/Session/Openings.lean
  ======================================
  **What is left of an opening that fails.**

  A jump remembers where the cursor is, and going back takes a position off the
  history, before it is known whether the file can be opened.  When it cannot, the
  operation returns the error and nothing is put back.  So the history is the one
  from before exactly where there was nothing to change (`failed_opening`).

  Every wait of an operation brings it closer to its end (`Waiting.rank`); an
  opening is the last thing that it waits for, and one part before is the only one
  that touches the history (`Move.leaving`).
-/
import SymbolNav.Proofs.Engine.Answers
import SymbolNav.Proofs.Session.Part
import SymbolNav.Session.Sequence

namespace SymbolNav

theorem History.push_ne_self (h : History) (p : Position) : h.push p ≠ h := by
  intro same
  have lengths := congrArg (fun h : History => h.positions.length) same
  simp [push] at lengths

theorem History.drop_ne_self {h : History} {p : Position} (latest : h.peek? = some p) :
    h.drop ≠ h := by
  intro same
  have nonempty : h.positions ≠ [] := by
    intro empty
    simp [peek?, empty] at latest
  have lengths := congrArg (fun h : History => h.positions.length) same
  have positive := List.length_pos_iff.mpr nonempty
  simp only [drop, List.length_tail] at lengths
  omega

/-- The history once the cursor has left for somewhere else. -/
def EditorView.leave (v : EditorView) (h : History) : History :=
  match v.position with
  | some here => h.push here
  | none => h

theorem EditorView.leave_eq_self_iff {v : EditorView} {h : History} :
    v.leave h = h ↔ v.position = none := by
  unfold leave
  split
  case h_1 here shown => simp [shown, History.push_ne_self]
  case h_2 unknown => simp [unknown]

/-- How many times an operation that waits for this may wait until its end, this time included. -/
def Waiting.rank : Waiting → Nat
  | .prompt _ => 4
  | .run .. => 3
  | .pick _ => 2
  | .lookup .. | .opening _ | .building .. => 1

theorem Waiting.rank_pos (reason : Waiting) : 0 < reason.rank := by
  cases reason <;> simp [rank]

def Progress.rank : Progress → Nat
  | .returned _ => 0
  | .waits reason => reason.rank

theorem Progress.rank_le (p : Progress) : p.rank ≤ Session.waitBound := by
  cases p with
  | returned answer => exact Nat.zero_le _
  | waits reason => cases reason <;> simp [rank, Waiting.rank, Session.waitBound]

/-- The history once the operation has a file opened, if it still comes to that. -/
def Move.leaving (v : EditorView) (m : Move) : History :=
  match m.progress with
  | .waits (.opening _) => m.session.history
  | _ => v.leave m.session.history

theorem Move.leaving_of_ne {v : EditorView} {m : Move}
    (unopened : ∀ target, m.progress ≠ .waits (.opening target)) :
    m.leaving v = v.leave m.session.history := by
  unfold leaving
  split
  case h_1 target opens => exact absurd opens (unopened target)
  case h_2 => rfl

namespace Session

/-! ### On the way to an opening -/

/-- The part leads closer to the end of the operation, and a file that is opened from then on is
opened by a jump. -/
structure Leads (v : EditorView) (bound : Nat) (s : Session) (m : Move) : Prop where
  rank : m.progress.rank ≤ bound
  leaving : m.leaving v = v.leave s.history

section Leads

variable {v : EditorView} {s : Session}

theorem Leads.of_history {bound : Nat} {s' : Session} {m : Move} (h : Leads v bound s' m)
    (same : s'.history = s.history) : Leads v bound s m :=
  ⟨h.rank, by rw [h.leaving, same]⟩

theorem leads_give (bound : Nat) (effects : List Effect) (answer : Answer) :
    Leads v bound s (s.give effects answer) :=
  ⟨Nat.zero_le _, rfl⟩

theorem leads_jump (item : Item) : Leads v 1 s (jump v s item) := by
  unfold jump
  split
  case h_1 here shown =>
    exact ⟨Nat.le_refl _, by simp [Move.leaving, wait, EditorView.leave, shown]⟩
  case h_2 unknown =>
    exact ⟨Nat.le_refl _, by simp [Move.leaving, wait, EditorView.leave, unknown]⟩

theorem leads_showResults : Leads v 2 s s.showResults := by
  unfold showResults
  split
  · exact leads_give ..
  · exact ⟨Nat.le_refl _, rfl⟩

theorem leads_ask (spec : QuerySpec) : Leads v 3 s (s.ask spec) := by
  unfold ask
  dsimp only
  split
  · exact ⟨Nat.le_refl _, rfl⟩
  · exact ⟨Nat.zero_le _, rfl⟩
  · exact ⟨Nat.zero_le _, rfl⟩

theorem leads_look (what : Lookup) (word : String) : Leads v 1 s (s.look what word) := by
  unfold look
  dsimp only
  split
  · exact ⟨Nat.le_refl _, rfl⟩
  · exact ⟨Nat.zero_le _, rfl⟩
  · exact ⟨Nat.zero_le _, rfl⟩

theorem leads_install (bound : Nat) : Leads v bound s s.install := by
  unfold install
  split <;> exact ⟨Nat.zero_le _, rfl⟩

theorem leads_build (thenWatch : Bool) : Leads v 1 s (s.build thenWatch) := by
  unfold build
  dsimp only
  split
  · exact ⟨Nat.le_refl _, rfl⟩
  · exact ⟨Nat.zero_le _, rfl⟩

theorem leads_beginWatch : Leads v 1 s s.beginWatch := by
  unfold beginWatch
  split
  · exact leads_install 1
  · exact leads_build true

theorem leads_reload (config : Config) : Leads v 1 s (s.reload config) := by
  unfold reload
  split
  · exact leads_give ..
  · dsimp only
    split
    · split
      · exact leads_beginWatch.of_history rfl
      · exact ⟨Nat.zero_le _, rfl⟩
    · exact ⟨Nat.zero_le _, rfl⟩

/-- Only going back opens a file otherwise than by a jump. -/
theorem leads_begin {r : Request} (other : r ≠ .pop) : Leads v waitBound s (s.begin v r) := by
  have whatever {m : Move} (leaving : m.leaving v = v.leave s.history) : Leads v waitBound s m :=
    ⟨m.progress.rank_le, leaving⟩
  refine whatever ?_
  cases r with
  | start =>
    simp only [begin]
    split
    · exact leads_beginWatch.leaving
    · rfl
  | build => exact (leads_build false).leaving
  | setAutoBuild enabled =>
    simp only [begin, setAutoBuild]
    split
    · exact leads_beginWatch.leaving
    · rfl
  | reload config => exact (leads_reload config).leaving
  | query kind =>
    simp only [begin]
    split
    · exact (leads_ask _).leaving
    · rfl
  | queryWithPrompt kind => rfl
  | run spec => exact (leads_ask spec).leaving
  | showResults => exact leads_showResults.leaving
  | jump item => exact (leads_jump item).leaving
  | pop => exact absurd rfl other
  | look what word => exact (leads_look what word).leaving

/-- Every part from one point where an operation waits to the next leads closer to the end. -/
theorem leads_resume {reason : Waiting} {reply : Reply} {m : Move}
    (h : s.resume? v reason reply = some m) : Leads v (reason.rank - 1) s m := by
  cases resumes_of_resume? h with
  | gives effects answer => exact leads_give ..
  | asks typed => exact leads_ask _
  | stores settled latest => exact leads_showResults.of_history rfl
  | jumps item => exact leads_jump item
  | installs built => exact ⟨(leads_install (v := v) 0).rank, (leads_install 0).leaving⟩

end Leads

/-! ### Openings -/

/-- The file that an operation has opened, if it comes to that within so many parts. -/
def opening? (d : Desk) : (parts : Nat) → Move → Option Position
  | 0, _ => none
  | parts + 1, m =>
    match m.progress with
    | .returned _ => none
    | .waits (.opening target) => some target
    | .waits reason =>
      ((m.session.bringAbout reason).resume? d.view reason (replyTo d reason)).bind
        (opening? d parts)

/-- The person at the desk requests this, and it comes to opening the file at `target`. -/
def Opens (d : Desk) (s : Session) (r : Request) (target : Position) : Prop :=
  ∃ parts, opening? d parts (s.begin d.view r) = some target

section Openings

variable {d : Desk} {target : Position} {e : Error}

theorem history_bringAbout (s : Session) (reason : Waiting) :
    (s.bringAbout reason).history = s.history := by
  cases reason <;> rfl

/-- An operation that waits for an opening returns the error, and touches nothing any more. -/
theorem finish_opening (fails : d.openFailure target = some e) (s : Session)
    (effects : List Effect) (n : Nat) :
    finish d (n + 1) ⟨s, effects, .waits (.opening target)⟩ = (s, effects, .failed e) := by
  simp [finish, bringAbout, replyTo, fails, resume?, give]

theorem finish_waits {s : Session} {effects : List Effect} {reason : Waiting} {m : Move} {n : Nat}
    (resumes : (s.bringAbout reason).resume? d.view reason (replyTo d reason) = some m) :
    finish d (n + 1) ⟨s, effects, .waits reason⟩ =
      ((finish d n m).1, effects ++ (finish d n m).2.1, (finish d n m).2.2) := by
  simp [finish, resumes]

/-- An operation that comes to an opening which fails returns the error, with the history as it is
at the opening. -/
theorem finish_of_opening? (fails : d.openFailure target = some e) {parts : Nat} {m : Move}
    (opens : opening? d parts m = some target) {n : Nat} (enough : m.progress.rank ≤ n) :
    (finish d n m).2.2 = .failed e ∧ (finish d n m).1.history = m.leaving d.view := by
  induction parts generalizing m n with
  | zero => cases opens
  | succ parts ih =>
    obtain ⟨s, effects, progress⟩ := m
    simp only [opening?] at opens
    split at opens
    case h_1 => cases opens
    case h_2 =>
      cases Option.some.inj opens
      obtain ⟨n, rfl⟩ : ∃ k, n = k + 1 := Nat.exists_eq_add_one.mpr enough
      rw [finish_opening fails]
      exact ⟨rfl, rfl⟩
    case h_3 reason other =>
      obtain ⟨m', resumes, opens'⟩ := Option.bind_eq_some_iff.mp opens
      have leads := leads_resume resumes
      obtain ⟨n, rfl⟩ : ∃ k, n = k + 1 := Nat.exists_eq_add_one.mpr
        (Nat.lt_of_lt_of_le reason.rank_pos enough)
      have closer : m'.progress.rank ≤ n :=
        Nat.le_trans leads.rank (Nat.sub_le_of_le_add enough)
      obtain ⟨answer, history⟩ := ih opens' closer
      rw [finish_waits resumes]
      refine ⟨answer, history.trans ?_⟩
      have unopened : ∀ target, Progress.waits reason ≠ .waits (.opening target) :=
        fun target same => other target (Progress.waits.inj same)
      rw [leads.leaving, history_bringAbout, Move.leaving_of_ne unopened]

/-- Going back comes to an opening only if there is a position to go back to. -/
theorem leaving_pop {v : EditorView} {s : Session} {parts : Nat}
    (opens : opening? d parts s.pop = some target) :
    s.history.peek? = some target ∧ s.pop.leaving v = s.history.drop := by
  cases parts with
  | zero => cases opens
  | succ parts =>
    cases latest : s.history.peek? with
    | none => simp [opening?, pop, latest, give] at opens
    | some p =>
      have same : some p = some target := by simpa [opening?, pop, latest, wait] using opens
      exact ⟨same, by simp [Move.leaving, pop, latest, wait]⟩

end Openings

/-- **An opening that fails is not undone.**  Whatever is requested of a session, if it comes to
opening a file that cannot be opened, then the error is returned; but the history has lost the
position that was gone back to, or has got the one that was to be left.  So it is the one from
before if and only if the operation is no going back and the editor shows no position. -/
theorem failed_opening {d : Desk} {s : Session} {r : Request} {target : Position} {e : Error}
    (opens : Opens d s r target) (fails : d.openFailure target = some e) :
    (s.perform d r).2.2 = .failed e ∧
      (s.perform d r).1.history = (if r = .pop then s.history.drop else d.view.leave s.history) ∧
      ((s.perform d r).1.history = s.history ↔ r ≠ .pop ∧ d.view.position = none) := by
  obtain ⟨parts, opens⟩ := opens
  obtain ⟨answer, history⟩ := finish_of_opening? fails opens (Progress.rank_le _)
  refine ⟨answer, ?_⟩
  by_cases back : r = .pop
  · subst back
    obtain ⟨latest, leaving⟩ := leaving_pop (v := d.view) opens
    have dropped : (s.perform d .pop).1.history = s.history.drop := history.trans leaving
    simp [dropped, History.drop_ne_self latest]
  · have left : (s.perform d r).1.history = d.view.leave s.history :=
      history.trans (leads_begin back).leaving
    simp [left, back, EditorView.leave_eq_self_iff]

/-- A desk where the first item is picked and no file can be opened. -/
def lockedDesk (position : Option Position) : Desk where
  view := ⟨none, none, position⟩
  prompt := none
  pick := fun p => p.items.head?
  openFailure := fun target => some (.fileNotFound target.file.text)

/-- A question is asked, and the file of its only item cannot be opened. -/
theorem failed_opening_pick :
    let here : Position := ⟨⟨"/b"⟩, 3, 1⟩
    let d := lockedDesk (some here)
    let s := Session.new Engine.Sample.root Engine.Sample.engine
    (s.perform d (.run Engine.Sample.question)).2.2 = .failed (.fileNotFound "/a") ∧
      (s.perform d (.run Engine.Sample.question)).1.history = ⟨[here]⟩ := by
  intro here d s
  have opens : Opens d s (.run Engine.Sample.question) ⟨⟨"/a"⟩, 1, 0⟩ := ⟨4, by decide +kernel⟩
  obtain ⟨answer, history, -⟩ := failed_opening (e := .fileNotFound "/a") opens rfl
  exact ⟨answer, history⟩

/-- A jump that did not happen is remembered, and the way back that could not be gone is lost. -/
theorem history_changed_by_failures :
    let here : Position := ⟨⟨"/b"⟩, 3, 1⟩
    let there : Position := ⟨⟨"/a"⟩, 1, 0⟩
    let d := lockedDesk (some here)
    let s := Session.new Engine.Sample.root Engine.Sample.engine
    let s' : Session := { s with history := ⟨[there]⟩ }
    (s.history = ⟨[]⟩ ∧
        (s.perform d (.jump ⟨⟨"/a"⟩, "f", 1, 0, 1, "f()", "x"⟩)).2.2 = .failed (.fileNotFound "/a") ∧
        (s.perform d (.jump ⟨⟨"/a"⟩, "f", 1, 0, 1, "f()", "x"⟩)).1.history = ⟨[here]⟩) ∧
      (s'.perform d .pop).2.2 = .failed (.fileNotFound "/a") ∧
        (s'.perform d .pop).1.history = ⟨[]⟩ := by
  decide +kernel

end Session

end SymbolNav
