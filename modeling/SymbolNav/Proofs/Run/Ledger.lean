/-
  SymbolNav/Proofs/Run/Ledger.lean
  ================================
  **Every hit of a run is accounted for exactly once.**

  The counters of a run say how many hits ended in which way, not which ones.
  The proofs keep books beside the run: a `Ledger` has the lines that were read
  and an entry, with its `Fate`, for every hit that has left the tasks.  The
  books are sound (`Ledger.Sound`) when the hits in the lines that were read are,
  up to their order, the entries together with the hits that are still pending,
  and when items and counters are what the entries say.

  Why an entry says what it says lies in the past: a source line was read then,
  a newer run had started then.  So soundness is relative to what is known about
  the steps so far (`Known`), and an entry is honest when some such step bears
  it out.
-/
import SymbolNav.Proofs.Run.Step

namespace SymbolNav

/-- The hits among lines, in their order. -/
def Hit.ofLines (lines : List String) : List Hit :=
  lines.filterMap (fun line => (Hit.parse line).toOption)

namespace Run

/-! ### Entries -/

/-- What has become of a hit. -/
inductive Fate
  | kept (item : Item)
  /-- Its source line could not be read. -/
  | dropped
  /-- A newer run had started. -/
  | discarded
  /-- Its task was ended where it was. -/
  | aborted
deriving DecidableEq

/-- The item of a hit that was kept. -/
def Fate.item? : Fate → Option Item
  | .kept item => some item
  | _ => none

/-- A hit and what has become of it. -/
structure Entry where
  hit : Hit
  fate : Fate

/-- The books of a run. -/
structure Ledger where
  /-- The lines that have been read. -/
  read : List String
  /-- The hits that are accounted for, the latest first. -/
  entries : List Entry

/-- The hit of a task that has not been accounted for. -/
def pending? (t : Task) : Option Hit := if t.stage = .ended then none else some t.hit

/-- The hits that have not been accounted for. -/
def pending (r : Run) : List Hit := r.tasks.filterMap pending?

/-- The error for which the run has given up. -/
def error? (r : Run) : Option Error :=
  match r.phase with
  | .aborting e | .settled (some e) => some e
  | .running | .draining | .settled none => none

/-- The counters after one more entry. -/
def creditTo (stats : Stats) : Fate → Stats
  | .dropped => { stats with droppedItems := stats.droppedItems + 1 }
  | .discarded => { stats with discarded := stats.discarded + 1 }
  | .kept _ | .aborted => stats

/-! ### Soundness -/

section Sound

-- `Known` is what is known about the steps so far.
variable (Known : Surroundings → Step → Prop)

/-- Some step bears the entry out. -/
def Entry.Honest (o : Run) (x : Entry) : Prop :=
  match x.fate with
  | .kept item => ∃ s step, Known s step ∧ o.resolution s.reader x.hit = .value item
  | .dropped => ∃ s step, Known s step ∧ (o.resolution s.reader x.hit).value? = none
  | .discarded => ∃ s step, Known s step ∧ o.dropsAt s.latest = true
  | .aborted => True

/-- The books agree with the run `r` that was started as `o`. -/
structure Ledger.Sound (o r : Run) (b : Ledger) : Prop where
  lines : o.unread = b.read ++ r.unread
  hits : (Hit.ofLines b.read).Perm (b.entries.map Entry.hit ++ r.pending)
  accepted : r.stats.hits = (Hit.ofLines b.read).length
  rejected : r.stats.droppedLines = b.read.countP (fun line => (Hit.parse line).toOption.isNone)
  items : r.items = b.entries.filterMap (·.fate.item?)
  dropped : r.stats.droppedItems = b.entries.countP (·.fate = .dropped)
  discarded : r.stats.discarded = b.entries.countP (·.fate = .discarded)
  honest : ∀ x ∈ b.entries, x.Honest Known o
  aborted : ∀ x ∈ b.entries, x.fate = .aborted → r.error?.isSome
  crashed : ∀ t ∈ r.tasks, t.stage = .crashed →
    ∃ s step, Known s step ∧ o.resolution s.reader t.hit = .crashed

variable {Known} {o r r' : Run} {b : Ledger}

theorem sound_opened (h : o.tasks = []) (items : o.items = []) (stats : o.stats = ⟨0, 0, 0, 0⟩) :
    Ledger.Sound Known o o ⟨[], []⟩ where
  lines := rfl
  hits := by simp [Hit.ofLines, pending, h]
  accepted := by simp [stats, Hit.ofLines]
  rejected := by simp [stats]
  items := by simp [items]
  dropped := by simp [stats]
  discarded := by simp [stats]
  honest := by simp
  aborted := by simp
  crashed := by simp [h]

/-! A step reads a line, or accounts for one hit, or leaves the books as they are. -/

/-- The books stay sound when no hit comes or goes. -/
theorem Ledger.Sound.pass (h : b.Sound Known o r) (unread : r'.unread = r.unread)
    (pending : r.pending.Perm r'.pending) (items : r'.items = r.items)
    (stats : r'.stats = r.stats) (error : r.error?.isSome → r'.error?.isSome)
    (crashed : ∀ t ∈ r'.tasks, t.stage = .crashed → t ∈ r.tasks ∨
      ∃ s step, Known s step ∧ o.resolution s.reader t.hit = .crashed) :
    b.Sound Known o r' where
  lines := unread ▸ h.lines
  hits := h.hits.trans (pending.append_left _)
  accepted := stats ▸ h.accepted
  rejected := stats ▸ h.rejected
  items := items ▸ h.items
  dropped := stats ▸ h.dropped
  discarded := stats ▸ h.discarded
  honest := h.honest
  aborted := fun x hx fate => error (h.aborted x hx fate)
  crashed := by
    intro t ht stage
    rcases crashed t ht stage with old | new
    · exact h.crashed t old stage
    · exact new

/-- The books stay sound when one hit is accounted for. -/
theorem Ledger.Sound.account {x : Entry} (h : b.Sound Known o r) (honest : x.Honest Known o)
    (unread : r'.unread = r.unread) (pending : r.pending.Perm (x.hit :: r'.pending))
    (items : r'.items = x.fate.item?.toList ++ r.items)
    (stats : r'.stats = creditTo r.stats x.fate) (error : r.error?.isSome → r'.error?.isSome)
    (aborted : x.fate = .aborted → r'.error?.isSome)
    (crashed : ∀ t ∈ r'.tasks, t.stage = .crashed → t ∈ r.tasks) :
    (Ledger.mk b.read (x :: b.entries)).Sound Known o r' where
  lines := unread ▸ h.lines
  hits := by
    refine h.hits.trans ((pending.append_left _).trans ?_)
    simp only [List.map_cons, List.cons_append]
    exact List.perm_middle
  accepted := by rw [stats, ← h.accepted]; cases x.fate <;> rfl
  rejected := by rw [stats, ← h.rejected]; cases x.fate <;> rfl
  items := by
    rw [items, h.items]
    cases fate : x.fate <;> simp [Fate.item?, fate]
  dropped := by
    rw [stats, List.countP_cons, ← h.dropped]
    cases fate : x.fate <;> simp [creditTo]
  discarded := by
    rw [stats, List.countP_cons, ← h.discarded]
    cases fate : x.fate <;> simp [creditTo]
  honest := List.forall_mem_cons.mpr ⟨honest, h.honest⟩
  aborted := List.forall_mem_cons.mpr ⟨aborted, fun y hy fate => error (h.aborted y hy fate)⟩
  crashed := fun t ht stage => h.crashed t (crashed t ht stage) stage

variable {s : Surroundings}

theorem Kept.resolution (kept : Kept o r) (reader : SourceReader) (hit : Hit) :
    r.resolution reader hit = o.resolution reader hit := by
  simp [Run.resolution, kept.spec, kept.cwd]

theorem Kept.dropsAt (kept : Kept o r) (latest : Nat) : r.dropsAt latest = o.dropsAt latest := by
  simp [Run.dropsAt, supersededAt, kept.discards, kept.generation]

/-- **A step keeps the books sound.**  A hit is read, or one is accounted for with the fate that
the step gives it, or nothing changes for the books. -/
theorem Ledger.Sound.advance (h : b.Sound Known o r) (kept : Kept o r) (unclosed : r.closed = false)
    {step : Step} (known : Known s step) (moves : Moves s r step r') :
    ∃ b' : Ledger, b'.Sound Known o r' := by
  have evidence : ∀ hit, r.resolution s.reader hit = o.resolution s.reader hit :=
    kept.resolution s.reader
  cases moves with
  | @hit line rest hit running unread parses =>
    refine ⟨⟨b.read ++ [line], b.entries⟩, ?_⟩
    have more : Hit.ofLines (b.read ++ [line]) = Hit.ofLines b.read ++ [hit] := by
      simp [Hit.ofLines, parses, Except.toOption]
    exact {
      lines := by simp [h.lines, unread]
      hits := by
        rw [more]
        refine (List.perm_append_singleton hit _).trans ((h.hits.cons hit).trans ?_)
        exact List.perm_middle.symm
      accepted := by simp [more, h.accepted]
      rejected := by simp [h.rejected, parses, Except.toOption]
      items := h.items
      dropped := h.dropped
      discarded := h.discarded
      honest := h.honest
      aborted := h.aborted
      crashed := List.forall_mem_cons.mpr ⟨by simp, h.crashed⟩ }
  | @junk line rest fault running unread parses =>
    refine ⟨⟨b.read ++ [line], b.entries⟩, ?_⟩
    have same : Hit.ofLines (b.read ++ [line]) = Hit.ofLines b.read := by
      simp [Hit.ofLines, parses, Except.toOption]
    exact {
      lines := by simp [h.lines, unread]
      hits := same ▸ h.hits
      accepted := same ▸ h.accepted
      rejected := by simp [h.rejected, parses, Except.toOption]
      items := h.items
      dropped := h.dropped
      discarded := h.discarded
      honest := h.honest
      aborted := h.aborted
      crashed := h.crashed }
  | breakOff running =>
    exact ⟨b, h.pass rfl (.refl _) rfl rfl (by simp [error?]) (fun t ht _ => .inl ht)⟩
  | drain running unread ending =>
    exact ⟨b, h.pass rfl (.refl _) rfl rfl (by simp [error?, running]) (fun t ht _ => .inl ht)⟩
  | fail running unread ending =>
    exact ⟨b, h.pass rfl (.refl _) rfl rfl (by simp [error?]) (fun t ht _ => .inl ht)⟩
  | refuse tasks closed => simp [unclosed] at closed
  | @discardEarly before hit after tasks closed room drops =>
    refine ⟨_, h.account (x := ⟨hit, .discarded⟩) ?_ rfl ?_ rfl rfl id (by simp) ?_⟩
    · exact ⟨s, _, known, kept.dropsAt _ ▸ drops⟩
    · simp [pending, tasks, pending?]
    · grind
  | begin tasks closed room keeps =>
    exact ⟨b, h.pass rfl (by simp [pending, tasks, pending?]) rfl rfl id (by grind)⟩
  | @discardLate before hit after item tasks resolves drops =>
    refine ⟨_, h.account (x := ⟨hit, .discarded⟩) ?_ rfl ?_ rfl rfl id (by simp) ?_⟩
    · exact ⟨s, _, known, kept.dropsAt _ ▸ drops⟩
    · simp [pending, tasks, pending?]
    · grind
  | @keep before hit after item tasks resolves keeps =>
    refine ⟨_, h.account (x := ⟨hit, .kept item⟩) ?_ rfl ?_ rfl rfl id (by simp) ?_⟩
    · exact ⟨s, _, known, evidence hit ▸ resolves⟩
    · simp [pending, tasks, pending?]
    · grind
  | @unreadable before hit after e tasks resolves =>
    refine ⟨_, h.account (x := ⟨hit, .dropped⟩) ?_ rfl ?_ rfl rfl id (by simp) ?_⟩
    · exact ⟨s, _, known, by simp [← evidence, resolves, Outcome.value?]⟩
    · simp [pending, tasks, pending?]
    · grind
  | @crash before hit after tasks resolves =>
    refine ⟨b, h.pass rfl (by simp [pending, tasks, pending?]) rfl rfl id ?_⟩
    intro t ht stage
    simp only [List.mem_append, List.mem_cons] at ht
    rcases ht with ht | rfl | ht
    · exact .inl (by simp [tasks, ht])
    · exact .inr ⟨s, _, known, evidence hit ▸ resolves⟩
    · exact .inl (by simp [tasks, ht])
  | joinEnded draining tasks =>
    exact ⟨b, h.pass rfl (by simp [pending, tasks, pending?]) rfl rfl id (by grind)⟩
  | @joinCrashed before hit after draining tasks =>
    refine ⟨_, h.account (x := ⟨hit, .dropped⟩) ?_ rfl ?_ rfl rfl id (by simp) ?_⟩
    · obtain ⟨s', step', known', crashed⟩ := h.crashed ⟨hit, .crashed⟩ (by simp [tasks]) rfl
      exact ⟨s', step', known', by simp [crashed, Outcome.value?]⟩
    · simp [pending, tasks, pending?]
    · grind
  | @abort before task after e aborting tasks =>
    obtain ⟨hit, stage⟩ := task
    by_cases ended : stage = .ended
    · exact ⟨b, h.pass rfl (by simp [pending, tasks, pending?, ended]) rfl rfl id (by grind)⟩
    · refine ⟨_, h.account (x := ⟨hit, .aborted⟩) trivial rfl ?_ rfl rfl id ?_ ?_⟩
      · simp [pending, tasks, pending?, ended]
      · simp [error?, aborting]
      · grind
  | close draining tasks =>
    exact ⟨b, h.pass rfl (.refl _) rfl rfl (by simp [error?, draining]) (fun t ht _ => .inl ht)⟩
  | closeFailed aborting tasks =>
    exact ⟨b, h.pass rfl (.refl _) rfl rfl (by simp [error?]) (fun t ht _ => .inl ht)⟩

end Sound

/-! ### Where a run can be -/

/-- What the phase says about the output of the run `r` that was started as `o`. -/
structure Placed (Known : Surroundings → Step → Prop) (o r : Run) : Prop where
  drained : r.phase = .draining ∨ r.phase = .settled none → r.unread = [] ∧ o.ending = none
  failed : ∀ e, r.error? = some e → (r.unread = [] ∧ o.ending = some e) ∨
    ∃ s message, Known s (.breakOff message) ∧ e = .io message
  finished : ∀ failure, r.phase = .settled failure → r.tasks = []

theorem Placed.advance {Known : Surroundings → Step → Prop} {o r r' : Run} {s : Surroundings}
    {step : Step} (h : Placed Known o r) (kept : Kept o r) (known : Known s step)
    (moves : Moves s r step r') : Placed Known o r' := by
  obtain ⟨drained, failed, finished⟩ := h
  cases moves with
  | hit running unread parses =>
    exact ⟨by simp [running], by simp [error?, running], by simp [running]⟩
  | junk running unread parses =>
    exact ⟨by simp [running], by simp [error?, running], by simp [running]⟩
  | breakOff running =>
    exact ⟨by simp, fun e he => .inr ⟨s, _, known, by simpa [error?] using he.symm⟩, by simp⟩
  | drain running unread ending =>
    exact ⟨fun _ => ⟨unread, kept.ending ▸ ending⟩, by simp [error?], by simp⟩
  | fail running unread ending =>
    refine ⟨by simp, fun e he => .inl ⟨unread, ?_⟩, by simp⟩
    rw [← kept.ending, ending]
    simpa [error?] using he
  | refuse tasks closed => exact ⟨drained, failed, by simpa [tasks] using finished⟩
  | discardEarly tasks closed room drops => exact ⟨drained, failed, by simpa [tasks] using finished⟩
  | begin tasks closed room keeps => exact ⟨drained, failed, by simpa [tasks] using finished⟩
  | discardLate tasks resolves drops => exact ⟨drained, failed, by simpa [tasks] using finished⟩
  | keep tasks resolves keeps => exact ⟨drained, failed, by simpa [tasks] using finished⟩
  | unreadable tasks resolves => exact ⟨drained, failed, by simpa [tasks] using finished⟩
  | crash tasks resolves => exact ⟨drained, failed, by simpa [tasks] using finished⟩
  | joinEnded draining tasks => exact ⟨drained, failed, by simp [draining]⟩
  | joinCrashed draining tasks => exact ⟨drained, failed, by simp [draining]⟩
  | abort aborting tasks => exact ⟨drained, failed, by simp [aborting]⟩
  | close draining tasks =>
    exact ⟨fun _ => drained (.inl draining), by simp [error?], fun _ _ => tasks⟩
  | closeFailed aborting tasks =>
    refine ⟨by simp, fun e he => failed e ?_, fun _ _ => tasks⟩
    simpa [error?, aborting] using he

/-! ### A run from its start -/

/-- A run of which nothing has happened yet. -/
structure Fresh (o : Run) : Prop where
  running : o.phase = .running
  tasks : o.tasks = []
  items : o.items = []
  stats : o.stats = ⟨0, 0, 0, 0⟩
  unclosed : o.closed = false

theorem fresh_opened (spec : QuerySpec) (cwd : Path) (commandLine : String) (generation : Nat)
    (discards : Bool) (limit : Nat) (lines : List String) (ending : Option Error) :
    Fresh (opened spec cwd commandLine generation discards limit lines ending) :=
  ⟨rfl, rfl, rfl, rfl, rfl⟩

/-- What is known of the run `r` that was started as `o` and has come along a path. -/
structure Course (path : List (Surroundings × Step)) (o r : Run) : Prop where
  kept : Kept o r
  unclosed : r.closed = false
  placed : Placed (fun s step => (s, step) ∈ path) o r
  books : ∃ b : Ledger, b.Sound (fun s step => (s, step) ∈ path) o r

/-- **The invariant of a run**, along every path from its start. -/
theorem course_of_follow? {path : List (Surroundings × Step)} {o r : Run} (fresh : Fresh o)
    (follows : o.follow? path = some r) : Course path o r := by
  refine follow_induction (P := Course path o) ?_ follows ?_
  · exact {
      kept := .refl o
      unclosed := fresh.unclosed
      placed := ⟨by simp [fresh.running], by simp [error?, fresh.running], by simp [fresh.running]⟩
      books := ⟨_, sound_opened fresh.tasks fresh.items fresh.stats⟩ }
  · rintro ⟨s, step⟩ known r r' ⟨kept, unclosed, placed, b, sound⟩ moves
    exact {
      kept := kept.trans moves.kept
      unclosed := moves.kept.closed.trans unclosed
      placed := placed.advance kept known moves
      books := sound.advance kept unclosed known moves }

end Run

end SymbolNav
