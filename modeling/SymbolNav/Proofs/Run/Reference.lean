/-
  SymbolNav/Proofs/Run/Reference.lean
  ===================================
  **What a run comes to, told without tasks**: the lines are read in order, those
  that are hits are resolved one after the other, and the items are what that
  gives (`QuerySpec.itemsOf`, `QuerySpec.statsOf`).

  A run that discards no result resolves every hit once
  (`Course.exists_outcomes`), and so comes to the same, up to the order of its
  items, as long as its source lines come from one reader
  (`Course.settled_complete`).  Where results may be dropped, what is left is a
  part of it (`Course.items_subperm`), and the counters still add up
  (`Course.conserved`).
-/
import Mathlib.Data.List.Perm.Subperm
import SymbolNav.Proofs.Run.Ledger

namespace SymbolNav

/-- The items that hits resolve to, in the order of the hits.  A hit whose source line cannot be
read has none. -/
def QuerySpec.itemsOf (spec : QuerySpec) (reader : SourceReader) (root : Path)
    (hits : List Hit) : List Item :=
  hits.filterMap (fun hit => (spec.resolve reader root hit).value?)

/-- The counters of lines that are read and resolved one after the other. -/
def QuerySpec.statsOf (spec : QuerySpec) (reader : SourceReader) (root : Path)
    (lines : List String) : Stats where
  hits := (Hit.ofLines lines).length
  droppedLines := lines.countP (fun line => (Hit.parse line).toOption.isNone)
  droppedItems :=
    (Hit.ofLines lines).countP (fun hit => (spec.resolve reader root hit).value?.isNone)
  discarded := 0

namespace Run

/-- The lines that the run `r`, started as `o`, has read. -/
def consumed (o r : Run) : List String := o.unread.take (o.unread.length - r.unread.length)

/-! ### Results -/

section Result

variable {r : Run} {latest : Nat}

theorem result?_eq_ok {s : Settled} : r.result? latest = some (.ok s) ↔
    r.phase = .settled none ∧
      s = ⟨r.spec, r.cwd, r.items.reverse, r.stats, r.supersededAt latest⟩ := by
  unfold result?
  split
  case h_1 e settled => simp [settled]
  case h_2 settled => simp [settled, eq_comm]
  case h_3 unsettled other => exact ⟨nofun, fun h => absurd h.1 other⟩

theorem result?_eq_error {e : Error} :
    r.result? latest = some (.error e) ↔ r.phase = .settled (some e) := by
  unfold result?
  split
  case h_1 e' settled => simp [settled]
  case h_2 settled => simp [settled]
  case h_3 unsettled other => exact ⟨nofun, fun h => absurd h (unsettled e)⟩

end Result

/-! ### Entries, counted by fate -/

theorem entries_length (entries : List Entry) :
    entries.length = (entries.filterMap (·.fate.item?)).length +
      entries.countP (·.fate = .dropped) + entries.countP (·.fate = .discarded) +
      entries.countP (·.fate = .aborted) := by
  induction entries with
  | nil => rfl
  | cons x entries ih =>
    obtain ⟨hit, fate⟩ := x
    cases fate <;> simp [Fate.item?, ih] <;> omega

/-- The hits that were kept, each with its item. -/
def origins (entries : List Entry) : List (Hit × Item) :=
  entries.filterMap (fun x => x.fate.item?.map (fun item => (x.hit, item)))

theorem map_snd_origins (entries : List Entry) :
    (origins entries).map Prod.snd = entries.filterMap (·.fate.item?) := by
  rw [origins, List.map_filterMap]
  refine List.filterMap_congr (fun x _ => ?_)
  cases x.fate.item? <;> rfl

/-- A hit that was kept has one item. -/
theorem map_fst_origins (entries : List Entry) :
    ((origins entries).map Prod.fst).Sublist (entries.map Entry.hit) := by
  induction entries with
  | nil => exact .refl _
  | cons x entries ih =>
    cases kept : x.fate.item? with
    | none => simpa [origins, kept] using ih.cons x.hit
    | some item => simpa [origins, kept] using ih.cons_cons x.hit

/-! ### The run -/

section Course

variable {path : List (Surroundings × Step)} {o r : Run}

theorem Ledger.Sound.read_eq {Known : Surroundings → Step → Prop} {b : Ledger}
    (h : b.Sound Known o r) : b.read = consumed o r := by
  simp [consumed, h.lines]

theorem Course.consumed_append (h : Course path o r) : consumed o r ++ r.unread = o.unread := by
  obtain ⟨b, sound⟩ := h.books
  rw [← sound.read_eq, sound.lines]

theorem countP_isNone_add {α β : Type} (f : α → Option β) (l : List α) :
    l.countP (fun a => (f a).isNone) + (l.filterMap f).length = l.length := by
  induction l with
  | nil => rfl
  | cons a l ih => cases fa : f a <;> simp [fa] <;> omega

/-- **Conservation of lines**: a line that was read is a hit or none. -/
theorem Course.lines_eq (h : Course path o r) :
    (consumed o r).length = r.stats.hits + r.stats.droppedLines := by
  obtain ⟨b, sound⟩ := h.books
  have lines := countP_isNone_add (fun line => (Hit.parse line).toOption) b.read
  rw [← sound.read_eq, sound.accepted, sound.rejected, Hit.ofLines]
  omega

/-- **Conservation of hits**: a hit has an item, was dropped or discarded, or is still pending,
as long as the run has not given up. -/
theorem Course.conserved (h : Course path o r) (carriesOn : r.error? = none) :
    r.stats.hits =
      r.items.length + r.stats.droppedItems + r.stats.discarded + r.pending.length := by
  obtain ⟨b, sound⟩ := h.books
  have total := sound.hits.length_eq
  have fates := entries_length b.entries
  have unaborted : b.entries.countP (·.fate = .aborted) = 0 := by
    refine List.countP_eq_zero.mpr (fun x hx fate => ?_)
    have gaveUp := sound.aborted x hx (by simpa using fate)
    simp [carriesOn] at gaveUp
  simp only [List.length_append, List.length_map] at total
  rw [sound.accepted, sound.items, sound.dropped, sound.discarded]
  omega

/-- Nothing is discarded by a run whose results never come too late. -/
theorem Course.discarded_eq_zero (h : Course path o r)
    (keeps : ∀ x ∈ path, o.dropsAt x.1.latest = false) : r.stats.discarded = 0 := by
  obtain ⟨b, sound⟩ := h.books
  rw [sound.discarded]
  refine List.countP_eq_zero.mpr (fun x hx fate => ?_)
  have honest := sound.honest x hx
  simp only [decide_eq_true_eq] at fate
  simp only [Entry.Honest, fate] at honest
  obtain ⟨s, step, known, drops⟩ := honest
  simp [keeps _ known] at drops

/-- **An item belongs to one hit**, and is what that hit resolved to when its source line was
read; no hit has two items. -/
theorem Course.exists_origins (h : Course path o r) :
    ∃ origins : List (Hit × Item), origins.map Prod.snd = r.items ∧
      (origins.map Prod.fst).Subperm (Hit.ofLines (consumed o r)) ∧
      ∀ x ∈ origins, ∃ y ∈ path, o.resolution y.1.reader x.1 = .value x.2 := by
  obtain ⟨b, sound⟩ := h.books
  refine ⟨origins b.entries, ?_, ?_, ?_⟩
  · rw [map_snd_origins, sound.items]
  · have part := (map_fst_origins b.entries).trans (List.sublist_append_left _ r.pending)
    rw [← sound.read_eq]
    exact part.subperm.trans sound.hits.symm.subperm
  · intro x hx
    obtain ⟨entry, member, found⟩ := List.mem_filterMap.mp hx
    obtain ⟨item, kept, rfl⟩ := Option.map_eq_some_iff.mp found
    have honest := sound.honest entry member
    cases fate : entry.fate with
    | kept item' =>
      obtain rfl : item' = item := by simpa [fate, Fate.item?] using kept
      simp only [Entry.Honest, fate] at honest
      obtain ⟨s, step, known, resolves⟩ := honest
      exact ⟨(s, step), known, resolves⟩
    | dropped | discarded | aborted => simp [fate, Fate.item?] at kept

/-- **A run that has settled well and discarded nothing has resolved every hit**: each has its
item, in the order in which the items came, or its source line could not be read. -/
theorem Course.exists_outcomes (h : Course path o r) (settled : r.phase = .settled none)
    (undiscarded : r.stats.discarded = 0) :
    ∃ outcomes : List (Hit × Option Item),
      (Hit.ofLines o.unread).Perm (outcomes.map Prod.fst) ∧
      r.items.reverse = outcomes.filterMap Prod.snd ∧
      r.stats.droppedItems = outcomes.countP (fun x => x.2.isNone) ∧
      ∀ x ∈ outcomes, ∃ y ∈ path, (o.resolution y.1.reader x.1).value? = x.2 := by
  obtain ⟨b, sound⟩ := h.books
  have unread : r.unread = [] := (h.placed.drained (.inr settled)).1
  have pending : r.pending = [] := by simp [Run.pending, h.placed.finished _ settled]
  have read : b.read = o.unread := by simpa [unread] using sound.lines.symm
  have undiscarded : ∀ x ∈ b.entries, x.fate ≠ .discarded := by
    rw [sound.discarded] at undiscarded
    intro x hx
    simpa using List.countP_eq_zero.mp undiscarded x hx
  have unaborted : ∀ x ∈ b.entries, x.fate ≠ .aborted := by
    intro x hx aborted
    simpa [error?, settled] using sound.aborted x hx aborted
  refine ⟨(b.entries.map (fun x => (x.hit, x.fate.item?))).reverse, ?_, ?_, ?_, ?_⟩
  · have hits := sound.hits
    rw [read, pending, List.append_nil] at hits
    rw [List.map_reverse, List.map_map]
    exact hits.trans (List.reverse_perm _).symm
  · rw [sound.items, List.filterMap_reverse, List.filterMap_map]
    rfl
  · rw [sound.dropped, List.countP_reverse, List.countP_map]
    refine List.countP_congr (fun x hx => ?_)
    have kept := undiscarded x hx
    have carried := unaborted x hx
    cases fate : x.fate <;> simp_all [Fate.item?]
  · intro x hx
    obtain ⟨entry, member, rfl⟩ := List.mem_map.mp (List.mem_reverse.mp hx)
    have honest := sound.honest entry member
    cases fate : entry.fate with
    | kept item =>
      simp only [Entry.Honest, fate] at honest
      obtain ⟨s, step, known, resolves⟩ := honest
      exact ⟨(s, step), known, by simp [resolves, Outcome.value?, Fate.item?]⟩
    | dropped =>
      simp only [Entry.Honest, fate] at honest
      obtain ⟨s, step, known, fails⟩ := honest
      exact ⟨(s, step), known, by simp [fails, Fate.item?]⟩
    | discarded => exact absurd fate (undiscarded entry member)
    | aborted => exact absurd fate (unaborted entry member)

section OneReader

variable {reader : SourceReader} (reads : ∀ x ∈ path, x.1.reader = reader)

include reads

/-- **The items are a part of the reference**, when every source line came from one reader. -/
theorem Course.items_subperm (h : Course path o r) :
    r.items.Subperm (o.spec.itemsOf reader o.cwd (Hit.ofLines (consumed o r))) := by
  obtain ⟨origins, items, ⟨hits, perm, part⟩, resolved⟩ := h.exists_origins
  have resolve : o.spec.itemsOf reader o.cwd (origins.map Prod.fst) = r.items := by
    rw [← items, QuerySpec.itemsOf, List.filterMap_map, ← List.filterMap_eq_map]
    refine List.filterMap_congr (fun x hx => ?_)
    obtain ⟨y, known, resolves⟩ := resolved x hx
    rw [reads y known] at resolves
    show (o.resolution reader x.1).value? = some x.2
    rw [resolves]
    rfl
  rw [← resolve]
  exact ⟨_, perm.filterMap _, part.filterMap _⟩

/-- **A run that has settled well and discarded nothing has come to the reference.** -/
theorem Course.settled_complete (h : Course path o r) (settled : r.phase = .settled none)
    (undiscarded : r.stats.discarded = 0) :
    r.items.reverse.Perm (o.spec.itemsOf reader o.cwd (Hit.ofLines o.unread)) ∧
      r.stats = o.spec.statsOf reader o.cwd o.unread := by
  obtain ⟨outcomes, hits, items, dropped, resolved⟩ := h.exists_outcomes settled undiscarded
  have outcome : ∀ x ∈ outcomes, (o.spec.resolve reader o.cwd x.1).value? = x.2 := by
    intro x hx
    obtain ⟨y, known, resolves⟩ := resolved x hx
    rw [reads y known] at resolves
    exact resolves
  have whole : o.spec.itemsOf reader o.cwd (outcomes.map Prod.fst) = r.items.reverse := by
    rw [items, QuerySpec.itemsOf, List.filterMap_map]
    exact List.filterMap_congr outcome
  constructor
  · rw [← whole]
    exact (hits.filterMap (fun hit => (o.spec.resolve reader o.cwd hit).value?)).symm
  · obtain ⟨b, sound⟩ := h.books
    have unread : r.unread = [] := (h.placed.drained (.inr settled)).1
    have read : b.read = o.unread := by simpa [unread] using sound.lines.symm
    have accepted : r.stats.hits = (Hit.ofLines o.unread).length := read ▸ sound.accepted
    have rejected := read ▸ sound.rejected
    have unreadable : r.stats.droppedItems = (Hit.ofLines o.unread).countP
        (fun hit => (o.spec.resolve reader o.cwd hit).value?.isNone) := by
      rw [dropped, hits.countP_eq, List.countP_map]
      refine List.countP_congr (fun x hx => ?_)
      simp [outcome x hx]
    calc r.stats = ⟨r.stats.hits, r.stats.droppedLines, r.stats.droppedItems, r.stats.discarded⟩ :=
          rfl
      _ = o.spec.statsOf reader o.cwd o.unread := by
          rw [accepted, rejected, unreadable, undiscarded]
          rfl

end OneReader

/-- A run that has given up did so for the way in which the process ended, or because its output
could not be read. -/
theorem Course.error_cases (h : Course path o r) {e : Error} (gaveUp : r.error? = some e) :
    o.ending = some e ∨ ∃ s message, (s, .breakOff message) ∈ path ∧ e = .io message := by
  rcases h.placed.failed e gaveUp with ⟨-, ending⟩ | broken
  · exact .inl ending
  · exact .inr broken

end Course

end Run

end SymbolNav
