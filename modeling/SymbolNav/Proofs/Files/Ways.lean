/-
  SymbolNav/Proofs/Files/Ways.lean
  ================================
  **Directories can be made wherever no file is on the way.**

  A path goes through places, one for each part (`Along`); parts that do not count stay
  where they are (`along_counting`).  A walk ends in a directory if and only if all these
  places are directories (`Paved`).  Where nothing or a directory stands at each of them,
  what is missing can be made, from above (`laid_makeDirectories`).
-/
import SymbolNav.Proofs.Files.Making
import SymbolNav.Proofs.Path.Above

namespace SymbolNav.FileTree

variable {t t' : FileTree} {P Q : Place → Prop} {d : Place} {us ws before : List Part} {w : Part}
  {p : Path}

theorem unusable?_eq_none_iff : unusable? p = none ↔ '\x00' ∉ p.text.toList ∧ p.text ≠ "" := by
  unfold unusable?
  split
  · simp_all
  · split <;> simp_all

/-! ### The places on a way -/

/-- All places on a way have a property: the first one, and the one after each part. -/
def Along (P : Place → Prop) (d : Place) : List Part → Prop
  | [] => P d
  | w :: ws => P d ∧ Along P (stepTo d w) ws

instance Along.decidable [DecidablePred P] : (d : Place) → (ws : List Part) →
    Decidable (Along P d ws)
  | d, [] => inferInstanceAs (Decidable (P d))
  | d, w :: ws =>
    have := Along.decidable (stepTo d w) ws
    inferInstanceAs (Decidable (P d ∧ Along P (stepTo d w) ws))

theorem Along.first (h : Along P d ws) : P d := by
  cases ws with
  | nil => exact h
  | cons w ws => exact h.1

theorem Along.last (h : Along P d ws) : P (ws.foldl stepTo d) := by
  induction ws generalizing d with
  | nil => exact h
  | cons w ws ih => exact ih h.2

theorem Along.imp (h : Along P d ws) (wider : ∀ q, P q → Q q) : Along Q d ws := by
  induction ws generalizing d with
  | nil => exact wider d h
  | cons w ws ih => exact ⟨wider d h.1, ih h.2⟩

theorem along_concat : Along P d (us ++ [w]) ↔ Along P d us ∧ P (stepTo (us.foldl stepTo d) w) := by
  induction us generalizing d with
  | nil => exact Iff.rfl
  | cons u us ih => rw [List.cons_append, Along, Along, ih, and_assoc, List.foldl_cons]

theorem stepTo_of_idle (idle : w.counts = false) (d : Place) : stepTo d w = d :=
  if_pos (by simpa [Part.counts, or_iff_not_imp_left] using idle)

/-- Parts that do not count lead nowhere. -/
theorem along_counting : Along P d (ws.filter Part.counts) ↔ Along P d ws := by
  induction ws generalizing d with
  | nil => exact Iff.rfl
  | cons w ws ih =>
    by_cases counts : w.counts = true
    · rw [List.filter_cons_of_pos counts, Along, Along, ih]
    · have idle : w.counts = false := by simpa using counts
      rw [List.filter_cons_of_neg counts, Along, stepTo_of_idle idle, ih]
      exact ⟨fun h => ⟨h.first, h⟩, And.right⟩

theorem foldl_stepTo_idle (idle : ∀ w ∈ ws, w.counts = false) (d : Place) :
    ws.foldl stepTo d = d := by
  induction ws with
  | nil => rfl
  | cons w ws ih =>
    obtain ⟨here, others⟩ := List.forall_mem_cons.mp idle
    rw [List.foldl_cons, stepTo_of_idle here]
    exact ih others

/-- A path of which the last step is a name leads to that name. -/
theorem place_of_parts (t : FileTree) {idle : List Part} (whole : p.parts = before ++ w :: idle)
    (counts : w.counts = true) (name : w ≠ ['.', '.']) (rest : ∀ v ∈ idle, v.counts = false) :
    t.place p = before.foldl stepTo (t.startOf p) ++ [w] := by
  have filled : w ≠ [] ∧ w ≠ ['.'] := by simpa [Part.counts] using counts
  rw [place, whole, List.foldl_append, List.foldl_cons, foldl_stepTo_idle rest]
  simp [stepTo, filled.1, filled.2, name]

/-! ### Walks through directories -/

/-- There is a directory at each place. -/
abbrev Paved (t : FileTree) : Place → List Part → Prop :=
  Along (fun q => t.entry? q = some .directory)

/-- Nothing but a directory stands there. -/
def Passable (t : FileTree) (q : Place) : Prop :=
  t.entry? q = none ∨ t.entry? q = some .directory

instance (t : FileTree) (q : Place) : Decidable (t.Passable q) :=
  inferInstanceAs (Decidable (_ ∨ _))

theorem walk_of_paved (paved : t.Paved d ws) : t.walk d ws = .ok (ws.foldl stepTo d) := by
  induction ws generalizing d with
  | nil => rfl
  | cons w ws ih => exact walk_cons_eq_ok.mpr ⟨paved.1, ih paved.2⟩

theorem paved_of_walk {q : Place} (walks : t.walk d ws = .ok q)
    (directory : t.entry? q = some .directory) : t.Paved d ws := by
  induction ws generalizing d with
  | nil =>
    cases walks
    exact directory
  | cons w ws ih =>
    obtain ⟨here, rest⟩ := walk_cons_eq_ok.mp walks
    exact ⟨here, ih rest⟩

/-- Where no file is on the way, only something that is missing can keep a walk from ending in a
directory. -/
theorem walk_of_passable (passable : Along t.Passable d ws) (unpaved : ¬t.Paved d ws) :
    t.walk d ws = .error .notFound ∨ ∃ q, t.walk d ws = .ok q ∧ t.entry? q = none := by
  induction ws generalizing d with
  | nil => exact .inr ⟨d, rfl, passable.resolve_right unpaved⟩
  | cons w ws ih =>
    rw [walk]
    rcases passable.1 with missing | directory
    · rw [missing]
      exact .inl rfl
    · rw [directory]
      exact ih passable.2 fun rest => unpaved ⟨directory, rest⟩

theorem target_of_unpaved (usable : unusable? p = none) (whole : p.parts = before ++ [w])
    (filled : w ≠ []) (passable : Along t.Passable (t.startOf p) before)
    (unpaved : ¬t.Paved (t.startOf p) before) : t.target p = .error .notFound := by
  have back : p.parts.reverse.dropWhile (· = []) = w :: before.reverse := by
    rw [whole, List.reverse_append, List.reverse_singleton, List.singleton_append]
    exact List.dropWhile_cons_of_neg (by simpa using filled)
  simp only [target, usable, back, List.reverse_reverse]
  rcases walk_of_passable passable unpaved with fault | ⟨q, walks, missing⟩
  · rw [fault]
  · simp only [walks, missing]

theorem find_of_paved (usable : unusable? p = none) (paved : t.Paved (t.startOf p) p.parts) :
    t.find p = .ok (t.place p, .directory) :=
  find_eq_ok_iff.mpr ⟨usable, walk_of_paved paved, paved.last⟩

theorem Names.of_paved (usable : unusable? p = none) (whole : p.parts = before ++ [w])
    (name : w ≠ [] ∧ w ≠ ['.'] ∧ w ≠ ['.', '.']) (paved : t.Paved (t.startOf p) before) :
    Names t p before w (before.foldl stepTo (t.startOf p)) :=
  ⟨usable, whole, name, walk_of_paved paved, paved.last⟩

theorem Names.paved {q : Place} (names : Names t p before w q) :
    t.Paved (t.startOf p) before :=
  paved_of_walk names.walks names.directory

/-! ### Making what is missing -/

theorem Rooted.dropLast (rooted : t.Rooted) (directory : t.entry? d = some .directory) :
    t.entry? d.dropLast = some .directory := by
  rcases List.eq_nil_or_concat d with rfl | ⟨front, w, rfl⟩
  · exact entry?_root t
  · rw [List.concat_eq_append] at directory ⊢
    rw [List.dropLast_concat]
    exact rooted front w (by simp [directory])

theorem Grown.startOf {places : Place → Prop} (grown : Grown t t' places) (p : Path) :
    t'.startOf p = t.startOf p := by
  rw [FileTree.startOf, FileTree.startOf, grown.here]

theorem Grown.passable {places : Place → Prop} (grown : Grown t t' places) {q : Place}
    (passable : t.Passable q) : t'.Passable q := by
  rcases grown.entries q with same | ⟨-, made, -⟩
  · rwa [Passable, same]
  · exact .inr made

/-- The directories of a way have been made where they were missing, and nothing else. -/
structure Laid (t t' : FileTree) (p : Path) : Prop where
  paved : t'.Paved (t'.startOf p) p.parts
  off : ∀ q, Along (· ≠ q) (t.startOf p) p.parts → t'.entry? q = t.entry? q

/-- The last directory of a way can be made if the others are there. -/
theorem laid_makeDirectory (rooted : t.Rooted) (usable : unusable? p = none)
    (whole : p.parts = before ++ [w]) (counts : w.counts = true)
    (paved : t.Paved (t.startOf p) before) (passable : t.Passable (t.place p)) :
    (t.makeDirectory p = .error .alreadyExists ∧ t.Paved (t.startOf p) p.parts) ∨
      ∃ t', t.makeDirectory p = .ok t' ∧ Laid t t' p := by
  by_cases there : t.Paved (t.startOf p) p.parts
  · exact .inl ⟨makeDirectory_of_find (find_of_paved usable there), there⟩
  refine .inr ?_
  have place : t.place p = stepTo (before.foldl stepTo (t.startOf p)) w := by
    rw [FileTree.place, whole, List.foldl_append, List.foldl_cons, List.foldl_nil]
  have missing : t.entry? (stepTo (before.foldl stepTo (t.startOf p)) w) = none := by
    rw [← place]
    refine passable.resolve_right fun directory => there ?_
    rw [whole]
    exact along_concat.mpr ⟨paved, by rwa [← place]⟩
  have filled : w ≠ [] ∧ w ≠ ['.'] := by simpa [Part.counts] using counts
  have name : w ≠ ['.', '.'] := by
    rintro rfl
    have above := rooted.dropLast paved.last
    exact absurd (above.symm.trans missing) (Option.some_ne_none _)
  have names := Names.of_paved usable whole ⟨filled.1, filled.2, name⟩ paved
  rw [stepTo, if_neg (not_or.mpr filled), if_neg name] at missing
  have made : t.makeDirectory p =
      .ok (t.put (before.foldl stepTo (t.startOf p) ++ [w]) .directory) := by
    simp only [makeDirectory, names.target]
    refine if_neg ?_
    simp [Target.isName, Target.place, filled.2, name, missing]
  have grown := grown_makeDirectory made
  refine ⟨_, made, ?_, fun q off => entry?_put_other ?_⟩
  · rw [grown.startOf, whole]
    refine along_concat.mpr ⟨paved.imp fun q => grown.directory, ?_⟩
    rw [stepTo, if_neg (not_or.mpr filled), if_neg name]
    exact entry?_put_self (by simp)
  · rw [← names.place_eq]
    exact off.last.symm

theorem laid_ensureLast (rooted : t.Rooted) (usable : unusable? p = none)
    (whole : p.parts = before ++ [w]) (counts : w.counts = true)
    (paved : t.Paved (t.startOf p) before) (passable : t.Passable (t.place p)) :
    ∃ t', t.ensureLast p = .ok t' ∧ Laid t t' p := by
  unfold ensureLast
  rcases laid_makeDirectory rooted usable whole counts paved passable with
    ⟨already, there⟩ | ⟨t', made, laid⟩
  · rw [already]
    exact ⟨t, if_pos (isDirectory_iff.mpr ⟨_, find_of_paved usable there⟩), there, fun _ _ => rfl⟩
  · rw [made]
    exact ⟨t', rfl, laid⟩

section Fuel

variable (fuel : Nat)

/-- A path without steps leads to where it starts. -/
theorem makeDirectoriesIn_of_idle (idle : p.parts.filter Part.counts = [])
    (clean : '\x00' ∉ p.text.toList) (start : t.entry? (t.startOf p) = some .directory) :
    makeDirectoriesIn fuel t p = (t, none) ∧ Laid t t p := by
  have paved : t.Paved (t.startOf p) p.parts := by
    rw [Paved, ← along_counting, idle]
    exact start
  refine ⟨?_, paved, fun _ _ => rfl⟩
  by_cases empty : p.text = ""
  · obtain rfl : p = ⟨""⟩ := congrArg Path.mk empty
    unfold makeDirectoriesIn
    exact if_pos rfl
  · have usable := unusable?_eq_none_iff.mpr ⟨clean, empty⟩
    exact makeDirectoriesIn_of_isDirectory
      (isDirectory_iff.mpr ⟨_, find_of_paved usable paved⟩) fuel

theorem unusable?_of_parts (clean : '\x00' ∉ p.text.toList) (whole : p.parts = before ++ [w])
    (counts : w.counts = true) : unusable? p = none :=
  unusable?_eq_none_iff.mpr ⟨clean, (Path.components_ne_nil whole counts).2⟩

theorem makeDirectoriesIn_of_paved (rooted : t.Rooted) (clean : '\x00' ∉ p.text.toList)
    (whole : p.parts = before ++ [w]) (counts : w.counts = true)
    (paved : t.Paved (t.startOf p) before) (passable : t.Passable (t.place p)) :
    ∃ t', makeDirectoriesIn fuel t p = (t', none) ∧ Laid t t' p := by
  have usable := unusable?_of_parts clean whole counts
  rcases laid_makeDirectory rooted usable whole counts paved passable with
    ⟨-, there⟩ | ⟨t', made, laid⟩
  · have directory := isDirectory_iff.mpr ⟨_, find_of_paved usable there⟩
    exact ⟨t, makeDirectoriesIn_of_isDirectory directory fuel, there, fun _ _ => rfl⟩
  · refine ⟨t', ?_, laid⟩
    unfold makeDirectoriesIn
    rw [if_neg (Path.components_ne_nil whole counts).1, made]

/-- Where a directory is missing above, it is made first. -/
theorem makeDirectoriesIn_of_unpaved {above : Path} {t₁ t₂ : FileTree}
    (clean : '\x00' ∉ p.text.toList) (whole : p.parts = before ++ [w])
    (counts : w.counts = true) (unpaved : ¬t.Paved (t.startOf p) before)
    (passable : Along t.Passable (t.startOf p) before) (up : p.parent? = some above)
    (upper : makeDirectoriesIn fuel t above = (t₁, none)) (last : t₁.ensureLast p = .ok t₂) :
    makeDirectoriesIn (fuel + 1) t p = (t₂, none) := by
  have usable := unusable?_of_parts clean whole counts
  have filled : w ≠ [] := by
    rintro rfl
    cases counts
  have missing : t.makeDirectory p = .error .notFound := by
    simp only [makeDirectory, target_of_unpaved usable whole filled passable unpaved]
  unfold makeDirectoriesIn
  rw [if_neg (Path.components_ne_nil whole counts).1, missing]
  simp only [up, upper, last]

end Fuel

section UpTo

variable {above : Path}

theorem startOf_of_upTo (up : above.UpTo p before) (t : FileTree) :
    t.startOf above = t.startOf p := by
  rw [FileTree.startOf, FileTree.startOf, up.absolute]

/-- The path above goes through the places before the last step. -/
theorem along_of_upTo (up : above.UpTo p before) : Along P d above.parts ↔ Along P d before := by
  rw [← along_counting, up.steps, along_counting]

theorem clean_of_upTo (up : above.UpTo p before) (whole : p.parts = before ++ [w])
    (clean : '\x00' ∉ p.text.toList) : '\x00' ∉ above.text.toList := by
  rw [Path.nul_mem_iff, up.steps]
  rintro ⟨v, member, inside⟩
  refine clean (Path.nul_mem_iff.mpr ⟨v, ?_, inside⟩)
  rw [whole, List.filter_append]
  exact List.mem_append_left _ member

end UpTo

/-- With enough fuel for all steps, what is missing is made. -/
theorem laid_makeDirectoriesIn (fuel : Nat) (tidy : p.Tidy) (clean : '\x00' ∉ p.text.toList)
    (rooted : t.Rooted) (start : t.entry? (t.startOf p) = some .directory)
    (passable : Along t.Passable (t.startOf p) p.parts)
    (enough : (p.parts.filter Part.counts).length ≤ fuel) :
    ∃ t', makeDirectoriesIn fuel t p = (t', none) ∧ Laid t t' p := by
  induction fuel generalizing t p with
  | zero =>
    rcases tidy with idle | ⟨before, w, whole, counts⟩
    · exact ⟨t, makeDirectoriesIn_of_idle 0 idle clean start⟩
    · simp [whole, counts] at enough
  | succ fuel ih =>
    rcases tidy with idle | ⟨before, w, whole, counts⟩
    · exact ⟨t, makeDirectoriesIn_of_idle (fuel + 1) idle clean start⟩
    by_cases paved : t.Paved (t.startOf p) before
    · exact makeDirectoriesIn_of_paved (fuel + 1) rooted clean whole counts paved passable.last
    obtain ⟨above, parent, up⟩ := Path.parent?_of_parts whole counts
    have way : Along t.Passable (t.startOf p) before := by
      rw [whole] at passable
      exact (along_concat.mp passable).1
    obtain ⟨t₁, upper, there, off⟩ := ih up.tidy (clean_of_upTo up whole clean) rooted
      (by rwa [startOf_of_upTo up]) (by rwa [startOf_of_upTo up, along_of_upTo up])
      (by simpa [whole, counts, up.steps] using enough)
    have grown := grown_makeDirectoriesIn fuel t above
    rw [upper] at grown
    have here := place_of_here grown.here p
    rw [startOf_of_upTo up, Paved, along_of_upTo up] at there
    obtain ⟨t₂, last, laid⟩ := laid_ensureLast (grown.rooted rooted)
      (unusable?_of_parts clean whole counts) whole counts there
      (here ▸ grown.passable passable.last)
    refine ⟨t₂, makeDirectoriesIn_of_unpaved fuel clean whole counts paved way parent upper last,
      laid.paved, fun q away => ?_⟩
    have before_last : Along (· ≠ q) (t.startOf p) before := by
      rw [whole] at away
      exact (along_concat.mp away).1
    rw [laid.off q (by rwa [grown.startOf]),
      off q (by rwa [startOf_of_upTo up, along_of_upTo up])]

/-- **What is missing on a way without files can be made.** -/
theorem laid_makeDirectories (tidy : p.Tidy) (clean : '\x00' ∉ p.text.toList)
    (rooted : t.Rooted) (start : t.entry? (t.startOf p) = some .directory)
    (passable : Along t.Passable (t.startOf p) p.parts) :
    ∃ t', t.makeDirectories p = (t', none) ∧ Laid t t' p :=
  laid_makeDirectoriesIn _ tidy clean rooted start passable (List.length_filter_le _ _)

end SymbolNav.FileTree
