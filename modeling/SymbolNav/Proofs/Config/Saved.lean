/-
  SymbolNav/Proofs/Config/Saved.lean
  ==================================
  **Settings that were saved are loaded again.**

  The file is a line for each setting (`print_eq`), which says that its key has its value
  (`says_print`), and there is nothing else in it.  Whole numbers that TOML cannot hold
  are the only settings that cannot be written.
-/
import SymbolNav.Proofs.Config.Settings
import SymbolNav.Proofs.Files.Replace
import SymbolNav.Proofs.Toml.Values

namespace SymbolNav.Config

open Text Toml

/-! ### The lines of the file -/

/-- What stands in the file for a setting. -/
def Setting.printed (c : Config) : Setting → List Char
  | .indexer => printText c.indexer
  | .database => printText c.database
  | .buildArgs => printText c.buildArgs
  | .queryArgs => printText c.queryArgs
  | .extensions => printTexts c.extensions
  | .autoBuild => printFlag c.autoBuild
  | .preview => printFlag c.preview
  | .output => printText c.output.name
  | .logLevel => printText c.logLevel
  | .maxConcurrentReads => (toString c.maxConcurrentReads).toList
  | .discardSuperseded => printFlag c.discardSuperseded

theorem print_eq (c : Config) :
    c.print = Setting.all.flatMap fun k => printLine k.key (k.printed c) := by
  simp [print, Setting.all, Setting.key, Setting.printed]

theorem Setting.key_bare (k : Setting) :
    k.key.toList ≠ [] ∧ k.key.toList.all isBare = true := by
  cases k <;> decide

theorem Setting.spells_printed {c : Config} (small : c.maxConcurrentReads < integerBound)
    (k : Setting) : Spells (k.printed c) (k.value c) := by
  cases k with
  | extensions => exact spells_printTexts _
  | autoBuild | preview | discardSuperseded => exact spells_printFlag _
  | maxConcurrentReads =>
    rw [printed, Nat.toString_eq_ofList_toDigits, String.toList_ofList]
    exact spells_toDigits small
  | _ => exact spells_printText _

/-- Lines for some of the settings say these settings and nothing else. -/
theorem says_print {c : Config} (small : c.maxConcurrentReads < integerBound)
    (S : List Setting) :
    Says (S.flatMap fun k => printLine k.key (k.printed c))
      (S.map fun k => .assign [k.key] (k.value c)) := by
  induction S with
  | nil => exact .nil
  | cons k S ih =>
    obtain ⟨nonempty, bare⟩ := k.key_bare
    exact says_printLine nonempty (List.all_eq_true.mp bare) (k.spells_printed small) ih

theorem woven_alone (c : Config) (S : List Setting) :
    Woven c [] S [] (S.map fun k => .assign [k.key] (k.value c)) := by
  induction S with
  | nil => exact .nil
  | cons k S ih => exact .setting k ih

theorem ofText?_print {c : Config} (small : c.maxConcurrentReads < integerBound) :
    ofText? c.print = some c := by
  have document := Document.plain (says_print small Setting.all)
  rw [ofText?, print_eq, document.read?,
    (woven_alone c Setting.all).ofStatements? (by decide) rfl, overridden_all]

/-! ### Saving and loading -/

theorem text_of_small {c : Config} (small : c.maxConcurrentReads < integerBound) :
    c.text = .ok c.print :=
  if_pos small

theorem text_of_large {c : Config} (large : integerBound ≤ c.maxConcurrentReads) :
    c.text = .error (.config "Failed to serialize config: out-of-range value for u64 type") :=
  if_neg (Int.not_lt.mpr large)

/-- The files once the directory of a settings file has been made, and why it could not be. -/
def prepared (files : FileTree) (p : Path) : FileTree × Option FileFault :=
  match p.parent? with
  | some directory => files.makeDirectories directory
  | none => (files, none)

section Save

variable {c : Config} {files files' : FileTree} {p : Path}

theorem save_eq : c.save files p = match prepared files p with
    | (files, some fault) => (files, some (.io fault.message))
    | (files, none) =>
      match c.text with
      | .error e => (files, some e)
      | .ok s => replaceFile files p (Utf8.encode s) := by
  unfold save
  dsimp only
  generalize c.text = t
  rfl

theorem save_of_fault {fault : FileFault} (made : prepared files p = (files', some fault)) :
    c.save files p = (files', some (.io fault.message)) := by
  rw [save_eq, made]

theorem save_of_small (small : c.maxConcurrentReads < integerBound)
    (made : prepared files p = (files', none)) :
    c.save files p = replaceFile files' p (Utf8.encode c.print) := by
  rw [save_eq, made, text_of_small small]

theorem save_of_large (large : integerBound ≤ c.maxConcurrentReads)
    (made : prepared files p = (files', none)) : c.save files p = (files',
      some (.config "Failed to serialize config: out-of-range value for u64 type")) := by
  rw [save_eq, made, text_of_large large]

theorem load_of_save (saved : c.save files p = (files', none)) :
    c.maxConcurrentReads < integerBound ∧ load files' p = c.checked := by
  rcases made : prepared files p with ⟨made, _ | fault⟩
  · by_cases small : c.maxConcurrentReads < integerBound
    · have content := read_replaceFile ((save_of_small small made).symm.trans saved)
      exact ⟨small, by rw [load_of_text content, ofText?_print small, Option.elim_some]⟩
    · cases (save_of_large (Int.not_lt.mp small) made).symm.trans saved
  · cases (save_of_fault made).symm.trans saved

theorem prepared_made (made : ∀ d, p.parent? = some d → (files.makeDirectories d).2 = none) :
    prepared files p = ((prepared files p).1, none) := by
  unfold prepared
  cases above : p.parent? with
  | none => rfl
  | some d => exact Prod.ext rfl (made d above)

theorem prepared_of_isDirectory
    (there : ∀ d, p.parent? = some d → files.isDirectory d = true) :
    prepared files p = (files, none) := by
  unfold prepared
  cases above : p.parent? with
  | none => rfl
  | some d => exact FileTree.makeDirectories_of_isDirectory (there d above)

end Save

/-- **Settings that were saved are loaded again** if they can be used at all, and refused as
settings if not.  What TOML has no number for is never saved. -/
theorem saved_loads (c : Config) (files : FileTree) (p : Path) :
    (∀ files', c.save files p = (files', none) →
      (c.Valid → load files' p = .ok c) ∧
        (¬c.Valid → ∃ message, load files' p = .error (.config message))) ∧
    (integerBound ≤ c.maxConcurrentReads →
      (c.save files p).2 ≠ none ∧
        ((∀ d, p.parent? = some d → (files.makeDirectories d).2 = none) →
          (c.save files p).2 =
            some (.config "Failed to serialize config: out-of-range value for u64 type")) ∧
        ((∀ d, p.parent? = some d → files.isDirectory d = true) →
          c.save files p = (files,
            some (.config "Failed to serialize config: out-of-range value for u64 type")))) := by
  constructor
  · intro files' saved
    obtain ⟨-, loads⟩ := load_of_save saved
    rw [loads, checked]
    constructor
    · intro valid
      have usable : c.fault? = none := valid
      rw [usable]
    · intro invalid
      obtain ⟨e, fault⟩ := Option.ne_none_iff_exists'.mp invalid
      obtain ⟨message, rfl⟩ := fault?_isConfig fault
      exact ⟨message, by rw [fault]⟩
  · intro large
    refine ⟨?_, ?_, ?_⟩
    · intro saved
      have small := (load_of_save (c := c) (p := p) (Prod.ext rfl saved)).1
      exact absurd small (Int.not_lt.mpr large)
    · intro made
      rw [save_of_large large (prepared_made made)]
    · intro there
      exact save_of_large large (prepared_of_isDirectory there)

/-- Marks of both kinds, a backslash, a carriage return and a control character, in strings with
and without a line feed. -/
theorem saved_loads_quoted :
    let files : FileTree := ⟨[([['d']], .directory)], []⟩
    let p : Path := ⟨"d/c.toml"⟩
    let c : Config := { standard with
      indexer := "\n\"\"\"'''\\\r", database := "it's \"\"", buildArgs := "'\n''",
      queryArgs := "\x7f'", extensions := ["", "\t\"\"\""] }
    (∃ files', c.save files p = (files', none) ∧ load files' p = .ok c) ∧
      (∃ files' message, { c with database := " " }.save files p = (files', none) ∧
        load files' p = .error (.config message)) ∧
      { c with maxConcurrentReads := Nat.pow 2 63 }.save files p = (files,
        some (.config "Failed to serialize config: out-of-range value for u64 type")) := by
  intro files p c
  have there : ∀ d, p.parent? = some d → files.isDirectory d = true := by
    intro d above
    have parent : p.parent? = some ⟨"d"⟩ := by decide +kernel
    cases Option.some.inj (above.symm.trans parent)
    decide +kernel
  refine ⟨?_, ?_, ?_⟩
  · have saved : c.save files p = ((c.save files p).1, none) := Prod.ext rfl (by decide +kernel)
    exact ⟨_, saved, ((saved_loads c files p).1 _ saved).1 (by decide +kernel)⟩
  · have saved : { c with database := " " }.save files p =
        (({ c with database := " " }.save files p).1, none) := Prod.ext rfl (by decide +kernel)
    obtain ⟨message, loads⟩ := ((saved_loads _ files p).1 _ saved).2 (by decide +kernel)
    exact ⟨_, message, saved, loads⟩
  · exact ((saved_loads _ files p).2 (by decide +kernel)).2.2 there

end SymbolNav.Config
