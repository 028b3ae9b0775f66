/-
  SymbolNav/Proofs/Config/Repair.lean
  ===================================
  **What starting over with the standard settings comes to.**

  `config init` writes the standard settings, and with `--force` also over a file that is
  there.  But it gets its own settings first, as every command does (`Context.of`).  So a
  file that cannot be loaded ends it before it can write (`runProgram_of_broken`), and
  only what is no obstacle to loading is ever replaced (`Intact`).
-/
import SymbolNav.Commands
import SymbolNav.Proofs.Config.Writable

namespace SymbolNav

open Text CommandLine

namespace Config

variable {files : FileTree} {p : Path}

/-! ### What can be loaded -/

/-- Nothing is there, or a file with settings that can be used. -/
def Intact (files : FileTree) (p : Path) : Prop :=
  files.contains p = false ∨ ∃ bytes s c, files.read p = .ok bytes ∧
    Utf8.decode? bytes = some s ∧ ofText? s = some c ∧ c.Valid

theorem checked_eq_ok_iff {c c' : Config} : c.checked = .ok c' ↔ c.Valid ∧ c = c' := by
  unfold checked Valid
  cases c.fault? <;> simp

/-- What cannot be loaded is a file that is no UTF-8, no settings, or no settings that can be
used. -/
theorem intact_iff : Intact files p ↔ ∃ c, load files p = .ok c := by
  unfold Intact load
  cases there : files.contains p with
  | false => simp
  | true =>
    cases content : files.read p with
    | error fault => simp
    | ok bytes =>
      cases text : Utf8.decode? bytes with
      | none => simp [text]
      | some s =>
        cases settings : ofText? s with
        | none => simp [text, settings]
        | some c => simp [text, settings, checked_eq_ok_iff]

end Config

/-! ### Getting the settings -/

section Launch

variable {s : Launch} {i : Invocation} {p : Path} {c : Context} {config : Config} {force : Bool}

theorem Context.of_broken {e : Error} (path : i.config.or s.userConfig = some p)
    (broken : Config.load s.host.files p = .error e) : Context.of s i = .error e := by
  simp only [Context.of, path, broken]
  rfl

theorem FileTree.canonical?_of_contains {t : FileTree} (there : t.contains p = true) :
    ∃ q, t.canonical? p = some q := by
  unfold contains at there
  unfold canonical?
  cases found : t.find p with
  | error fault =>
    rw [found] at there
    cases there
  | ok standing => exact ⟨_, rfl⟩

theorem Context.exists_of_loads (path : i.config.or s.userConfig = some p)
    (loads : Config.load s.host.files p = .ok config)
    (root : s.host.files.contains (i.root.getD s.host.files.here.path) = true) :
    ∃ c, Context.of s i = .ok c ∧ c.configPath = some p := by
  obtain ⟨q, canonical⟩ := FileTree.canonical?_of_contains root
  simp only [Context.of, path, loads, bind, Except.bind, canonical]
  exact ⟨_, rfl, rfl⟩

/-! ### Writing the standard settings -/

theorem Context.initConfig_of_there {host : Host} (path : c.configPath = some p)
    (there : host.files.contains p = true) :
    c.initConfig host false = ⟨.failed (.config (p.text ++
      " already exists (use --force to overwrite)")), [], host⟩ := by
  simp [initConfig, path, there]

theorem Context.initConfig_of_saved {host : Host} {files : FileTree} (path : c.configPath = some p)
    (may : force = true ∨ host.files.contains p = false)
    (saved : Config.standard.save host.files p = (files, none)) :
    c.initConfig host force = ⟨.value ("Wrote " ++ p.text ++ "\n"), [], { host with files }⟩ := by
  have goes : (host.files.contains p && !force) = false := by
    rcases may with rfl | free
    · simp
    · simp [free]
  simp only [initConfig, path, goes, saved]
  rfl

/-! ### The whole program -/

variable {words : List String}

/-- **A file that cannot be loaded ends the program**, whatever it was to do. -/
theorem runProgram_of_broken (logs : Bool) {e : Error}
    (read : CommandLine.read s.environment words = .ok i)
    (path : i.config.or s.userConfig = some p) (broken : Config.load s.host.files p = .error e) :
    runProgram s logs words = .ofError s.host [] e := by
  simp only [runProgram, read, Context.of_broken path broken]

/-- The words ask for the standard settings to be written to `p`, and the project root is there. -/
structure Launch.Asks (s : Launch) (words : List String) (i : Invocation) (force : Bool)
    (p : Path) : Prop where
  read : CommandLine.read s.environment words = .ok i
  command : i.command = .initConfig force
  path : i.config.or s.userConfig = some p
  root : s.host.files.contains (i.root.getD s.host.files.here.path) = true

theorem exists_runProgram_of_loads (logs : Bool) (asks : s.Asks words i force p)
    (loads : Config.load s.host.files p = .ok config) :
    ∃ (c : Context) (warnings : List String), c.configPath = some p ∧
      runProgram s logs words = .ofReport warnings (c.initConfig s.host force) := by
  obtain ⟨c, starts, configPath⟩ := Context.exists_of_loads asks.path loads asks.root
  refine ⟨c, if logs then logWarnings c else [], configPath, ?_⟩
  simp only [runProgram, asks.read, starts, asks.command, Context.run]

theorem Error.exitStatus_pos (e : Error) : 0 < e.exitStatus := by
  cases e <;> exact Nat.succ_pos _

theorem Ending.fails_ofError (host : Host) (notes : List String) (e : Error) :
    (Ending.ofError host notes e).status ≠ 0 ∧ (Ending.ofError host notes e).host = host :=
  ⟨e.exitStatus_pos.ne', rfl⟩

/-- The program has written the standard settings to the file, and said so. -/
structure Ending.Renews (ending : Ending) (p : Path) : Prop where
  status : ending.status = 0
  stdout : ending.stdout = "Wrote " ++ p.text ++ "\n"
  loads : Config.load ending.host.files p = .ok .standard

theorem renews_of_loads (logs : Bool) {before : List Part} {w : Part}
    (asks : s.Asks words i force p) (rooted : s.host.files.Rooted)
    (here : s.host.files.entry? s.host.files.here = some .directory)
    (writable : Config.Writable s.host.files p before w)
    (loads : Config.load s.host.files p = .ok config)
    (may : force = true ∨ s.host.files.contains p = false) :
    (runProgram s logs words).Renews p := by
  obtain ⟨c, warnings, configPath, runs⟩ := exists_runProgram_of_loads logs asks loads
  obtain ⟨files, saved⟩ := Config.save_of_writable (c := .standard) rooted here writable
    (by decide)
  have content := (Config.load_of_save saved).2
  rw [runs, Context.initConfig_of_saved configPath may saved]
  exact ⟨rfl, rfl, content⟩

/-- **What the program does to start over with the standard settings**, wherever they can be
written.

If it is to write over what is there, it does so if and only if what is there could be loaded; a
file that is broken in any way ends it with the error of loading, and stays as it is.  If it is
not, it writes the settings if and only if nothing is there, and otherwise leaves everything as it
is. -/
theorem init_renews_iff (logs : Bool) {before : List Part} {w : Part}
    (asks : s.Asks words i force p) (rooted : s.host.files.Rooted)
    (here : s.host.files.entry? s.host.files.here = some .directory)
    (writable : Config.Writable s.host.files p before w) :
    let ending := runProgram s logs words
    (force = true →
      (Config.Intact s.host.files p → ending.Renews p) ∧
      (¬Config.Intact s.host.files p → ∃ e, Config.load s.host.files p = .error e ∧
        ending = .ofError s.host [] e ∧ ending.status ≠ 0)) ∧
    (force = false →
      (s.host.files.contains p = false → ending.Renews p) ∧
      (s.host.files.contains p = true → ending.status ≠ 0 ∧ ending.host = s.host)) := by
  intro ending
  have broken {e : Error} (broken : Config.load s.host.files p = .error e) :
      ending = .ofError s.host [] e ∧ ending.status ≠ 0 := by
    have ends : ending = .ofError s.host [] e :=
      runProgram_of_broken logs asks.read asks.path broken
    rw [ends]
    exact ⟨rfl, (Ending.fails_ofError _ _ _).1⟩
  have renews (intact : Config.Intact s.host.files p)
      (may : force = true ∨ s.host.files.contains p = false) : ending.Renews p := by
    obtain ⟨config, loads⟩ := Config.intact_iff.mp intact
    exact renews_of_loads logs asks rooted here writable loads may
  refine ⟨fun forced => ⟨fun intact => renews intact (.inl forced), fun damaged => ?_⟩,
    fun kept => ⟨fun free => renews (.inl free) (.inr free), fun there => ?_⟩⟩
  · cases loads : Config.load s.host.files p with
    | ok config => exact absurd (Config.intact_iff.mpr ⟨config, loads⟩) damaged
    | error e => exact ⟨e, rfl, broken loads⟩
  · cases loads : Config.load s.host.files p with
    | error e =>
      rw [(broken loads).1]
      exact Ending.fails_ofError _ _ _
    | ok config =>
      obtain ⟨c, warnings, configPath, runs⟩ := exists_runProgram_of_loads logs asks loads
      rw [kept, Context.initConfig_of_there configPath there] at runs
      have ends : ending = _ := runs
      rw [ends]
      exact Ending.fails_ofError _ _ _

namespace Launch.Sample

/-! A settings file `c` in the working directory, of which the content is left open. -/

def forcing : List String := ["config", "init", "--force", "--config", "c"]

def starting (content : List UInt8) : Launch where
  host := { files := ⟨[([['r']], .directory), ([['r'], ['c']], .file content false)], [['r']]⟩
            searchPath := [], program := fun _ files => (⟨[], [], some 0⟩, files)
            calls := [], sources := none }
  userConfig := none
  environment := none

/-- A comment. -/
def harmless : List UInt8 := [0x23]

/-- Settings without an indexer. -/
def damaged : List UInt8 := Utf8.encode "indexer = \"\"\n".toList

theorem writable (content : List UInt8) :
    Config.Writable (starting content).host.files ⟨"c"⟩ [] ['c'] where
  clean := by decide
  parts := by decide
  name := by decide
  way := .inr rfl
  free := by
    have there : (starting content).host.files.entry? [['r'], ['c']] =
        some (.file content false) := rfl
    have missing : (starting content).host.files.entry? [['r'], "c.tmp".toList] = none := rfl
    have place : (starting content).host.files.place ⟨"c"⟩ = [['r'], ['c']] := by rfl
    have place' : (starting content).host.files.place (Config.temporary ⟨"c"⟩) =
        [['r'], "c.tmp".toList] := by rfl
    intro f both
    rcases List.mem_pair.mp both with rfl | rfl
    · rw [place, there]
      exact ⟨by simp, (by decide : [['r']] ≠ [['r'], ['c']])⟩
    · rw [place', missing]
      exact ⟨by simp, (by decide : [['r']] ≠ [['r'], "c.tmp".toList])⟩

theorem asks {content : List UInt8}
    (root : (starting content).host.files.contains ⟨"/r"⟩ = true) :
    (starting content).Asks forcing ⟨.initConfig true, some ⟨"c"⟩, none, .text, false⟩ true
      ⟨"c"⟩ where
  read := by
    show CommandLine.read none forcing = _
    decide +kernel
  command := rfl
  path := rfl
  root := root

theorem rooted (content : List UInt8) : (starting content).host.files.Rooted := by
  apply FileTree.rooted_of_entries
  intro f listed
  rcases List.mem_pair.mp listed with rfl | rfl <;> rfl

end Launch.Sample

open Launch.Sample in
/-- A comment is written over, and settings without an indexer are not. -/
theorem init_renews_iff_forced :
    let s := starting harmless
    let t := starting damaged
    (Config.Intact s.host.files ⟨"c"⟩ ∧ (runProgram s true forcing).Renews ⟨"c"⟩) ∧
      ¬Config.Intact t.host.files ⟨"c"⟩ ∧ (runProgram t true forcing).status ≠ 0 := by
  intro s t
  have intact : Config.Intact s.host.files ⟨"c"⟩ :=
    .inr ⟨harmless, ['#'], .standard, by decide +kernel⟩
  have broken : Config.load t.host.files ⟨"c"⟩ = .error (.config "indexer must not be empty") := by
    decide +kernel
  have damages : ¬Config.Intact t.host.files ⟨"c"⟩ := by
    rw [Config.intact_iff, broken]
    rintro ⟨c, loads⟩
    cases loads
  obtain ⟨forced, -⟩ := init_renews_iff true (asks (by decide +kernel)) (rooted harmless) rfl
    (writable harmless)
  obtain ⟨forced', -⟩ := init_renews_iff true (asks (by decide +kernel)) (rooted damaged) rfl
    (writable damaged)
  obtain ⟨-, -, -, fails⟩ := (forced' rfl).2 damages
  exact ⟨⟨intact, (forced rfl).1 intact⟩, damages, fails⟩

open Launch.Sample in
/-- Settings without an indexer cannot be overwritten, though the file could be written. -/
theorem init_force_keeps_damaged :
    let s := starting damaged
    Config.Writable s.host.files ⟨"c"⟩ [] ['c'] ∧ s.host.files.read ⟨"c"⟩ = .ok damaged ∧
      s.host.files.isDirectory s.host.files.here.path = true ∧
      (runProgram s true forcing).status = 2 ∧
      (runProgram s true forcing).host.files = s.host.files ∧
      Config.load (runProgram s true forcing).host.files ⟨"c"⟩ ≠ .ok .standard := by
  intro s
  exact ⟨writable damaged, by decide +kernel⟩

end Launch

end SymbolNav
