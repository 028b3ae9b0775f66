/-
  SymbolNav/Proofs/Config/Partial.lean
  ====================================
  **A settings file may say as little as it likes, and is believed in all that it says.**

  What it gives overrides the standard settings, in whatever order and spelling, and
  what it says beside counts for nothing.  The settings are checked as they are then,
  and not as they stand in the file.  A value that a setting cannot have is an error
  whatever else is there, and never the standard value instead (`load_partial`).
-/
import SymbolNav.Proofs.Config.Settings
import SymbolNav.Proofs.Toml.Written

namespace SymbolNav.Config

open Text Toml

/-- Loading gives these settings if they can be used, and refuses them as settings if not. -/
def Loads (files : FileTree) (p : Path) (c : Config) : Prop :=
  (c.Valid → load files p = .ok c) ∧
    (¬c.Valid → ∃ message, load files p = .error (.config message))

section Load

variable {files : FileTree} {p : Path} {s : List Char} {c : Config} {m : Members}

theorem loads_of_ofText? (content : files.read p = .ok (Utf8.encode s))
    (read : ofText? s = some c) : Loads files p c := by
  have loads : load files p = c.checked := by
    rw [load_of_text content, read, Option.elim_some]
  constructor
  · intro valid
    have usable : c.fault? = none := valid
    rw [loads, checked, usable]
  · intro invalid
    obtain ⟨e, fault⟩ := Option.ne_none_iff_exists'.mp invalid
    obtain ⟨message, rfl⟩ := fault?_isConfig fault
    exact ⟨message, by rw [loads, checked, fault]⟩

theorem refused_of_ofText? (content : files.read p = .ok (Utf8.encode s))
    (read : ofText? s = none) : ∃ message, load files p = .error (.config message) :=
  ⟨_, by rw [load_of_text content, read, Option.elim_none]⟩

theorem ofText?_of_document {sts : List Statement} (document : Document s sts) :
    ofText? s = (ofStatements? sts).bind ofMembers? := by
  rw [ofText?, document.read?]

theorem ofText?_of_read (read : read? s = some m) : ofText? s = ofMembers? m := by
  rw [ofText?, read, Option.bind_some]

end Load

/-- **Settings that a file gives override the standard ones.**  The first two parts are about
settings that can be had: given by statements in any order and spelling among others that are
TOML by themselves, or found in the table of whatever text it is.  The other two are about a value
that a setting cannot have: given before the first header, or found in the table. -/
theorem load_partial (files : FileTree) (p : Path) {s : List Char}
    (content : files.read p = .ok (Utf8.encode s)) :
    (∀ c S others sts, Woven c [] S others sts → S.Nodup → (ofStatements? others).isSome →
      Document s sts → Loads files p (c.overridden S)) ∧
    (∀ c S m, read? s = some m →
      (∀ k : Setting, lookup k.key m = if k ∈ S then some (k.value c) else none) →
      Loads files p (c.overridden S)) ∧
    (∀ before k v behind, (∀ st ∈ before, ∃ path x, st = .assign path x) → Setting.Refuses k v →
      Document s (before ++ .assign [k.key] v :: behind) →
      ∃ message, load files p = .error (.config message)) ∧
    (∀ m k v, read? s = some m → lookup (Setting.key k) m = some v → k.Refuses v →
      ∃ message, load files p = .error (.config message)) := by
  refine ⟨?_, ?_, ?_, ?_⟩
  · intro c S others sts woven distinct isToml document
    apply loads_of_ofText? content
    rw [ofText?_of_document document, woven.ofStatements? distinct isToml]
  · intro c S m read gives
    apply loads_of_ofText? content
    rw [ofText?_of_read read, ofMembers?_overridden gives]
  · intro before k v behind assigns refuses document
    apply refused_of_ofText? content
    rw [ofText?_of_document document, ofStatements?_refused assigns refuses]
  · intro m k v read there refuses
    apply refused_of_ofText? content
    rw [ofText?_of_read read, ofMembers?_refused there refuses]

/-- A count in hexadecimal under a quoted key, before a table that has a key of a setting; and a
count that is a string. -/
theorem load_partial_spelled :
    let text := "\"max_concurrent_reads\" = 0x1_0 # sixteen\r\n[tool]\nindexer = false"
    let files : FileTree :=
      ⟨[([['c']], .file (Utf8.encode text.toList) false),
        ([['d']], .file (Utf8.encode "max_concurrent_reads = '8'".toList) false)], []⟩
    load files ⟨"c"⟩ = .ok { standard with maxConcurrentReads := 16 } ∧
      ∃ message, load files ⟨"d"⟩ = .error (.config message) := by
  intro text files
  have none : Blank [] := nofun
  have space : Blank [' '] := by simp [Blank]
  have ends {rest : List Char} : LineEnds ['\n'] rest := .newline none .none .feed
  have last : LineEnds [] [] := .last none .none
  constructor
  · let c : Config := { standard with maxConcurrentReads := 16 }
    have flag : Says "indexer = false".toList [.assign ["indexer"] (.flag false)] := by
      have shape : "indexer = false".toList = [] ++ (("indexer".toList ++
          ([' '] ++ '=' :: ([' '] ++ ['f', 'a', 'l', 's', 'e']))) ++ ([] ++ [])) := by
        decide +kernel
      have named : KeySpells "indexer".toList "indexer" :=
        .bare (by decide) (List.all_eq_true.mp rfl)
      rw [shape]
      exact .assign none (.mk named space space .no) last .nil
    have tool : Says "[tool]\nindexer = false".toList
        [.header ["tool"], .assign ["indexer"] (.flag false)] := by
      have shape : "[tool]\nindexer = false".toList =
          [] ++ ('[' :: ("tool]".toList ++ (['\n'] ++ "indexer = false".toList))) := by
        decide +kernel
      rw [shape]
      exact .other none (.inl rfl) rfl ends flag
    have noted : LineEnds ([' '] ++ (('#' :: " sixteen".toList) ++ ['\r', '\n']))
        "[tool]\nindexer = false".toList :=
      .newline space (.comment (List.all_eq_true.mp rfl)) .returnFeed
    have named : KeySpells ('"' :: ("max_concurrent_reads".toList ++ ['"']))
        "max_concurrent_reads" :=
      .quoted (.inl rfl) (.self (by decide +kernel) rfl (by decide +kernel))
    have one : ('1', 1) ∈ digitValues := .tail _ (.head _)
    have count : Spells ['0', 'x', '1', '_', '0'] (.integer 16) :=
      .integer (.based (.head _) (.apart one (by decide) (.last (.head _) (by decide))))
        (by decide +kernel) (by decide +kernel)
    have document : Document text.toList [.assign [Setting.maxConcurrentReads.key] (.integer 16),
        .header ["tool"], .assign ["indexer"] (.flag false)] := by
      have shape : text.toList = [] ++ ((('"' :: ("max_concurrent_reads".toList ++ ['"'])) ++
          ([' '] ++ '=' :: ([' '] ++ ['0', 'x', '1', '_', '0']))) ++
            (([' '] ++ (('#' :: " sixteen".toList) ++ ['\r', '\n'])) ++
              "[tool]\nindexer = false".toList)) := by decide +kernel
      rw [shape]
      exact .plain (.assign none (.mk named space space count) noted tool)
    have foreign (k : Setting) : some "tool" ≠ some k.key := by cases k <;> decide
    have woven : Woven c [] [.maxConcurrentReads]
        [.header ["tool"], .assign ["indexer"] (.flag false)]
        [.assign [Setting.maxConcurrentReads.key] (.integer 16),
          .header ["tool"], .assign ["indexer"] (.flag false)] :=
      .setting .maxConcurrentReads (.other _ foreign (.other _ foreign .nil))
    have given := (load_partial files ⟨"c"⟩ (s := text.toList) (by decide +kernel)).1 c _ _ _ woven
      (by decide) (by decide +kernel) document
    exact given.1 (by decide +kernel)
  · have named : KeySpells "max_concurrent_reads".toList "max_concurrent_reads" :=
      .bare (by decide) (List.all_eq_true.mp rfl)
    have eight : Spells ['\x27', '8', '\x27'] (.text "8") :=
      .text (.line (w := ['8']) (.inr rfl) (.self (by decide) rfl (by decide)))
    have document : Document "max_concurrent_reads = '8'".toList
        ([] ++ .assign [Setting.maxConcurrentReads.key] (.text "8") :: []) := by
      have shape : "max_concurrent_reads = '8'".toList = [] ++ (("max_concurrent_reads".toList ++
          ([' '] ++ '=' :: ([' '] ++ ['\x27', '8', '\x27']))) ++ ([] ++ [])) := by decide +kernel
      rw [shape]
      exact .plain (.assign none (.mk named space space eight) last .nil)
    have refused := (load_partial files ⟨"d"⟩ (s := "max_concurrent_reads = '8'".toList)
      (by decide +kernel)).2.2.1
    exact refused [] .maxConcurrentReads _ [] nofun (by simp [Setting.Refuses]) document

end SymbolNav.Config
