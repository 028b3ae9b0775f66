/-
  SymbolNav/Proofs/Config/Settings.lean
  =====================================
  **What a table says about the settings**, whatever else it says.

  Each setting has a key of its own, and only what stands under it counts
  (`ofMembers?_overridden`, `ofMembers?_refused`).  The statements of a file are those
  that give settings their values, shuffled with others (`Woven`).  Reading them runs
  beside reading the others alone: both agree under every key that is not one of a
  setting.
-/
import SymbolNav.ConfigFile
import SymbolNav.Proofs.Files.Tree
import SymbolNav.Proofs.Text.Encode
import SymbolNav.Proofs.Toml.Tables

namespace SymbolNav.Config

open Text Toml

inductive Setting
  | indexer
  | database
  | buildArgs
  | queryArgs
  | extensions
  | autoBuild
  | preview
  | output
  | logLevel
  | maxConcurrentReads
  | discardSuperseded
deriving DecidableEq, Repr

namespace Setting

def all : List Setting :=
  [.indexer, .database, .buildArgs, .queryArgs, .extensions, .autoBuild, .preview, .output,
    .logLevel, .maxConcurrentReads, .discardSuperseded]

theorem mem_all (k : Setting) : k ∈ all := by
  cases k <;> decide

def key : Setting → String
  | .indexer => "indexer"
  | .database => "database"
  | .buildArgs => "build_args"
  | .queryArgs => "query_args"
  | .extensions => "extensions"
  | .autoBuild => "auto_build"
  | .preview => "preview"
  | .output => "output"
  | .logLevel => "log_level"
  | .maxConcurrentReads => "max_concurrent_reads"
  | .discardSuperseded => "discard_superseded"

theorem key_injective {k k' : Setting} (same : k.key = k'.key) : k = k' := by
  have apart : ∀ k ∈ all, ∀ k' ∈ all, k.key = k'.key → k = k' := by decide
  exact apart k (mem_all k) k' (mem_all k') same

def value (c : Config) : Setting → Toml
  | .indexer => .text c.indexer
  | .database => .text c.database
  | .buildArgs => .text c.buildArgs
  | .queryArgs => .text c.queryArgs
  | .extensions => .array (c.extensions.map .text)
  | .autoBuild => .flag c.autoBuild
  | .preview => .flag c.preview
  | .output => .text c.output.name
  | .logLevel => .text c.logLevel
  | .maxConcurrentReads => .integer c.maxConcurrentReads
  | .discardSuperseded => .flag c.discardSuperseded

/-- The setting cannot have this value: it is of another type, a negative count, or no name of
a shape of results. -/
def Refuses : Setting → Toml → Prop
  | .indexer, v | .database, v | .buildArgs, v | .queryArgs, v | .logLevel, v =>
    ∀ s, v ≠ .text s
  | .extensions, v => ∀ ss : List String, v ≠ .array (ss.map .text)
  | .autoBuild, v | .preview, v | .discardSuperseded, v => ∀ b, v ≠ .flag b
  | .maxConcurrentReads, v => ∀ n : Nat, v ≠ .integer n
  | .output, v => ∃ s, v = .text s ∧ ∀ mode : OutputMode, s ≠ mode.name

/-- A table that is refused stays one, however much is added to it. -/
theorem Refuses.grows {k : Setting} {v v' : Toml} (refuses : k.Refuses v) (grows : Grows v v') :
    k.Refuses v' := by
  cases grows with
  | same => exact refuses
  | table => cases k <;> simp_all [Refuses]
  | tables => cases k <;> simp_all [Refuses]

end Setting

/-- The standard settings, except that these are as in `c`. -/
def overridden (c : Config) (S : List Setting) : Config where
  indexer := if .indexer ∈ S then c.indexer else standard.indexer
  database := if .database ∈ S then c.database else standard.database
  buildArgs := if .buildArgs ∈ S then c.buildArgs else standard.buildArgs
  queryArgs := if .queryArgs ∈ S then c.queryArgs else standard.queryArgs
  extensions := if .extensions ∈ S then c.extensions else standard.extensions
  autoBuild := if .autoBuild ∈ S then c.autoBuild else standard.autoBuild
  preview := if .preview ∈ S then c.preview else standard.preview
  output := if .output ∈ S then c.output else standard.output
  logLevel := if .logLevel ∈ S then c.logLevel else standard.logLevel
  maxConcurrentReads :=
    if .maxConcurrentReads ∈ S then c.maxConcurrentReads else standard.maxConcurrentReads
  discardSuperseded :=
    if .discardSuperseded ∈ S then c.discardSuperseded else standard.discardSuperseded

theorem overridden_all (c : Config) : c.overridden Setting.all = c := by
  simp [overridden, Setting.mem_all]

/-! ### What counts -/

section Members

variable {c : Config} {S : List Setting} {m : Members} {k : Setting} {v : Toml}

theorem strings?_texts (ss : List String) : strings? (.array (ss.map .text)) = some ss := by
  simp only [strings?]
  induction ss with
  | nil => rfl
  | cons s ss ih => simp [string?, ih]

theorem texts_of_strings? {ss : List String} (h : strings? v = some ss) :
    v = .array (ss.map .text) := by
  cases v with
  | array items =>
    simp only [strings?] at h
    congr 1
    induction items generalizing ss with
    | nil =>
      cases Option.some.inj h
      rfl
    | cons item items ih =>
      rw [List.mapM_cons] at h
      obtain ⟨s, first, h⟩ := Option.bind_eq_some_iff.mp h
      obtain ⟨ss', others, h⟩ := Option.bind_eq_some_iff.mp h
      cases Option.some.inj h
      rw [List.map_cons, ← ih others]
      cases item with
      | text s' =>
        cases Option.some.inj first
        rfl
      | _ => cases first
  | _ => cases h

theorem outputMode?_name (mode : OutputMode) : outputMode? (.text mode.name) = some mode := by
  cases mode with
  | list => rfl
  | tree => rfl

theorem orDefault_ite {α : Type} {read : Toml → Option α} {x : Toml} {a d : α} {p : Prop}
    [Decidable p] (reads : read x = some a) :
    orDefault read d (if p then some x else none) = some (if p then a else d) := by
  by_cases there : p
  · simp [there, orDefault, reads]
  · simp [there, orDefault]

/-- **Settings that a table gives are read from it, and all others are the standard ones.** -/
theorem ofMembers?_overridden
    (gives : ∀ k : Setting, lookup k.key m = if k ∈ S then some (k.value c) else none) :
    ofMembers? m = some (c.overridden S) := by
  have count : count? (.integer c.maxConcurrentReads) = some c.maxConcurrentReads := by
    simp [count?]
  have text (p : Prop) [Decidable p] (s d : String) :
      orDefault string? d (if p then some (.text s) else none) = some (if p then s else d) :=
    orDefault_ite rfl
  have flag (p : Prop) [Decidable p] (b d : Bool) :
      orDefault flag? d (if p then some (.flag b) else none) = some (if p then b else d) :=
    orDefault_ite rfl
  have indexer : lookup "indexer" m = _ := gives .indexer
  have database : lookup "database" m = _ := gives .database
  have buildArgs : lookup "build_args" m = _ := gives .buildArgs
  have queryArgs : lookup "query_args" m = _ := gives .queryArgs
  have extensions : lookup "extensions" m = _ := gives .extensions
  have autoBuild : lookup "auto_build" m = _ := gives .autoBuild
  have preview : lookup "preview" m = _ := gives .preview
  have output : lookup "output" m = _ := gives .output
  have logLevel : lookup "log_level" m = _ := gives .logLevel
  have maxConcurrentReads : lookup "max_concurrent_reads" m = _ := gives .maxConcurrentReads
  have discardSuperseded : lookup "discard_superseded" m = _ := gives .discardSuperseded
  simp only [ofMembers?, Setting.value, indexer, database, buildArgs, queryArgs, extensions,
    autoBuild, preview, output, logLevel, maxConcurrentReads, discardSuperseded, text, flag,
    orDefault_ite (strings?_texts _), orDefault_ite (outputMode?_name _), orDefault_ite count]
  rfl

/-- **One value that a setting cannot have makes the whole table unreadable.** -/
theorem ofMembers?_refused (there : lookup k.key m = some v) (refuses : k.Refuses v) :
    ofMembers? m = none := by
  cases read : ofMembers? m with
  | none => rfl
  | some c =>
    exfalso
    simp only [ofMembers?, Option.bind_eq_bind, Option.bind_eq_some_iff] at read
    obtain ⟨_, indexer, _, database, _, buildArgs, _, queryArgs, _, extensions, _, autoBuild, _,
      preview, _, output, _, logLevel, _, maxConcurrentReads, _, discardSuperseded, -⟩ := read
    have text {d s : String} (h : orDefault string? d (some v) = some s) : v = .text s := by
      cases v <;> simp_all [orDefault, string?]
    have flag {d b : Bool} (h : orDefault flag? d (some v) = some b) : v = .flag b := by
      cases v <;> simp_all [orDefault, flag?]
    cases k
    all_goals simp only [Setting.key] at there
    · exact refuses _ (text (there ▸ indexer))
    · exact refuses _ (text (there ▸ database))
    · exact refuses _ (text (there ▸ buildArgs))
    · exact refuses _ (text (there ▸ queryArgs))
    · exact refuses _ (texts_of_strings? (there ▸ extensions))
    · exact refuses _ (flag (there ▸ autoBuild))
    · exact refuses _ (flag (there ▸ preview))
    · obtain ⟨s, rfl, other⟩ := refuses
      rw [there] at output
      simp only [orDefault, outputMode?, OutputMode.ofName?] at output
      have list : s ≠ "list" := other .list
      have tree : s ≠ "tree" := other .tree
      rw [if_neg list, if_neg tree] at output
      cases output
    · exact refuses _ (text (there ▸ logLevel))
    · rw [there] at maxConcurrentReads
      cases v with
      | integer n =>
        simp only [orDefault, count?] at maxConcurrentReads
        by_cases pos : 0 ≤ n
        · exact refuses n.toNat (by rw [Int.toNat_of_nonneg pos])
        · rw [if_neg pos] at maxConcurrentReads
          cases maxConcurrentReads
      | _ => cases maxConcurrentReads
    · exact refuses _ (flag (there ▸ discardSuperseded))

end Members

/-! ### Settings among other statements -/

/-- The statements that give these settings the values that they have in `c`, in this order,
among others: none of the others is about a setting, and settings are given before the first
header. -/
inductive Woven (c : Config) :
    (current : List String) → List Setting → (others : List Statement) → List Statement → Prop
  | nil {current : List String} : Woven c current [] [] []
  | setting {S : List Setting} {F sts : List Statement} (k : Setting) (rest : Woven c [] S F sts) :
      Woven c [] (k :: S) F (.assign [k.key] (k.value c) :: sts)
  | other {current : List String} {S : List Setting} {F sts : List Statement} (st : Statement)
      (unknown : ∀ k : Setting, (st.place current).head? ≠ some k.key)
      (rest : Woven c (st.next current) S F sts) : Woven c current S (st :: F) (st :: sts)

def IsKnown (key : String) : Prop := ∃ k : Setting, k.key = key

section Woven

variable {c : Config} {S : List Setting} {F sts A B : List Statement} {current : List String}
  {k : Setting} {v : Toml} {r r' r₁ : Reading}

theorem beside_setting (beside : Beside IsKnown r r') (outermost : r.current = [])
    (value : Toml) : Beside IsKnown ⟨replace k.key value r.members, []⟩ r' where
  current := by rw [← beside.current, outermost]
  members := by
    intro key unknown
    have apart : k.key ≠ key := fun same => unknown ⟨k, same⟩
    rw [lookup_replace, if_neg apart, beside.members key unknown]

theorem Woven.run (woven : Woven c current S F sts) (distinct : S.Nodup)
    (beside : Beside IsKnown r r') (there : r.current = current)
    (fresh : ∀ k ∈ S, lookup k.key r.members = none)
    (others : F.foldlM Reading.add? r' = some r₁) :
    ∃ r₂, sts.foldlM Reading.add? r = some r₂ ∧ ∀ k : Setting,
      lookup k.key r₂.members = if k ∈ S then some (k.value c) else lookup k.key r.members := by
  induction woven generalizing r r' with
  | nil => exact ⟨r, rfl, by simp⟩
  | @setting S F sts k woven ih =>
    obtain ⟨new, distinct⟩ := List.nodup_cons.mp distinct
    have added : r.add? (.assign [k.key] (k.value c)) =
        some ⟨replace k.key (k.value c) r.members, []⟩ := by
      have adds := Reading.add?_assign (fresh k List.mem_cons_self) (k.value c)
      rw [← there] at adds ⊢
      exact adds
    obtain ⟨r₂, run, lookups⟩ := ih distinct (beside_setting beside there (k.value c)) rfl
      (by
        intro k' member
        have apart : k.key ≠ k'.key := by
          intro same
          exact new (Setting.key_injective same ▸ member)
        rw [lookup_replace, if_neg apart]
        exact fresh k' (List.mem_cons_of_mem k member)) others
    refine ⟨r₂, ?_, ?_⟩
    · rw [List.foldlM_cons, added]
      exact run
    · intro k'
      rw [lookups k', lookup_replace]
      by_cases same : k = k'
      · subst same
        simp [new]
      · have apart : k.key ≠ k'.key := fun keys => same (Setting.key_injective keys)
        simp [apart, Ne.symm same]
  | @other current S F sts st unknown woven ih =>
    rw [List.foldlM_cons] at others
    obtain ⟨r₁', adds, others⟩ := Option.bind_eq_some_iff.mp others
    have foreign : ∀ key ∈ (st.place r.current).head?, ¬IsKnown key := by
      rintro key first ⟨k, rfl⟩
      exact unknown k (there ▸ first)
    obtain ⟨r₂, added, beside₂, kept⟩ := beside.step foreign adds
    have next : r₂.current = st.next current := by
      rw [Reading.current_of_add? added, there]
    obtain ⟨r₃, run, lookups⟩ := ih distinct beside₂ next
      (fun k member => (kept _ ⟨k, rfl⟩).trans (fresh k member)) others
    refine ⟨r₃, ?_, ?_⟩
    · rw [List.foldlM_cons, added]
      exact run
    · intro k
      rw [lookups k, kept _ ⟨k, rfl⟩]

/-- **Settings among other statements are read as if they stood alone**, if the others can be
read at all. -/
theorem Woven.ofStatements? (woven : Woven c [] S F sts) (distinct : S.Nodup)
    (others : (ofStatements? F).isSome) :
    (ofStatements? sts).bind ofMembers? = some (c.overridden S) := by
  rw [Toml.ofStatements?, Option.isSome_map] at others
  obtain ⟨r₁, others⟩ := Option.isSome_iff_exists.mp others
  obtain ⟨r₂, run, lookups⟩ := woven.run distinct ⟨rfl, fun _ _ => rfl⟩ rfl
    (fun _ _ => rfl) others
  rw [Toml.ofStatements?, run]
  exact ofMembers?_overridden lookups

theorem current_of_assigns (assigns : ∀ st ∈ A, ∃ path v, st = .assign path v)
    (run : A.foldlM Reading.add? r = some r') (outermost : r.current = []) : r'.current = [] := by
  refine Reading.run_induction (P := fun r => r.current = []) ?_ run outermost
  intro st member r₁ r₂ outermost₁ adds
  obtain ⟨path, v, rfl⟩ := assigns st member
  exact (Reading.current_of_add? adds).trans outermost₁

/-- **A value that a setting cannot have is not passed over**, whatever stands around it. -/
theorem ofStatements?_refused (assigns : ∀ st ∈ A, ∃ path x, st = .assign path x)
    (refuses : k.Refuses v) :
    (ofStatements? (A ++ .assign [k.key] v :: B)).bind ofMembers? = none := by
  cases table : ofStatements? (A ++ .assign [k.key] v :: B) with
  | none => rfl
  | some m =>
    obtain ⟨r₃, run, rfl⟩ := Option.map_eq_some_iff.mp table
    rw [List.foldlM_append] at run
    obtain ⟨r₁, before, run⟩ := Option.bind_eq_some_iff.mp run
    rw [List.foldlM_cons] at run
    obtain ⟨r₂, adds, behind⟩ := Option.bind_eq_some_iff.mp run
    have given : lookup k.key r₂.members = some v := by
      have outermost : r₁.current = [] := current_of_assigns assigns before rfl
      simp only [Reading.add?, outermost, within?, assign?] at adds
      obtain ⟨members, change, rfl⟩ := Option.map_eq_some_iff.mp adds
      cases there : lookup k.key r₁.members with
      | none =>
        simp [there] at change
        simp [← change, lookup_replace]
      | some w => simp [there] at change
    obtain ⟨v', there, grows⟩ := Reading.grows_run behind given
    exact ofMembers?_refused there (refuses.grows grows)

end Woven

/-! ### Files -/

theorem fault?_isConfig {c : Config} {e : Error} (h : c.fault? = some e) :
    ∃ message, e = .config message := by
  unfold fault? at h
  split at h
  · exact ⟨_, (Option.some.inj h).symm⟩
  split at h
  · exact ⟨_, (Option.some.inj h).symm⟩
  split at h
  · exact ⟨_, (Option.some.inj h).symm⟩
  · cases h

theorem load_of_text {files : FileTree} {p : Path} {s : List Char}
    (content : files.read p = .ok (Utf8.encode s)) :
    load files p =
      (ofText? s).elim (.error (.config ("Failed to parse " ++ p.text))) checked := by
  unfold load
  rw [if_pos (FileTree.contains_of_read content), content]
  dsimp only
  rw [Utf8.decode?_encode]
  dsimp only
  cases ofText? s with
  | none => rfl
  | some c => rfl

end SymbolNav.Config
