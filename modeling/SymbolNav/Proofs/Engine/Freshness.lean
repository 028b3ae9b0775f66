/-
  SymbolNav/Proofs/Engine/Freshness.lean
  ======================================
  **The database is built until it is there, and then no more.**

  The database that is looked for is the one that the indexer is told to make: its path
  joined to the root, and the same path from within the root (`FileTree.isFile_join`).
  So a call that succeeds leaves a database behind (`Engine.indexExists_of_ensureFresh`),
  and as long as nothing is deleted no later call runs the indexer (`Engine.fresh_calls`).
  A call that failed has settled nothing: the next one that finds no database tries again.
-/
import SymbolNav.Build
import SymbolNav.Proofs.Engine.Course
import SymbolNav.Proofs.Files.Joined
import Mathlib.Data.List.Chain

namespace SymbolNav

/-- When the program ends with success, its database is a file, seen from where it ran. -/
def Program.MakesDatabase (program : Program) : Prop :=
  ∀ (flags : List String) (database : String) (files : FileTree),
    let left := program (flags ++ ["-f", database]) files
    left.1.succeeded = true →
      ({ left.2 with here := files.here } : FileTree).isFile ⟨database⟩ = true

namespace Engine

variable {e e' : Engine} {cwd : Path} {es : List Engine} {b : Bool}

/-! ### One call -/

/-- What the system makes of a call that asks for the indexer: it refuses to start it, or the
indexer has run. -/
inductive Attempts (e : Engine) (cwd : Path) : Prop
  | refused {fault : Error}
      (launch : e.host.launch e.config.indexer e.config.buildArgv cwd = .error fault)
      (result : (e.ensureFresh cwd).1 = .error fault)
      (kept : (e.ensureFresh cwd).2.2.host = e.host)
  | ran {response : Response}
      (launch : e.host.launch e.config.indexer e.config.buildArgv cwd =
        .ok (response, (e.ensureFresh cwd).2.2.host))
      (result : (e.ensureFresh cwd).1 = response.output.map (fun _ => true))
      (calls : (e.ensureFresh cwd).2.2.host.calls = e.host.calls ++ [e.config.buildArgv])

theorem ensureFresh_of_indexExists (found : e.indexExists cwd = true) :
    e.ensureFresh cwd = (.ok false, [], e) :=
  if_pos found

/-- Without a database, a call is a build. -/
theorem ensureFresh_of_missing (missing : e.indexExists cwd = false) :
    (e.ensureFresh cwd).1 = (e.startBuild cwd).1.bind (fun r => r.output.map (fun _ => true)) ∧
      (e.ensureFresh cwd).2.2 = (e.startBuild cwd).2 := by
  have cases := builds e cwd
  simp only [ensureFresh, missing, reportedBuild, beginBuild]
  generalize e.startBuild cwd = built at cases ⊢
  cases cases with
  | refused launch | responded launch => exact ⟨rfl, rfl⟩

theorem config_ensureFresh (e : Engine) (cwd : Path) :
    (e.ensureFresh cwd).2.2.config = e.config := by
  cases found : e.indexExists cwd with
  | true => rw [ensureFresh_of_indexExists found]
  | false => rw [(ensureFresh_of_missing found).2, config_startBuild]

theorem attempts_of_missing (missing : e.indexExists cwd = false) : e.Attempts cwd := by
  obtain ⟨result, after⟩ := ensureFresh_of_missing missing
  have cases := builds e cwd
  generalize e.startBuild cwd = built at cases result after
  cases cases with
  | refused launch => exact .refused launch result (by rw [after])
  | @responded response host launch =>
    have host_eq : (e.ensureFresh cwd).2.2.host = host := congrArg Engine.host after
    refine .ran (host_eq.symm ▸ launch) result ?_
    obtain ⟨_, -, -, calls⟩ := Host.of_launch launch
    rw [host_eq, calls]

/-! ### A call that succeeds -/

theorem succeeded_of_output {r : Response} {s : String} (output : r.output = .ok s) :
    r.succeeded = true := by
  unfold Response.output Response.failure? at output
  split at output
  case h_1 => cases output
  case h_2 success => simpa using success

/-- If a call that finds no database succeeds, the indexer has run and ended with success. -/
theorem ran_of_missing (missing : e.indexExists cwd = false)
    (success : (e.ensureFresh cwd).1 = .ok b) :
    b = true ∧ (e.ensureFresh cwd).2.2.host.calls = e.host.calls ++ [e.config.buildArgv] ∧
      ∃ response, response.succeeded = true ∧
        e.host.launch e.config.indexer e.config.buildArgv cwd =
          .ok (response, (e.ensureFresh cwd).2.2.host) := by
  cases attempts_of_missing missing with
  | refused launch result => cases result.symm.trans success
  | @ran response launch result calls =>
    rw [result] at success
    cases output : response.output with
    | error fault => rw [output] at success; cases success
    | ok s =>
      rw [output] at success
      cases success
      exact ⟨rfl, calls, response, succeeded_of_output output, launch⟩

/-- If the call succeeds, it has not taken away the root from which the database is seen. -/
def KeepsRoot (e : Engine) (cwd : Path) : Prop :=
  ∀ b, (e.ensureFresh cwd).1 = .ok b → Path.isAbsolute ⟨e.config.database⟩ = false →
    ∀ d, e.host.files.find cwd = .ok (d, .directory) →
      (e.ensureFresh cwd).2.2.host.files.find cwd = .ok (d, .directory)

/-- A call that deletes nothing keeps the root. -/
theorem keepsRoot_of_undeleted
    (undeleted : e.host.files.Undeleted (e.ensureFresh cwd).2.2.host.files) : e.KeepsRoot cwd :=
  fun _ _ _ _ there => undeleted.find_directory there

/-- The file that the indexer has made is the one that is looked for. -/
theorem indexExists_of_ensureFresh (makes : e.host.program.MakesDatabase) (root : e.KeepsRoot cwd)
    (success : (e.ensureFresh cwd).1 = .ok b) : (e.ensureFresh cwd).2.2.indexExists cwd = true := by
  cases found : e.indexExists cwd with
  | true => rwa [ensureFresh_of_indexExists found]
  | false =>
    obtain ⟨-, -, response, succeeded, launch⟩ := ran_of_missing found success
    obtain ⟨d, there, responds, leaves⟩ := Host.of_launch launch
    have made := makes _ _ _ (responds ▸ succeeded)
    rw [indexExists, config_ensureFresh, Config.databasePath]
    by_cases absolute : Path.isAbsolute ⟨e.config.database⟩ = true
    · rw [show cwd.join ⟨e.config.database⟩ = _ from if_pos absolute, leaves]
      rw [FileTree.isFile_here_of_isAbsolute absolute] at made ⊢
      exact made
    · have still := root b success (by simpa using absolute) d there
      rw [FileTree.isFile_join still, leaves]
      exact made

/-! ### Calls one after another -/

/-- The second engine is the first one at a later time, and meanwhile nothing has been deleted and
the settings have kept the database.  Everything else may be another. -/
structure Later (e e' : Engine) : Prop where
  database : e'.config.database = e.config.database
  undeleted : e.host.files.Undeleted e'.host.files

theorem Later.indexExists (later : Later e e') (found : e.indexExists cwd = true) :
    e'.indexExists cwd = true := by
  unfold Engine.indexExists Config.databasePath at found ⊢
  rw [later.database]
  exact later.undeleted.isFile found

/-- The engines are those at the calls, one after another. -/
def Calls (cwd : Path) (es : List Engine) : Prop :=
  es.IsChain (fun e e' => Later (e.ensureFresh cwd).2.2 e')

/-- Once a call has left a database behind, every later call finds it. -/
theorem indexExists_of_calls (calls : Calls cwd (e :: es))
    (found : (e.ensureFresh cwd).2.2.indexExists cwd = true) :
    ∀ e' ∈ es, e'.indexExists cwd = true := by
  induction es generalizing e with
  | nil => simp
  | cons f es ih =>
    obtain ⟨later, calls⟩ := List.isChain_cons_cons.mp calls
    have next : f.indexExists cwd = true := later.indexExists found
    refine List.forall_mem_cons.mpr ⟨next, ih calls ?_⟩
    rwa [ensureFresh_of_indexExists next]

/-- What holds of each call. -/
structure FreshCall (e : Engine) (cwd : Path) : Prop where
  /-- If it succeeds, the database is there. -/
  found : ∀ b, (e.ensureFresh cwd).1 = .ok b → (e.ensureFresh cwd).2.2.indexExists cwd = true
  /-- If it succeeds, it says whether the indexer has run. -/
  ran_iff : ∀ b, (e.ensureFresh cwd).1 = .ok b →
    (b = true ↔ (e.ensureFresh cwd).2.2.host.calls = e.host.calls ++ [e.config.buildArgv])
  /-- If it says that the indexer has not, nothing has changed. -/
  idle : (e.ensureFresh cwd).1 = .ok false → (e.ensureFresh cwd).2.2 = e
  /-- If there is no database, the indexer is to run. -/
  attempts : e.indexExists cwd = false → e.Attempts cwd

theorem freshCall (makes : e.host.program.MakesDatabase) (root : e.KeepsRoot cwd) :
    e.FreshCall cwd where
  found := fun _ success => indexExists_of_ensureFresh makes root success
  ran_iff := by
    intro b success
    cases found : e.indexExists cwd with
    | true =>
      rw [ensureFresh_of_indexExists found] at success ⊢
      cases success
      simp
    | false =>
      obtain ⟨rfl, calls, -⟩ := ran_of_missing found success
      exact iff_of_true rfl calls
  idle := by
    intro success
    cases found : e.indexExists cwd with
    | true => rw [ensureFresh_of_indexExists found]
    | false => cases (ran_of_missing found success).1
  attempts := attempts_of_missing

/-- **A database is built once.**

Whatever calls are made for a root, with nothing deleted in between, by an indexer that makes its
database whenever it ends with success: a call that succeeds leaves the database behind and says
whether the indexer has run; one that finds no database, as after a failed call, has the indexer
run; and after the first that succeeds no call does anything. -/
theorem fresh_calls (cwd : Path) (es : List Engine) (calls : Calls cwd es)
    (makes : ∀ e ∈ es, e.host.program.MakesDatabase) (root : ∀ e ∈ es, e.KeepsRoot cwd) :
    (∀ e ∈ es, e.FreshCall cwd) ∧
      es.Pairwise (fun e e' => (∃ b, (e.ensureFresh cwd).1 = .ok b) →
        e'.ensureFresh cwd = (.ok false, [], e')) := by
  have each : ∀ e ∈ es, e.FreshCall cwd :=
    fun e member => freshCall (makes e member) (root e member)
  refine ⟨each, ?_⟩
  induction es with
  | nil => exact .nil
  | cons e es ih =>
    obtain ⟨now, others⟩ := List.forall_mem_cons.mp each
    refine List.pairwise_cons.mpr ⟨?_, ?_⟩
    · rintro e' member ⟨b, success⟩
      exact ensureFresh_of_indexExists (indexExists_of_calls calls (now.found b success) e' member)
    · exact ih (List.IsChain.tail calls) (List.forall_mem_cons.mp makes).2
        (List.forall_mem_cons.mp root).2 others

namespace Sample

/-! A database in a directory that is left again at once, and has to be there all the same. -/

/-- It writes the file that its last argument names, and fails where it cannot. -/
def maker : Program := fun args files =>
  match files.write ⟨args.getLast?.getD ""⟩ [] with
  | .ok files => (⟨[], [], some 0⟩, files)
  | .error _ => (⟨[], [], some 1⟩, files)

theorem makesDatabase_maker : maker.MakesDatabase := by
  intro flags database files left succeeded
  have last : (flags ++ ["-f", database]).getLast?.getD "" = database := by simp
  cases writes : files.write ⟨database⟩ [] with
  | error fault => simp [left, maker, writes, Response.succeeded] at succeeded
  | ok files' =>
    have here : files'.here = files.here := by
      obtain ⟨_, _, _, _, -, -, rfl⟩ := FileTree.of_write writes
      rfl
    simpa [left, maker, last, writes, ← here] using FileTree.isFile_of_write writes

def project : Path := ⟨"/p/."⟩

def workshop : Host where
  files := ⟨[([['i']], .file [] true), ([['p']], .directory)], []⟩
  searchPath := []
  program := maker
  calls := []
  sources := none

/-- The directory on the way to the database is missing. -/
def early : Engine := new workshop { Config.standard with indexer := "/i", database := "out/../db" }

/-- After the call, somebody has made it. -/
def ready : Engine :=
  let e := (early.ensureFresh project).2.2
  { e with host := { e.host with files := e.host.files.put [['p'], ['o', 'u', 't']] .directory } }

def settled : Engine := (ready.ensureFresh project).2.2

end Sample

open Sample in
/-- A call fails, the next one builds the database, and the one after it finds it. -/
theorem fresh_calls_retried :
    (early.ensureFresh project).1.toOption = none ∧ (ready.ensureFresh project).1 = .ok true ∧
      settled.ensureFresh project = (.ok false, [], settled) := by
  have kept : (early.ensureFresh project).2.2.host.files = early.host.files := by decide +kernel
  have made : (ready.ensureFresh project).2.2.host.files =
      ready.host.files.put [['p'], ['d', 'b']] (.file [] false) := by decide +kernel
  have built : (ready.ensureFresh project).1 = .ok true := by rfl
  have found : settled.indexExists project = true := by decide +kernel
  have calls : Calls project [early, ready, settled] :=
    .cons_cons ⟨rfl, FileTree.undeleted_put (by decide +kernel) _⟩
      (.cons_cons ⟨rfl, .refl _⟩ (.singleton _))
  have keeps : ∀ e ∈ [early, ready, settled], e.KeepsRoot project := by
    simp only [List.forall_mem_cons]
    refine ⟨keepsRoot_of_undeleted ?_, keepsRoot_of_undeleted ?_, keepsRoot_of_undeleted ?_,
      List.forall_mem_nil _⟩
    · rw [kept]
      exact .refl _
    · rw [made]
      exact FileTree.undeleted_put (by decide +kernel) _
    · rw [ensureFresh_of_indexExists found]
      exact .refl _
  have makes : ∀ e ∈ [early, ready, settled], e.host.program.MakesDatabase := by
    simp only [List.forall_mem_cons]
    exact ⟨makesDatabase_maker, makesDatabase_maker, makesDatabase_maker, List.forall_mem_nil _⟩
  have fresh := fresh_calls project [early, ready, settled] calls makes keeps
  refine ⟨by decide +kernel, built, ?_⟩
  have after := (List.pairwise_cons.mp (List.pairwise_cons.mp fresh.2).2).1
  exact after settled (List.mem_singleton_self settled) ⟨true, built⟩

end Engine

end SymbolNav
