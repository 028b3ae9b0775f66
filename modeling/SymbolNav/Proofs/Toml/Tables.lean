/-
  SymbolNav/Proofs/Toml/Tables.lean
  =================================
  **A statement concerns one member of the outermost table**: the one under the first
  part of its path.

  Whether a statement is possible depends on what stands under that key alone, and
  nothing else is changed (`ActsAt`, `actsAt_change?`).  So two readings that differ
  under other keys take the same statements (`Beside.step`), and a member that is no
  table stays what it is (`Grows`).
-/
import SymbolNav.Toml.Table
import Mathlib.Tactic.Common

namespace SymbolNav.Toml

/-! ### Members -/

section Members

variable {members : Members}

theorem lookup_cons (key : String) (m : String × Toml) (members : Members) :
    lookup key (m :: members) = if m.1 = key then some m.2 else lookup key members := by
  unfold lookup
  by_cases same : m.1 = key
  · simp [same]
  · simp [same]

theorem any_eq_isSome_lookup (key : String) (members : Members) :
    members.any (fun m => m.1 = key) = (lookup key members).isSome := by
  rw [lookup, Option.isSome_map, List.isSome_find?]

theorem lookup_append (key : String) (members others : Members) :
    lookup key (members ++ others) = (lookup key members).or (lookup key others) := by
  rw [lookup, lookup, lookup, List.find?_append, Option.map_or]

theorem lookup_map (key k : String) (value : Toml) (members : Members) :
    lookup k (members.map fun m => if m.1 = key then (key, value) else m) =
      if key = k then (lookup key members).map (fun _ => value) else lookup k members := by
  induction members with
  | nil => simp [lookup]
  | cons m members ih =>
    rw [List.map_cons, lookup_cons, lookup_cons, lookup_cons, ih]
    by_cases same : m.1 = key
    · by_cases asked : key = k
      · simp [same, asked]
      · simp [same, asked]
    · by_cases asked : key = k
      · subst asked
        simp [same]
      · simp [same, asked]

/-- What stands under one key is replaced, and nothing else. -/
theorem lookup_replace (key k : String) (value : Toml) (members : Members) :
    lookup k (replace key value members) = if key = k then some value else lookup k members := by
  unfold replace
  rw [any_eq_isSome_lookup]
  cases there : lookup key members with
  | none =>
    rw [Option.isSome_none, if_neg (by simp), lookup_append, lookup_cons]
    by_cases asked : key = k
    · subst asked
      simp [there]
    · simp [asked, lookup]
  | some v =>
    rw [Option.isSome_some, if_pos rfl, lookup_map, there]
    rfl

end Members

/-! ### Changes under one key -/

/-- What may become of a member: only a table is added to. -/
inductive Grows : Toml → Toml → Prop
  | same (v : Toml) : Grows v v
  | table {origin origin' : Origin} {members members' : Members} :
      Grows (.table origin members) (.table origin' members')
  | tables {elements elements' : List Members} : Grows (.tables elements) (.tables elements')

theorem Grows.trans {u v w : Toml} (first : Grows u v) (second : Grows v w) : Grows u w := by
  cases first with
  | same => exact second
  | table =>
    cases second with
    | same => exact .table
    | table => exact .table
  | tables =>
    cases second with
    | same => exact .tables
    | tables => exact .tables

theorem grows_table {origin origin' : Origin} {members : Members} {inner : Option Members}
    {v : Toml} (grown : inner.map (.table origin') = some v) : Grows (.table origin members) v := by
  obtain ⟨_, -, rfl⟩ := Option.map_eq_some_iff.mp grown
  exact .table

theorem grows_tables {elements : List Members} {others : Option (List Members)} {v : Toml}
    (grown : others.map .tables = some v) : Grows (.tables elements) v := by
  obtain ⟨_, -, rfl⟩ := Option.map_eq_some_iff.mp grown
  exact .tables

/-- The change reads and writes nothing but what stands under the key. -/
def ActsAt (key : String) (change : Members → Option Members) : Prop :=
  ∃ write : Option Toml → Option Toml,
    (∀ members, change members =
      (write (lookup key members)).map (fun v => replace key v members)) ∧
    ∀ v v', write (some v) = some v' → Grows v v'

section ActsAt

variable {key : String} {path : List String} {change : Members → Option Members} {value : Toml}

/-- What becomes of a member on the way to something further in. -/
def writeWithin? (change : Members → Option Members) (path : List String) :
    Option Toml → Option Toml
  | none => (within? change path []).map (.table .implied)
  | some (.tables elements) => (changeLast? (within? change path) elements).map .tables
  | some (.table .braces _) => none
  | some (.table origin inner) => (within? change path inner).map (.table origin)
  | some _ => none

theorem actsAt_within? (change : Members → Option Members) (key : String) (path : List String) :
    ActsAt key (within? change (key :: path)) := by
  refine ⟨writeWithin? change path, ?_, ?_⟩
  · intro members
    rw [within?]
    cases lookup key members with
    | none => simp [writeWithin?, Function.comp_def]
    | some v =>
      cases v with
      | tables elements => simp [writeWithin?, Function.comp_def]
      | table origin inner => cases origin <;> simp [writeWithin?, Function.comp_def]
      | _ => rfl
  · intro v v' grown
    cases v with
    | tables elements => exact grows_tables grown
    | table origin inner =>
      cases origin with
      | braces => cases grown
      | _ => exact grows_table grown
    | _ => cases grown

def writeTable? : Option Toml → Option Toml
  | none => some (.table .header [])
  | some (.table .implied inner) => some (.table .header inner)
  | some _ => none

theorem actsAt_openTable? (key : String) : ActsAt key (openTable? key) := by
  refine ⟨writeTable?, ?_, ?_⟩
  · intro members
    rw [openTable?]
    cases lookup key members with
    | none => rfl
    | some v =>
      cases v with
      | table origin inner => cases origin <;> rfl
      | _ => rfl
  · intro v v' grown
    cases v with
    | table origin inner =>
      cases origin with
      | implied =>
        cases Option.some.inj grown
        exact .table
      | _ => cases grown
    | _ => cases grown

def writeElement? : Option Toml → Option Toml
  | none => some (.tables [[]])
  | some (.tables elements) => some (.tables (elements ++ [[]]))
  | some _ => none

theorem actsAt_addTable? (key : String) : ActsAt key (addTable? key) := by
  refine ⟨writeElement?, ?_, ?_⟩
  · intro members
    rw [addTable?]
    cases lookup key members with
    | none => rfl
    | some v => cases v <;> rfl
  · intro v v' grown
    cases v with
    | tables elements =>
      cases Option.some.inj grown
      exact .tables
    | _ => cases grown

/-- What becomes of a member that is given a value, directly or further in. -/
def writeValue? (value : Toml) (inDotted isDotted : Bool) :
    (path : List String) → Option Toml → Option Toml
  | [], none => if isDotted && !inDotted then none else some value
  | path@(_ :: _), none => (assign? value path true true []).map (.table .dotted)
  | path@(_ :: _), some (.tables elements) =>
    (changeLast? (assign? value path false true) elements).map .tables
  | path@(_ :: _), some (.table .implied inner) =>
    (assign? value path false true inner).map (.table .implied)
  | path@(_ :: _), some (.table .dotted inner) =>
    (assign? value path true true inner).map (.table .dotted)
  | _, some _ => none

theorem actsAt_assign? (value : Toml) (key : String) (path : List String)
    (inDotted isDotted : Bool) : ActsAt key (assign? value (key :: path) inDotted isDotted) := by
  refine ⟨writeValue? value inDotted isDotted path, ?_, ?_⟩
  · intro members
    cases path with
    | nil =>
      rw [assign?]
      cases lookup key members with
      | none =>
        rw [writeValue?]
        cases isDotted && !inDotted <;> rfl
      | some v => simp [writeValue?]
    | cons key' path =>
      rw [assign?]
      · cases lookup key members with
        | none => simp [writeValue?, Function.comp_def]
        | some v =>
          cases v with
          | tables elements => simp [writeValue?, Function.comp_def]
          | table origin inner => cases origin <;> simp [writeValue?, Function.comp_def]
          | _ => rfl
      · simp
  · intro v v' grown
    cases path with
    | nil => cases grown
    | cons key' path =>
      cases v with
      | tables elements => exact grows_tables grown
      | table origin inner =>
        cases origin with
        | implied => exact grows_table grown
        | dotted => exact grows_table grown
        | _ => cases grown
      | _ => cases grown

end ActsAt

/-! ### Statements -/

/-- The way from the outermost table to what a statement is about. -/
def Statement.place (current : List String) : Statement → List String
  | .header path => path
  | .element path => path
  | .assign path _ => current ++ path

/-- The way to the table that the keys behind a statement belong to. -/
def Statement.next (current : List String) : Statement → List String
  | .header path => path
  | .element path => path
  | .assign _ _ => current

/-- What a statement does to the members of the outermost table. -/
def Statement.change? (current : List String) : Statement → Members → Option Members
  | .header path, members =>
    path.getLast?.bind fun key => within? (openTable? key) path.dropLast members
  | .element path, members =>
    path.getLast?.bind fun key => within? (addTable? key) path.dropLast members
  | .assign path value, members => within? (assign? value path false false) current members

section Statements

variable {current : List String} {st : Statement} {key : String} {r r' : Reading}

theorem Reading.add?_eq (r : Reading) (st : Statement) :
    r.add? st = (st.change? r.current r.members).map (⟨·, st.next r.current⟩) := by
  cases st with
  | header path =>
    rw [add?, Statement.change?]
    cases path.getLast? <;> rfl
  | element path =>
    rw [add?, Statement.change?]
    cases path.getLast? <;> rfl
  | assign path value => rfl

/-- What is done at the end of a path is done under its first key. -/
theorem actsAt_last {change : String → Members → Option Members}
    (acts : ∀ key, ActsAt key (change key)) {path : List String} (first : path.head? = some key) :
    ActsAt key fun members =>
      path.getLast?.bind fun last => within? (change last) path.dropLast members := by
  match path, first with
  | [_], rfl => exact acts key
  | _ :: k :: path, rfl =>
    cases ends : (key :: k :: path).getLast? with
    | none => simp at ends
    | some last => exact actsAt_within? _ key _

/-- **A statement concerns the member under the first key on its way.** -/
theorem Statement.actsAt_change? (first : (st.place current).head? = some key) :
    ActsAt key (st.change? current) := by
  cases st with
  | header path => exact actsAt_last actsAt_openTable? first
  | element path => exact actsAt_last actsAt_addTable? first
  | assign path value =>
    cases current with
    | nil =>
      cases path with
      | nil => cases first
      | cons k path =>
        cases Option.some.inj first
        exact actsAt_assign? value key path false false
    | cons k current =>
      cases Option.some.inj first
      exact actsAt_within? _ key current

theorem Statement.change?_of_nowhere (nowhere : st.place current = []) (members : Members) :
    st.change? current members = none := by
  cases st with
  | header path =>
    cases nowhere
    rfl
  | element path =>
    cases nowhere
    rfl
  | assign path value =>
    obtain ⟨rfl, rfl⟩ := List.append_eq_nil_iff.mp nowhere
    rfl

theorem Reading.current_of_add? (adds : r.add? st = some r') : r'.current = st.next r.current := by
  rw [add?_eq] at adds
  obtain ⟨_, -, rfl⟩ := Option.map_eq_some_iff.mp adds
  rfl

/-- What stands under a key stays there, and only a table is added to. -/
theorem Reading.grows {v : Toml} (adds : r.add? st = some r')
    (there : lookup key r.members = some v) :
    ∃ v', lookup key r'.members = some v' ∧ Grows v v' := by
  rw [add?_eq] at adds
  obtain ⟨members, change, rfl⟩ := Option.map_eq_some_iff.mp adds
  cases place : st.place r.current with
  | nil =>
    rw [Statement.change?_of_nowhere place] at change
    cases change
  | cons k path =>
    obtain ⟨write, acts, grows⟩ := Statement.actsAt_change? (congrArg List.head? place)
    rw [acts] at change
    obtain ⟨w, written, rfl⟩ := Option.map_eq_some_iff.mp change
    by_cases same : k = key
    · subst same
      rw [there] at written
      exact ⟨w, by simp [lookup_replace], grows v w written⟩
    · exact ⟨v, by simp [lookup_replace, same, there], .same v⟩

/-- What every statement keeps is kept to the end. -/
theorem Reading.run_induction {P : Reading → Prop} {sts : List Statement}
    (step : ∀ st ∈ sts, ∀ r r', P r → r.add? st = some r' → P r')
    (run : sts.foldlM Reading.add? r = some r') (start : P r) : P r' := by
  induction sts generalizing r with
  | nil =>
    cases Option.some.inj run
    exact start
  | cons st sts ih =>
    obtain ⟨first, others⟩ := List.forall_mem_cons.mp step
    rw [List.foldlM_cons] at run
    obtain ⟨r₁, adds, run⟩ := Option.bind_eq_some_iff.mp run
    exact ih others run (first r r₁ start adds)

theorem Reading.grows_run {sts : List Statement} {v : Toml}
    (run : sts.foldlM Reading.add? r = some r') (there : lookup key r.members = some v) :
    ∃ v', lookup key r'.members = some v' ∧ Grows v v' := by
  refine run_induction (P := fun r => ∃ v', lookup key r.members = some v' ∧ Grows v v') ?_ run
    ⟨v, there, .same v⟩
  rintro st - r₁ r₂ ⟨v₁, there₁, grows₁⟩ adds
  obtain ⟨v₂, there₂, grows₂⟩ := grows adds there₁
  exact ⟨v₂, there₂, grows₁.trans grows₂⟩

/-- Two readings that differ under these keys only. -/
structure Beside (known : String → Prop) (r r' : Reading) : Prop where
  current : r.current = r'.current
  members : ∀ key, ¬known key → lookup key r.members = lookup key r'.members

/-- A statement about another key is possible in both, and leaves these keys alone. -/
theorem Beside.step {known : String → Prop} {r₁ : Reading} (beside : Beside known r r')
    (foreign : ∀ key ∈ (st.place r.current).head?, ¬known key) (adds : r'.add? st = some r₁) :
    ∃ r₂, r.add? st = some r₂ ∧ Beside known r₂ r₁ ∧
      ∀ key, known key → lookup key r₂.members = lookup key r.members := by
  rw [Reading.add?_eq, ← beside.current] at adds
  obtain ⟨members, change, rfl⟩ := Option.map_eq_some_iff.mp adds
  cases place : st.place r.current with
  | nil =>
    rw [Statement.change?_of_nowhere place] at change
    cases change
  | cons k path =>
    have first : (st.place r.current).head? = some k := congrArg List.head? place
    have other := foreign k first
    obtain ⟨write, acts, -⟩ := Statement.actsAt_change? first
    rw [acts, ← beside.members k other] at change
    obtain ⟨w, written, rfl⟩ := Option.map_eq_some_iff.mp change
    refine ⟨⟨replace k w r.members, st.next r.current⟩, ?_, ⟨rfl, ?_⟩, ?_⟩
    · rw [Reading.add?_eq, acts, written]
      rfl
    · intro key unknown
      simp only [lookup_replace, beside.members key unknown]
    · intro key isKnown
      have apart : k ≠ key := by
        rintro rfl
        exact other isKnown
      simp [lookup_replace, apart]

theorem Reading.add?_assign {members : Members} (fresh : lookup key members = none)
    (value : Toml) :
    Reading.add? ⟨members, []⟩ (.assign [key] value) = some ⟨replace key value members, []⟩ := by
  simp [Reading.add?, within?, assign?, fresh]

end Statements

end SymbolNav.Toml
