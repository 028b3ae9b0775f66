/-
  SymbolNav/Proofs/Json/Records.lean
  ==================================
  **Records as objects.**

  A record is read from the values that stand under the names of its fields
  (`ReadsFields`), and from nothing else of an object.  So neither the order of the
  members counts nor what stands under other names, as long as no name stands twice
  (`ReadsFields.arranged`); and where all fields have to be there, an object that lacks
  one of them is no record (`ReadsAllFields.missing`).

  `Form` gathers what a form of a type has to keep: what is written of a value is read as
  this value, from the object and from its text, and in any arrangement.
-/
import Mathlib.Data.List.Nodup
import SymbolNav.Forms
import SymbolNav.Proofs.Json.Values

namespace SymbolNav.Json

/-! ### Members by their names -/

section Lookup

variable {key : String} {v : Json} {members : List (String × Json)}

theorem lookup_eq_none_iff : lookup key members = none ↔ ∀ m ∈ members, m.1 ≠ key := by
  simp [lookup]

theorem mem_of_lookup (there : lookup key members = some v) : (key, v) ∈ members := by
  obtain ⟨⟨k, w⟩, found, rfl⟩ := Option.map_eq_some_iff.mp there
  have name : k = key := by simpa using List.find?_some found
  have member := List.mem_of_find?_eq_some found
  rw [List.mem_reverse, name] at member
  exact member

/-- A member is found by its name if no other member has it. -/
theorem lookup_of_mem (member : (key, v) ∈ members)
    (only : ∀ m ∈ members, m.1 = key → m.2 = v) : lookup key members = some v := by
  cases found : lookup key members with
  | none => exact absurd rfl (lookup_eq_none_iff.mp found _ member)
  | some w =>
    have same : w = v := only (key, w) (mem_of_lookup found) rfl
    rw [same]

/-- Members of another name can go. -/
theorem lookup_filter_ne {other : String} (apart : key ≠ other) :
    lookup key (members.filter (·.1 ≠ other)) = lookup key members := by
  have same : (fun m : String × Json => decide (decide (m.1 ≠ other) = true ∧
      decide (m.1 = key) = true)) = fun m => decide (m.1 = key) := by
    funext m
    by_cases named : m.1 = key
    · simp [named, apart]
    · simp [named]
  rw [lookup, ← List.filter_reverse, List.find?_filter, same]
  rfl

end Lookup

/-- The known members in any order, and among them others with none of these names. -/
def Arranged (names : List String) (known members : List (String × Json)) : Prop :=
  ∃ others : List (String × Json), members.Perm (known ++ others) ∧ ∀ m ∈ others, m.1 ∉ names

/-- What stands under a name is not changed by an arrangement. -/
theorem Arranged.lookup_eq {names : List String} {known members : List (String × Json)}
    {name : String} (arranged : Arranged names known members)
    (distinct : (known.map Prod.fst).Nodup) (asked : name ∈ names) :
    lookup name members = lookup name known := by
  obtain ⟨others, perm, unknown⟩ := arranged
  have known_of_named : ∀ m ∈ members, m.1 = name → m ∈ known := by
    intro m member named
    rcases List.mem_append.mp (perm.mem_iff.mp member) with old | new
    · exact old
    · exact absurd (named ▸ asked) (unknown m new)
  cases there : lookup name known with
  | none =>
    apply lookup_eq_none_iff.mpr
    intro m member named
    exact lookup_eq_none_iff.mp there m (known_of_named m member named) named
  | some v =>
    have old := mem_of_lookup there
    apply lookup_of_mem (perm.mem_iff.mpr (List.mem_append_left others old))
    intro m member named
    have same := List.inj_on_of_nodup_map distinct (known_of_named m member named) old named
    rw [same]

/-! ### Fields -/

section Fields

variable {α : Type} {names : List String}

theorem fields?_congr {members members' : List (String × Json)}
    (same : ∀ name ∈ names, lookup name members = lookup name members') :
    fields? names (.obj members) = fields? names (.obj members') := by
  simp only [fields?, Option.some.injEq]
  exact List.map_congr_left same

/-- The fields of a record that is written in their order. -/
theorem fields?_zip (values : List Json) (distinct : names.Nodup)
    (length : names.length = values.length) :
    fields? names (.obj (names.zip values)) = some (values.map some) := by
  simp only [fields?, Option.some.injEq]
  apply List.ext_getElem (by simpa using length)
  intro i hi hi'
  have named : i < names.length := by simpa using hi
  have valued : i < values.length := by simpa using hi'
  have zipped : i < (names.zip values).length := by
    rw [List.length_zip]
    exact Nat.lt_min.mpr ⟨named, valued⟩
  rw [List.getElem_map, List.getElem_map]
  apply lookup_of_mem
  · have member := List.getElem_mem zipped
    rwa [List.getElem_zip] at member
  · intro m member same
    obtain ⟨j, hj, rfl⟩ := List.getElem_of_mem member
    rw [List.getElem_zip] at same ⊢
    have place : j = i := (List.Nodup.getElem_inj_iff distinct).mp same
    subst place
    rfl

theorem allFields?_zip (values : List Json) (distinct : names.Nodup)
    (length : names.length = values.length) :
    allFields? names (.obj (names.zip values)) = some values := by
  rw [allFields?, fields?_zip values distinct length, Option.bind_some]
  clear length
  induction values with
  | nil => rfl
  | cons v values ih => simp [ih]

/-- Reading takes nothing from the value but the fields with these names. -/
def ReadsFields (names : List String) (read? : Json → Option α) : Prop :=
  ∃ build : List (Option Json) → Option α, ∀ j, read? j = (fields? names j).bind build

/-- Reading takes nothing from the value but the fields with these names, and needs all of them. -/
def ReadsAllFields (names : List String) (read? : Json → Option α) : Prop :=
  ∃ build : List Json → Option α, ∀ j, read? j = (allFields? names j).bind build

variable {read? : Json → Option α}

theorem ReadsAllFields.readsFields (reads : ReadsAllFields names read?) :
    ReadsFields names read? := by
  obtain ⟨build, reads⟩ := reads
  refine ⟨fun fields => (fields.mapM id).bind build, ?_⟩
  intro j
  rw [reads j, allFields?, Option.bind_assoc]

/-- **The order of the members and what stands among them do not count.** -/
theorem ReadsFields.arranged (reads : ReadsFields names read?)
    {known members : List (String × Json)} (distinct : (known.map Prod.fst).Nodup)
    (arranged : Arranged names known members) : read? (.obj members) = read? (.obj known) := by
  obtain ⟨build, reads⟩ := reads
  have same : fields? names (.obj members) = fields? names (.obj known) := by
    apply fields?_congr
    intro name asked
    exact arranged.lookup_eq distinct asked
  rw [reads, reads, same]

/-- **An object that lacks a field is no record.** -/
theorem ReadsAllFields.missing (reads : ReadsAllFields names read?)
    {members : List (String × Json)} {name : String} (asked : name ∈ names)
    (missing : ∀ m ∈ members, m.1 ≠ name) : read? (.obj members) = none := by
  obtain ⟨build, reads⟩ := reads
  have lacking : none ∈ names.map (lookup · members) := by
    apply List.mem_map.mpr
    exact ⟨name, asked, lookup_eq_none_iff.mpr missing⟩
  have incomplete : ∀ fields : List (Option Json), none ∈ fields → fields.mapM id = none := by
    intro fields lacking
    induction fields with
    | nil => cases lacking
    | cons field fields ih =>
      cases field with
      | none => simp
      | some v =>
        have rest : none ∈ fields := by simpa using lacking
        simp [ih rest]
  rw [reads, allFields?, fields?, Option.bind_some, incomplete _ lacking]
  rfl

end Fields

/-! ### Forms -/

/-- What a form of a type keeps, for the values that fit into it. -/
structure Form {α : Type} (names : List String) (write : α → Json) (read? : Json → Option α)
    (Fits : α → Prop) : Prop where
  /-- A value is written as an object with a member for each field. -/
  written : ∀ x, ∃ members, write x = .obj members ∧ members.map Prod.fst = names
  /-- The value is read from the object. -/
  read_back : ∀ x, Fits x → read? (write x) = some x
  /-- And from the text of the object, on one line or laid out over several. -/
  text_read_back : ∀ x, Fits x → ∀ depth, (Json.read? (printAt depth (write x))).bind read? = some x
  /-- Neither the order of the members of an object counts nor other members among them. -/
  arranged : ∀ known members, (known.map Prod.fst).Nodup → Arranged names known members →
    read? (.obj members) = read? (.obj known)

/-- A form in which no field may be missing. -/
structure StrictForm {α : Type} (names : List String) (write : α → Json)
    (read? : Json → Option α) (Fits : α → Prop) : Prop extends Form names write read? Fits where
  missing : ∀ members, ∀ name ∈ names, (∀ m ∈ members, m.1 ≠ name) → read? (.obj members) = none

section Forms

variable {α : Type} {names : List String} {write : α → Json} {read? : Json → Option α}
  {Fits : α → Prop}

theorem whole_zip (names : List String) {values : List Json} (whole : ∀ v ∈ values, Whole v) :
    Whole (.obj (names.zip values)) := by
  apply Whole.obj
  intro m member
  exact whole m.2 (List.of_mem_zip member).2

/-- A form that writes the fields in their order and whole numbers only. -/
theorem Form.of_values {values : α → List Json}
    (length : ∀ x, names.length = (values x).length)
    (writes : ∀ x, write x = .obj (names.zip (values x)))
    (whole : ∀ x, ∀ v ∈ values x, Whole v) (reads : ReadsFields names read?)
    (read_back : ∀ x, Fits x → read? (write x) = some x) : Form names write read? Fits where
  written := by
    intro x
    refine ⟨_, writes x, List.map_fst_zip ?_⟩
    exact Nat.le_of_eq (length x)
  read_back := read_back
  text_read_back := by
    intro x fits depth
    have printed : Whole (write x) := by
      rw [writes x]
      exact whole_zip names (whole x)
    rw [read?_printAt printed, Option.bind_some]
    exact read_back x fits
  arranged := by
    intro known members distinct arranged
    exact reads.arranged distinct arranged

/-- A form that writes the fields in their order and needs all of them to read a value. -/
theorem StrictForm.of_values {values : α → List Json}
    (length : ∀ x, names.length = (values x).length)
    (writes : ∀ x, write x = .obj (names.zip (values x)))
    (whole : ∀ x, ∀ v ∈ values x, Whole v) (reads : ReadsAllFields names read?)
    (read_back : ∀ x, Fits x → read? (write x) = some x) :
    StrictForm names write read? Fits where
  toForm := .of_values length writes whole reads.readsFields read_back
  missing := by
    intro members name asked missing
    exact reads.missing asked missing

end Forms

end SymbolNav.Json
