/-
  SymbolNav/Proofs/Json/RoundTrip.lean
  ====================================
  **The JSON forms are read as what they were written of.**

  A record is written as an object with its values under the names of its fields.
  It is read by looking up each name, so neither the order of the members nor others
  among them matter.  Where a name is missing, hits, items, positions and questions
  are not read (`StrictForm`); a setting has its default (`Config.ofJson?_filter`).
  The numbers have to fit in 64 bits.

  The items that a query prints are read, from the text, as the sorted items of its
  run (`Context.items_printed`).
-/
import SymbolNav.Commands
import SymbolNav.Proofs.Config.Settings
import SymbolNav.Proofs.Engine.Answers
import SymbolNav.Proofs.Item.Order
import SymbolNav.Proofs.Json.Records
import SymbolNav.Proofs.Presentation.Places

namespace SymbolNav

open Json

/-! ### Values that fit -/

/-- The numbers of the item are numbers of 64 bits. -/
structure Item.Fits (i : Item) : Prop where
  line : i.line ≤ maxWord
  column : i.column ≤ maxWord
  length : i.length ≤ maxWord

structure Position.Fits (p : Position) : Prop where
  line : p.line ≤ maxWord
  column : p.column ≤ maxWord

theorem Json.count?_ofNat {n : Nat} (small : n ≤ maxWord) : count? (.ofNat n) = some n := by
  have nonneg : (0 : Int) ≤ n := Int.natCast_nonneg n
  have bounded : (n : Int) ≤ maxWord := Int.ofNat_le.mpr small
  simp [ofNat, count?, nonneg, bounded]

/-! ### Hits, positions, items and questions -/

namespace Hit

def values (h : Hit) : List Json :=
  [.str h.file, .str h.symbol, .ofNat h.lineNumber, .str h.trailingText, .str h.originalLine]

theorem whole_values (h : Hit) : ∀ v ∈ h.values, Whole v := by
  simp only [values, List.forall_mem_cons]
  exact ⟨.str _, .str _, .int _, .str _, .str _, nofun⟩

theorem ofJson?_toJson {h : Hit} (fits : h.lineNumber ≤ maxWord) :
    ofJson? h.toJson = some h := by
  have distinct : fieldNames.Nodup := by decide
  have fields : allFields? fieldNames h.toJson = some h.values :=
    allFields?_zip h.values distinct rfl
  simp [ofJson?, fields, values, text?, count?_ofNat fits]

theorem strictForm : StrictForm fieldNames toJson ofJson? (fun h => h.lineNumber ≤ maxWord) :=
  .of_values (fun _ => rfl) (fun _ => rfl) whole_values ⟨_, fun _ => rfl⟩
    (fun _ fits => ofJson?_toJson fits)

end Hit

namespace Position

def values (p : Position) : List Json := [.str p.file.text, .ofNat p.line, .ofNat p.column]

theorem whole_values (p : Position) : ∀ v ∈ p.values, Whole v := by
  simp only [values, List.forall_mem_cons]
  exact ⟨.str _, .int _, .int _, nofun⟩

theorem ofJson?_toJson {p : Position} (fits : p.Fits) : ofJson? p.toJson = some p := by
  have distinct : fieldNames.Nodup := by decide
  have fields : allFields? fieldNames p.toJson = some p.values :=
    allFields?_zip p.values distinct rfl
  simp [ofJson?, fields, values, path?, text?, count?_ofNat fits.line, count?_ofNat fits.column]

theorem strictForm : StrictForm fieldNames toJson ofJson? Position.Fits :=
  .of_values (fun _ => rfl) (fun _ => rfl) whole_values ⟨_, fun _ => rfl⟩
    (fun _ fits => ofJson?_toJson fits)

end Position

namespace Item

def values (i : Item) : List Json :=
  [.str i.file.text, .str i.symbol, .ofNat i.line, .ofNat i.column, .ofNat i.length,
    .str i.lineText, .str i.trailingText]

theorem whole_values (i : Item) : ∀ v ∈ i.values, Whole v := by
  simp only [values, List.forall_mem_cons]
  exact ⟨.str _, .str _, .int _, .int _, .int _, .str _, .str _, nofun⟩

theorem ofJson?_toJson {i : Item} (fits : i.Fits) : ofJson? i.toJson = some i := by
  have distinct : fieldNames.Nodup := by decide
  have fields : allFields? fieldNames i.toJson = some i.values :=
    allFields?_zip i.values distinct rfl
  simp [ofJson?, fields, values, path?, text?, count?_ofNat fits.line, count?_ofNat fits.column,
    count?_ofNat fits.length]

theorem strictForm : StrictForm fieldNames toJson ofJson? Item.Fits :=
  .of_values (fun _ => rfl) (fun _ => rfl) whole_values ⟨_, fun _ => rfl⟩
    (fun _ fits => ofJson?_toJson fits)

end Item

namespace QuerySpec

def values (s : QuerySpec) : List Json := [s.kind.toJson, .str s.pattern]

theorem whole_values (s : QuerySpec) : ∀ v ∈ s.values, Whole v := by
  simp only [values, List.forall_mem_cons]
  exact ⟨.str _, .str _, nofun⟩

theorem ofJson?_toJson (s : QuerySpec) : ofJson? s.toJson = some s := by
  have distinct : fieldNames.Nodup := by decide
  have fields : allFields? fieldNames s.toJson = some s.values :=
    allFields?_zip s.values distinct rfl
  have kind : QueryKind.ofJson? s.kind.toJson = some s.kind := QueryKind.ofName?_name s.kind
  simp [ofJson?, fields, values, text?, kind]

theorem strictForm : StrictForm fieldNames toJson ofJson? (fun _ => True) :=
  .of_values (fun _ => rfl) (fun _ => rfl) whole_values ⟨_, fun _ => rfl⟩
    (fun s _ => ofJson?_toJson s)

end QuerySpec

/-! ### Settings -/

namespace Config

def values (c : Config) : List Json :=
  [.str c.indexer, .str c.database, .str c.buildArgs, .str c.queryArgs,
    .arr (c.extensions.map .str), .bool c.autoBuild, .bool c.preview, c.output.toJson,
    .str c.logLevel, .ofNat c.maxConcurrentReads, .bool c.discardSuperseded]

theorem whole_values (c : Config) : ∀ v ∈ c.values, Whole v := by
  have extensions : ∀ x ∈ c.extensions.map Json.str, Whole x := by
    intro x member
    obtain ⟨s, -, rfl⟩ := List.mem_map.mp member
    exact .str s
  simp only [values, List.forall_mem_cons]
  exact ⟨.str _, .str _, .str _, .str _, .arr extensions, .bool _, .bool _, .str _, .str _,
    .int _, .bool _, nofun⟩

theorem texts?_map (ss : List String) : texts? (.arr (ss.map .str)) = some ss := by
  rw [texts?]
  induction ss with
  | nil => rfl
  | cons s ss ih => simp [text?, ih]

/-- What the value of a member, or its absence, has to be for the setting to be as in `c`. -/
def Setting.Gives (c : Config) : Setting → Option Json → Prop
  | .indexer, v => orDefault text? standard.indexer v = some c.indexer
  | .database, v => orDefault text? standard.database v = some c.database
  | .buildArgs, v => orDefault text? standard.buildArgs v = some c.buildArgs
  | .queryArgs, v => orDefault text? standard.queryArgs v = some c.queryArgs
  | .extensions, v => orDefault texts? standard.extensions v = some c.extensions
  | .autoBuild, v => orDefault flag? standard.autoBuild v = some c.autoBuild
  | .preview, v => orDefault flag? standard.preview v = some c.preview
  | .output, v => orDefault OutputMode.ofJson? standard.output v = some c.output
  | .logLevel, v => orDefault text? standard.logLevel v = some c.logLevel
  | .maxConcurrentReads, v =>
    orDefault count? standard.maxConcurrentReads v = some c.maxConcurrentReads
  | .discardSuperseded, v =>
    orDefault flag? standard.discardSuperseded v = some c.discardSuperseded

theorem ofJson?_eq_some_iff {members : List (String × Json)} {c : Config} :
    ofJson? (.obj members) = some c ↔ ∀ k : Setting, k.Gives c (Json.lookup k.key members) := by
  simp only [ofJson?, fields?, fieldNames, Option.bind_eq_bind, Option.bind_some, List.map_cons,
    List.map_nil, Option.bind_eq_some_iff]
  constructor
  · rintro ⟨_, indexer, _, database, _, buildArgs, _, queryArgs, _, extensions, _, autoBuild, _,
      preview, _, output, _, logLevel, _, maxConcurrentReads, _, discardSuperseded, made⟩ k
    cases Option.some.inj made
    cases k
    · exact indexer
    · exact database
    · exact buildArgs
    · exact queryArgs
    · exact extensions
    · exact autoBuild
    · exact preview
    · exact output
    · exact logLevel
    · exact maxConcurrentReads
    · exact discardSuperseded
  · intro given
    exact ⟨_, given .indexer, _, given .database, _, given .buildArgs, _, given .queryArgs, _,
      given .extensions, _, given .autoBuild, _, given .preview, _, given .output, _, given .logLevel,
      _, given .maxConcurrentReads, _, given .discardSuperseded, rfl⟩

theorem ofJson?_toJson {c : Config} (fits : c.maxConcurrentReads ≤ maxWord) :
    ofJson? c.toJson = some c := by
  apply ofJson?_eq_some_iff.mpr
  intro k
  cases k with
  | indexer | database | buildArgs | queryArgs | logLevel => rfl
  | autoBuild | preview | discardSuperseded => rfl
  | extensions => exact texts?_map c.extensions
  | output =>
    show OutputMode.ofJson? c.output.toJson = some c.output
    cases c.output <;> rfl
  | maxConcurrentReads => exact count?_ofNat fits

theorem form : Form fieldNames toJson ofJson? (fun c => c.maxConcurrentReads ≤ maxWord) :=
  .of_values (fun _ => rfl) (fun _ => rfl) whole_values ⟨_, fun _ => rfl⟩
    (fun _ fits => ofJson?_toJson fits)

theorem Setting.gives_overridden_of_mem {c : Config} {S : List Setting} {k : Setting}
    {v : Option Json} (member : k ∈ S) : k.Gives (c.overridden S) v ↔ k.Gives c v := by
  cases k <;> simp [Gives, overridden, member]

/-- A setting that is not overridden is as if nothing were said. -/
theorem Setting.gives_overridden_none {c : Config} {S : List Setting} {k : Setting}
    (other : k ∉ S) : k.Gives (c.overridden S) none := by
  cases k <;> simp [Gives, overridden, other, orDefault]

/-- **Without its member, a setting has its default**, and all others stay as they were. -/
theorem ofJson?_filter {members : List (String × Json)} {c : Config} (k : Setting)
    (read : ofJson? (.obj members) = some c) :
    ofJson? (.obj (members.filter (·.1 ≠ k.key))) =
      some (c.overridden (Setting.all.erase k)) := by
  have given := ofJson?_eq_some_iff.mp read
  apply ofJson?_eq_some_iff.mpr
  intro k'
  have nodup : Setting.all.Nodup := by decide
  by_cases same : k' = k
  · subst same
    have gone : Json.lookup k'.key (members.filter (·.1 ≠ k'.key)) = none := by
      apply lookup_eq_none_iff.mpr
      intro m member
      simpa using (List.mem_filter.mp member).2
    rw [gone]
    exact Setting.gives_overridden_none nodup.not_mem_erase
  · have kept : k' ∈ Setting.all.erase k := (List.mem_erase_of_ne same).mpr k'.mem_all
    have apart : k'.key ≠ k.key := fun keys => same (Setting.key_injective keys)
    have there : Json.lookup k'.key (members.filter (·.1 ≠ k.key)) =
        Json.lookup k'.key members := lookup_filter_ne apart
    rw [there, Setting.gives_overridden_of_mem kept]
    exact given k'

end Config

/-! ### What a query prints -/

theorem Run.Settled.whole_toJson (r : Run.Settled) : Whole r.toJson := by
  have stats : Whole r.stats.toJson := by
    apply Whole.obj
    simp only [List.forall_mem_cons]
    exact ⟨.int _, .int _, .int _, .int _, nofun⟩
  have items : ∀ v ∈ r.sortedItems.map Item.toJson, Whole v := by
    intro v member
    obtain ⟨i, -, rfl⟩ := List.mem_map.mp member
    exact whole_zip Item.fieldNames i.whole_values
  apply Whole.obj
  simp only [List.forall_mem_cons]
  exact ⟨.str _, .str _, stats, .arr items, nofun⟩

theorem Item.mapM_ofJson? {items : List Item} (fits : ∀ i ∈ items, i.Fits) :
    (items.map toJson).mapM ofJson? = some items := by
  induction items with
  | nil => rfl
  | cons i items ih =>
    have others : ∀ j ∈ items, j.Fits := by
      intro j member
      exact fits j (List.mem_cons_of_mem i member)
    simp [ofJson?_toJson (fits i List.mem_cons_self), ih others]

/-- **The items that a query prints are read as the sorted items of its run**, with lines and columns
that count from zero where the text for people counts from one. -/
theorem Context.items_printed {c : Context} {host : Host} {kind : QueryKind} {pattern : String}
    {r : Run.Settled} {e : Engine} (json : c.format = .json)
    (ran : (Engine.new host c.config).query ⟨kind, pattern⟩ c.root = (.value r, e))
    (fits : ∀ i ∈ r.items, i.Fits) :
    ∃ output printed items, (c.run host (.query kind pattern false)).outcome = .value output ∧
      parse? output = some printed ∧ printed.get? "items" = some (.arr items) ∧
      items.mapM Item.ofJson? = some r.sortedItems ∧
      ∀ i ∈ r.sortedItems, i.ShownAt c.root (i.line + 1) (i.column + 1) := by
  have sorted : ∀ i ∈ r.sortedItems, i.Fits := by
    intro i member
    exact fits i ((Item.sorts_sort r.items).perm.mem_iff.mp member)
  refine ⟨r.toJson.pretty, r.toJson, _, ?_, ?_, rfl, Item.mapM_ofJson? sorted, ?_⟩
  · simp [run, query, ran, Outcome.map, printAnswer, json]
  · rw [parse?, pretty, String.toList_ofList]
    exact read?_printAt r.whole_toJson (some 0)
  · intro i _
    exact i.shownAt c.root

/-! ### All of it -/

/-- **The JSON forms are read as what they were written of.** -/
theorem json_forms_round_trip :
    StrictForm Hit.fieldNames Hit.toJson Hit.ofJson? (fun h => h.lineNumber ≤ maxWord) ∧
    StrictForm Item.fieldNames Item.toJson Item.ofJson? Item.Fits ∧
    StrictForm Position.fieldNames Position.toJson Position.ofJson? Position.Fits ∧
    StrictForm QuerySpec.fieldNames QuerySpec.toJson QuerySpec.ofJson? (fun _ => True) ∧
    Form Config.fieldNames Config.toJson Config.ofJson?
      (fun c => c.maxConcurrentReads ≤ maxWord) ∧
    (∀ (members : List (String × Json)) (c : Config) (k : Config.Setting),
      Config.ofJson? (.obj members) = some c →
      Config.ofJson? (.obj (members.filter (·.1 ≠ k.key))) =
        some (c.overridden (Config.Setting.all.erase k))) ∧
    ∀ (c : Context) (host : Host) (kind : QueryKind) (pattern : String) (r : Run.Settled)
      (e : Engine), c.format = .json →
      (Engine.new host c.config).query ⟨kind, pattern⟩ c.root = (.value r, e) →
      (∀ i ∈ r.items, i.Fits) →
      ∃ output printed items, (c.run host (.query kind pattern false)).outcome = .value output ∧
        parse? output = some printed ∧ printed.get? "items" = some (.arr items) ∧
        items.mapM Item.ofJson? = some r.sortedItems ∧
        ∀ i ∈ r.sortedItems, i.ShownAt c.root (i.line + 1) (i.column + 1) := by
  refine ⟨Hit.strictForm, Item.strictForm, Position.strictForm, QuerySpec.strictForm,
    Config.form, ?_, ?_⟩
  · intro members c k read
    exact Config.ofJson?_filter k read
  · intro c host kind pattern r e json ran fits
    exact Context.items_printed json ran fits

namespace Item.Sample

/-! An item on the last line that there can be, with a line text that has to be escaped. -/

def last : Item := ⟨⟨"/p/a.c"⟩, "f", maxWord, 0, 1, "f(\"\\\x07é\")\t", ""⟩

/-- Its last members with another one behind them, and its first ones behind that. -/
def turned : List (String × Json) :=
  [("length", .ofNat 1), ("line_text", .str last.lineText), ("trailing_text", .str ""),
      ("note", .arr [.null])] ++
    [("file", .str "/p/a.c"), ("symbol", .str "f"), ("line", .ofNat maxWord),
      ("column", .ofNat 0)]

end Item.Sample

namespace Context.Sample

def context : Context := ⟨.json, false, Engine.Sample.root, Engine.Sample.settings, none⟩

end Context.Sample

open Item.Sample Context.Sample Engine.Sample in
/-- An item is read from the text and from other members than were written; settings without a
name for the indexer have the standard one; and a query prints an item that can be read. -/
theorem json_forms_round_trip_turned :
    (Json.read? (printAt (some 0) last.toJson)).bind Item.ofJson? = some last ∧
    Item.ofJson? (.obj turned) = some last ∧
    Config.ofJson? (.obj ([("indexer", .str "/i"), ("preview", .bool false)].filter
      (·.1 ≠ "indexer"))) = some { Config.standard with preview := false } ∧
    ∃ r output printed items, r.items ≠ [] ∧
      (context.run machine (.query .symbol "f" false)).outcome = .value output ∧
      parse? output = some printed ∧ printed.get? "items" = some (.arr items) ∧
      items.mapM Item.ofJson? = some (Run.Settled.sortedItems r) := by
  obtain ⟨-, items, -, -, -, defaults, prints⟩ := json_forms_round_trip
  have fits : last.Fits := ⟨Nat.le_refl _, by decide, by decide⟩
  refine ⟨items.text_read_back last fits (some 0), ?_, ?_, ?_⟩
  · obtain ⟨members, written, names⟩ := items.written last
    have arranged : Arranged Item.fieldNames members turned := by
      cases written
      exact ⟨[("note", .arr [.null])], List.perm_append_comm, by decide⟩
    rw [items.arranged members turned (names ▸ by decide) arranged, ← written]
    exact items.read_back last fits
  · have read : Config.ofJson? (.obj [("indexer", .str "/i"), ("preview", .bool false)]) =
        some { Config.standard with indexer := "/i", preview := false } := by
      decide +kernel
    exact defaults _ _ .indexer read
  · have answers : (((Engine.new machine settings).query question root).1.value?.filter
        (fun r => r.items ≠ [] ∧ ∀ i ∈ r.items, i.line ≤ maxWord ∧ i.column ≤ maxWord ∧
          i.length ≤ maxWord)).isSome := by decide +kernel
    obtain ⟨r, answer⟩ := Option.isSome_iff_exists.mp answers
    obtain ⟨answer, found⟩ := Option.filter_eq_some_iff.mp answer
    obtain ⟨nonempty, small⟩ := of_decide_eq_true found
    have fits : ∀ i ∈ r.items, i.Fits := by
      intro i member
      obtain ⟨line, column, length⟩ := small i member
      exact ⟨line, column, length⟩
    have ran : (Engine.new machine settings).query question root =
        (.value r, ((Engine.new machine settings).query question root).2) := by
      cases outcome : ((Engine.new machine settings).query question root).1 with
      | value r' =>
        rw [outcome] at answer
        cases Option.some.inj answer
        exact Prod.ext outcome rfl
      | failed fault => rw [outcome] at answer; cases answer
      | crashed => rw [outcome] at answer; cases answer
    obtain ⟨output, printed, printedItems, prints, parses, members, reads, -⟩ :=
      prints context machine .symbol "f" r _ rfl ran fits
    exact ⟨r, output, printed, printedItems, nonempty, prints, parses, members, reads⟩

end SymbolNav
