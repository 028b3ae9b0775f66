/-
  SymbolNav/Forms.lean
  ====================
  **The JSON forms** of hits, items, positions, questions and settings.

  A record is written as an object with one member for each field.  It is read
  from an object, whose members may come in any order and among others, or from
  an array that holds the values of the fields in order.  A number that counts
  something is a whole number of 64 bits.  A name out of a fixed list is a
  string, or an object whose only member has that name and the value null.

  Every field of a record has to be there, except in the settings, where a
  default stands for a missing one.

  The records are those of `RawHit`, `ResolvedItem`, `Position`, `QuerySpec` and
  `NavConfig`, which are written and read field by field, and what the commands
  hand to `to_json`.
-/
import SymbolNav.Config
import SymbolNav.Hit
import SymbolNav.Json.Basic

namespace SymbolNav

namespace Json

/-! ### Simple values -/

def text? : Json → Option String
  | .str s => some s
  | _ => none

def flag? : Json → Option Bool
  | .bool b => some b
  | _ => none

/-- A whole number of 64 bits. -/
def count? : Json → Option Nat
  | .int n => if 0 ≤ n ∧ n ≤ maxWord then some n.toNat else none
  | _ => none

def path? (j : Json) : Option Path := j.text?.map Path.mk

def texts? : Json → Option (List String)
  | .arr items => items.mapM text?
  | _ => none

/-- A name out of a fixed list. -/
def name? : Json → Option String
  | .str s => some s
  | .obj [(s, .null)] => some s
  | _ => none

/-! ### Records -/

/-- The values of the fields of a record, `none` for a missing one: by name from an object, by
place from an array. -/
def fields? (names : List String) : Json → Option (List (Option Json))
  | .obj members => some (names.map (fun n => lookup n members))
  | .arr items =>
    if items.length ≤ names.length then some ((List.range names.length).map (items[·]?)) else none
  | _ => none

/-- The values of the fields of a record that has all of them. -/
def allFields? (names : List String) (j : Json) : Option (List Json) :=
  (fields? names j).bind (·.mapM id)

end Json

open Json

/-! ### Kinds and questions -/

def QueryKind.toJson (k : QueryKind) : Json := .str k.name

def QueryKind.ofJson? (j : Json) : Option QueryKind := j.name?.bind ofName?

def QuerySpec.fieldNames : List String := ["kind", "pattern"]

def QuerySpec.toJson (s : QuerySpec) : Json :=
  .obj [("kind", s.kind.toJson), ("pattern", .str s.pattern)]

def QuerySpec.ofJson? (j : Json) : Option QuerySpec := do
  match ← allFields? fieldNames j with
  | [kind, pattern] => return ⟨← QueryKind.ofJson? kind, ← pattern.text?⟩
  | _ => none

/-! ### Hits, positions and items -/

def Hit.fieldNames : List String :=
  ["file", "symbol", "line_number", "trailing_text", "original_line"]

def Hit.toJson (h : Hit) : Json :=
  .obj [("file", .str h.file), ("symbol", .str h.symbol), ("line_number", .ofNat h.lineNumber),
    ("trailing_text", .str h.trailingText), ("original_line", .str h.originalLine)]

def Hit.ofJson? (j : Json) : Option Hit := do
  match ← allFields? fieldNames j with
  | [file, symbol, lineNumber, trailingText, originalLine] =>
    return ⟨← file.text?, ← symbol.text?, ← lineNumber.count?, ← trailingText.text?,
      ← originalLine.text?⟩
  | _ => none

def Position.fieldNames : List String := ["file", "line", "column"]

def Position.toJson (p : Position) : Json :=
  .obj [("file", .str p.file.text), ("line", .ofNat p.line), ("column", .ofNat p.column)]

def Position.ofJson? (j : Json) : Option Position := do
  match ← allFields? fieldNames j with
  | [file, line, column] => return ⟨← file.path?, ← line.count?, ← column.count?⟩
  | _ => none

def Item.fieldNames : List String :=
  ["file", "symbol", "line", "column", "length", "line_text", "trailing_text"]

def Item.toJson (i : Item) : Json :=
  .obj [("file", .str i.file.text), ("symbol", .str i.symbol), ("line", .ofNat i.line),
    ("column", .ofNat i.column), ("length", .ofNat i.length), ("line_text", .str i.lineText),
    ("trailing_text", .str i.trailingText)]

def Item.ofJson? (j : Json) : Option Item := do
  match ← allFields? fieldNames j with
  | [file, symbol, line, column, length, lineText, trailingText] =>
    return ⟨← file.path?, ← symbol.text?, ← line.count?, ← column.count?, ← length.count?,
      ← lineText.text?, ← trailingText.text?⟩
  | _ => none

/-! ### Settings -/

namespace OutputMode

def toJson (m : OutputMode) : Json := .str m.name

def ofJson? (j : Json) : Option OutputMode := j.name?.bind ofName?

end OutputMode

def Config.fieldNames : List String :=
  ["indexer", "database", "build_args", "query_args", "extensions", "auto_build", "preview",
    "output", "log_level", "max_concurrent_reads", "discard_superseded"]

def Config.toJson (c : Config) : Json :=
  .obj [("indexer", .str c.indexer), ("database", .str c.database),
    ("build_args", .str c.buildArgs), ("query_args", .str c.queryArgs),
    ("extensions", .arr (c.extensions.map .str)), ("auto_build", .bool c.autoBuild),
    ("preview", .bool c.preview), ("output", c.output.toJson), ("log_level", .str c.logLevel),
    ("max_concurrent_reads", .ofNat c.maxConcurrentReads),
    ("discard_superseded", .bool c.discardSuperseded)]

def Config.ofJson? (j : Json) : Option Config := do
  match ← fields? fieldNames j with
  | [indexer, database, buildArgs, queryArgs, extensions, autoBuild, preview, output, logLevel,
      maxConcurrentReads, discardSuperseded] =>
    return {
      indexer := ← orDefault text? standard.indexer indexer
      database := ← orDefault text? standard.database database
      buildArgs := ← orDefault text? standard.buildArgs buildArgs
      queryArgs := ← orDefault text? standard.queryArgs queryArgs
      extensions := ← orDefault texts? standard.extensions extensions
      autoBuild := ← orDefault flag? standard.autoBuild autoBuild
      preview := ← orDefault flag? standard.preview preview
      output := ← orDefault OutputMode.ofJson? standard.output output
      logLevel := ← orDefault text? standard.logLevel logLevel
      maxConcurrentReads := ← orDefault count? standard.maxConcurrentReads maxConcurrentReads
      discardSuperseded := ← orDefault flag? standard.discardSuperseded discardSuperseded }
  | _ => none

/-! ### Shown results -/

def ListEntry.toJson (e : ListEntry) : Json :=
  .obj [("label", .str e.label), ("detail", .str e.detail), ("item", e.item.toJson)]

def Leaf.toJson (l : Leaf) : Json := .obj [("label", .str l.label), ("item", l.item.toJson)]

def FileGroup.toJson (g : FileGroup) : Json :=
  .obj [("path", .str g.path), ("children", .arr (g.children.map (·.toJson)))]

def ResultTree.toJson (t : ResultTree) : Json :=
  .obj [("title", .str t.title), ("files", .arr (t.files.map (·.toJson)))]

def Presentation.toJson : Presentation → Json
  | .list entries =>
    .obj [("mode", OutputMode.list.toJson), ("entries", .arr (entries.map (·.toJson)))]
  | .tree t => .obj [("mode", OutputMode.tree.toJson), ("entries", t.toJson)]

def Call.toJson (c : Call) : Json :=
  .obj [("name", .str c.name), ("detail", .str c.detail), ("file", .str c.file.text),
    ("line", .ofNat c.line), ("column", .ofNat c.column), ("length", .ofNat c.length)]

end SymbolNav
