import Unreferenced.Proofs.Json.Layout
import Unreferenced.Proofs.Json.Soundness
import Unreferenced.Report.Records

/-!
# A report is read back from its texts

Whoever reads the text of a report with a reader of JSON gets the report: by the grammar
the text writes one object and nothing else, its members have the names they should have,
and from their values the root, the four lists and the summary can be taken as they were.
What is taken from a value is said by the functions `ofJson?`, which look members up by name
and know nothing of how a report is written. The main result is
`Unreferenced.Report.parse?_objectText`.

All of this rests on one fact about texts, that a written value is read back
(`Unreferenced.Json.parse?_pretty`); what remains is that the members of a report as values
give back its fields, list by list.
-/

namespace Unreferenced

/-! ### Taking values apart -/

namespace Json

/-- The value of a member of an object. -/
def member? (value : Json) (key : String) : Option Json :=
  match value with
  | .object members => members.lookup key
  | _ => none

/-- The string that a value is. -/
def string? : Json → Option String
  | .string value => some value
  | _ => none

/-- The natural number that a value is, when it is written without an exponent. -/
def nat? : Json → Option Nat
  | .number mantissa exponent =>
    if 0 ≤ mantissa ∧ exponent = 0 then some mantissa.toNat else none
  | _ => none

/-- What the items of an array are, when each of them is something. -/
def items? {α : Type} (ofJson? : Json → Option α) : Json → Option (List α)
  | .array items => items.mapM ofJson?
  | _ => none

/-- What a value is, when it may be `null`. -/
def nullable? {α : Type} (ofJson? : Json → Option α) : Json → Option (Option α)
  | .null => some none
  | value => (ofJson? value).map some

theorem nat?_ofNat (n : Nat) : (ofNat n).nat? = some n := by
  simp [ofNat, nat?]

theorem nullable?_string (value? : Option String) :
    ((value?.map string).getD null).nullable? string? = some value? := by
  cases value? with
  | none => rfl
  | some value => rfl

/-- Where each item is taken back from its value, all of them are. -/
theorem items?_array {α : Type} {ofJson? : Json → Option α} {toJson : α → Json}
    (h : ∀ a, ofJson? (toJson a) = some a) (as : List α) :
    items? ofJson? (.array (as.map toJson)) = some as := by
  have hitems : (as.map toJson).mapM ofJson? = some as := by
    induction as with
    | nil => rfl
    | cons a as ih =>
      rw [List.map_cons, List.mapM_cons, h, ih]
      rfl
  exact hitems

end Json

/-! ### The parts of a report -/

/-- A shared image, by its name and its number. -/
def SharedAsset.ofJson? (value : Json) : Option SharedAsset := do
  let name ← (← value.member? "name").string?
  let count ← (← value.member? "count").nat?
  some { name, count }

theorem SharedAsset.ofJson?_object (asset : SharedAsset) :
    ofJson? (.object [("name", .string asset.name), ("count", .ofNat asset.count)]) =
      some asset := by
  simp [ofJson?, Json.member?, List.lookup_cons, Json.string?, Json.nat?_ofNat]

/-- An unreferenced image, by its name and its place. -/
def UnreferencedAsset.ofJson? (value : Json) : Option UnreferencedAsset := do
  let name ← (← value.member? "name").string?
  let location? ← (← value.member? "location").nullable? Json.string?
  some { name, location? }

theorem UnreferencedAsset.ofJson?_object (asset : UnreferencedAsset) :
    ofJson? (.object [("name", .string asset.name),
      ("location", (asset.location?.map Json.string).getD .null)]) = some asset := by
  simp [ofJson?, Json.member?, List.lookup_cons, Json.string?, Json.nullable?_string]

/-- A shared type, by its name and its files. -/
def SharedSymbol.ofJson? (value : Json) : Option SharedSymbol := do
  let name ← (← value.member? "name").string?
  let kept ← (← value.member? "kept").string?
  let shadowed ← (← value.member? "shadowed").items? Json.string?
  some { name, kept, shadowed }

theorem SharedSymbol.ofJson?_object (symbol : SharedSymbol) :
    ofJson? (.object [("name", .string symbol.name), ("kept", .string symbol.kept),
      ("shadowed", .array (symbol.shadowed.map .string))]) = some symbol := by
  have hstring : ∀ text : String, Json.string? (.string text) = some text := fun _ => rfl
  have hshadowed := Json.items?_array hstring symbol.shadowed
  simp [ofJson?, Json.member?, List.lookup_cons, Json.string?, hshadowed]

/-- An unreferenced type, by its name and its file. -/
def UnreferencedSymbol.ofJson? (value : Json) : Option UnreferencedSymbol := do
  let name ← (← value.member? "name").string?
  let file ← (← value.member? "file").string?
  some { name, file }

theorem UnreferencedSymbol.ofJson?_object (symbol : UnreferencedSymbol) :
    ofJson? (.object [("name", .string symbol.name), ("file", .string symbol.file)]) =
      some symbol := by
  simp [ofJson?, Json.member?, List.lookup_cons, Json.string?]

/-- A summary, by its numbers. -/
def Summary.ofJson? (value : Json) : Option Summary := do
  let imageFiles ← (← value.member? "image_files").nat?
  let sourceFiles ← (← value.member? "source_files").nat?
  let markupFiles ← (← value.member? "markup_files").nat?
  let assetNames ← (← value.member? "asset_names").nat?
  let symbolsDeclared ← (← value.member? "symbols_declared").nat?
  let symbolsChecked ← (← value.member? "symbols_checked").nat?
  some { imageFiles, sourceFiles, markupFiles, assetNames, symbolsDeclared, symbolsChecked }

theorem Summary.ofJson?_object (summary : Summary) :
    ofJson? (.object [("image_files", .ofNat summary.imageFiles),
      ("source_files", .ofNat summary.sourceFiles), ("markup_files", .ofNat summary.markupFiles),
      ("asset_names", .ofNat summary.assetNames),
      ("symbols_declared", .ofNat summary.symbolsDeclared),
      ("symbols_checked", .ofNat summary.symbolsChecked)]) = some summary := by
  simp [ofJson?, Json.member?, List.lookup_cons, Json.nat?_ofNat]

/-- A report, by its root, its lists and its summary. -/
def Report.ofJson? (value : Json) : Option Report := do
  let root ← (← value.member? "root").string?
  let sharedAssets ← (← value.member? "asset_collisions").items? SharedAsset.ofJson?
  let unreferencedAssets ←
    (← value.member? "unreferenced_assets").items? UnreferencedAsset.ofJson?
  let sharedSymbols ← (← value.member? "symbol_collisions").items? SharedSymbol.ofJson?
  let unreferencedSymbols ←
    (← value.member? "unreferenced_symbols").items? UnreferencedSymbol.ofJson?
  let summary ← Summary.ofJson? (← value.member? "summary")
  some { root, sharedAssets, unreferencedAssets, sharedSymbols, unreferencedSymbols, summary }

namespace Report

/-- **A report is taken back from its object**, but for what the scan looked for, which is
not written. -/
theorem ofJson?_object (report : Report) :
    ofJson? report.object = some { report with passes := {} } := by
  have hsharedAssets := Json.items?_array SharedAsset.ofJson?_object report.sharedAssets
  have hunreferencedAssets :=
    Json.items?_array UnreferencedAsset.ofJson?_object report.unreferencedAssets
  have hsharedSymbols := Json.items?_array SharedSymbol.ofJson?_object report.sharedSymbols
  have hunreferencedSymbols :=
    Json.items?_array UnreferencedSymbol.ofJson?_object report.unreferencedSymbols
  have hsummary := Summary.ofJson?_object report.summary
  simp [ofJson?, object, members, Json.member?, List.lookup_cons, Json.string?, hsharedAssets,
    hunreferencedAssets, hsharedSymbols, hunreferencedSymbols, hsummary]

/-- **The text of a report is read back.** By the grammar it writes one object and nothing
else, and that object is read, with the version, the root, the four lists, the summary and
the note as its members. From these members the report is taken back, whatever texts are in
it; so two reports have the same text exactly when they agree in everything that is
written. -/
theorem parse?_objectText (report : Report) :
    ∃ members, (∀ value, Json.WritesPadded report.objectText.toList value ↔
        value = .object members) ∧
      Json.parse? report.objectText = some (.object members) ∧
      members.map (·.1) = ["version", "root", "asset_collisions", "unreferenced_assets",
        "symbol_collisions", "unreferenced_symbols", "summary", "note"] ∧
      members.lookup "version" = some (.string "1.0") ∧
      members.lookup "note" = some (.string transitiveNote) ∧
      ofJson? (.object members) = some { report with passes := {} } ∧
      ∀ other : Report, other.objectText = report.objectText ↔
        { other with passes := {} } = { report with passes := {} } := by
  have hparse : ∀ report : Report, Json.parse? report.objectText = some report.object :=
    fun report => Json.parse?_pretty report.object
  refine ⟨_, fun value => ?_, hparse report, rfl, rfl, rfl, ofJson?_object report,
    fun other => ⟨fun h => ?_, fun h => ?_⟩⟩
  · rw [← Json.parse?_eq_some_iff, hparse, Option.some.injEq, eq_comm]
    rfl
  · -- the same text is read as one object, from which both reports are taken back
    have hobject : other.object = report.object := by
      rw [← Option.some.injEq, ← hparse, ← hparse, h]
    rw [← Option.some.injEq, ← ofJson?_object, ← ofJson?_object, hobject]
  · have htext : ∀ report : Report, report.objectText =
        objectText { report with passes := {} } := fun _ => rfl
    rw [htext, h, ← htext]

end Report

end Unreferenced
