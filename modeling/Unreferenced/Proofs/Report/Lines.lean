import Mathlib.Data.List.Basic
import Unreferenced.Proofs.Json.Layout
import Unreferenced.Proofs.Json.Soundness
import Unreferenced.Report.Format

/-!
# A report is read back line by line

The findings of a report can be written one on a line, and then nothing but the line breaks
says where one ends. That is enough: a line that is written has no line break of its own,
whatever is in the names and paths of the finding, and it ends in a brace, so that trimming
the text takes off the last line break and nothing else. Cutting the text at its line breaks
therefore gives the lines that were written, and a reader of JSON gives for each of them the
finding that it was written for. The main result is
`Unreferenced.Report.parse?_lines`.
-/

namespace Unreferenced

/-- **Trimming takes off one line break, and putting out a text puts it back**, when what
stands in front of the line break is not white space. -/
theorem endedOnce_trimEnd {cs : List Char} {c : Char} (h : Text.isBlank c = false) :
    endedOnce (String.ofList (Text.trimEnd (cs ++ [c, '\n']))) =
      String.ofList (cs ++ [c, '\n']) := by
  have htrim : Text.trimEnd (cs ++ [c, '\n']) = cs ++ [c] :=
    Text.trimEnd_append h (List.forall_mem_singleton.2 (by decide))
  rw [htrim, endedOnce, if_neg (by simp [String.isEmpty_iff]), ← String.toList_inj]
  simp

namespace Report

variable {report : Report}

/-! ### The lines of a report -/

/-- The line of a record. -/
def Record.line (record : Record) : String :=
  String.ofList record.object.compact

/-- A record is written between braces. -/
theorem Record.exists_compact_object (record : Record) :
    ∃ inside, record.object.compact = '{' :: inside ++ ['}'] := by
  rw [Record.object, Json.compact]
  exact ⟨_, rfl⟩

theorem Record.line_ne_empty (record : Record) : record.line ≠ "" := by
  obtain ⟨inside, hinside⟩ := record.exists_compact_object
  rw [Record.line, hinside, Ne, ← String.toList_inj]
  simp

theorem Record.parse?_line (record : Record) : Json.parse? record.line = some record.object :=
  Json.parse?_compact record.object

theorem Json.ofNat_inj {m n : Nat} : Json.ofNat m = Json.ofNat n ↔ m = n := by
  rw [Json.ofNat, Json.ofNat, Json.number.injEq, Int.ofNat_inj]
  exact and_iff_left rfl

/-- Records with the same object are the same. -/
theorem Record.object_injective {record other : Record} (h : record.object = other.object) :
    record = other := by
  obtain ⟨kind, name, location?, count?⟩ := record
  obtain ⟨kind', name', location?', count?'⟩ := other
  cases location? <;> cases location?' <;> cases count? <;> cases count?' <;>
    simp_all [Record.object, Json.ofNat_inj]

theorem toList_recordsText (report : Report) :
    report.recordsText.toList =
      (report.records.map fun record => record.line.toList).flatMap (· ++ ['\n']) := by
  simp [recordsText, Record.line, List.flatMap_map]

/-- **The text of the findings is put out as it is written**: it is empty, or it ends in a
brace and a line break. -/
theorem text_ndjson (report : Report) (coloured : Bool) :
    report.text .ndjson coloured = report.recordsText := by
  change endedOnce (String.ofList (Text.trimEnd report.recordsText.toList)) = report.recordsText
  have htext : report.recordsText = String.ofList report.recordsText.toList :=
    String.ofList_toList.symm
  rw [htext, toList_recordsText, String.toList_ofList]
  rcases List.eq_nil_or_concat report.records with hrecords | ⟨before, last, hrecords⟩
  · rw [hrecords]
    rfl
  · obtain ⟨inside, hinside⟩ := last.exists_compact_object
    have hend : (report.records.map fun record => record.line.toList).flatMap (· ++ ['\n']) =
        (before.map fun record => record.line.toList).flatMap (· ++ ['\n']) ++ '{' :: inside ++
          ['}', '\n'] := by
      simp [hrecords, Record.line, hinside]
    rw [hend]
    exact endedOnce_trimEnd (by decide)

/-- The pieces between the line breaks are the lines. -/
theorem pieces_recordsText (report : Report) :
    Text.pieces '\n' report.recordsText.toList =
      (report.records.map Record.line).map String.toList ++ [[]] := by
  rw [toList_recordsText, Text.pieces_flatMap, List.map_map]
  · rfl
  · intro line hline
    obtain ⟨record, -, rfl⟩ := List.mem_map.1 hline
    rw [Record.line, String.toList_ofList]
    exact Json.not_mem_compact record.object

/-- Reports with the same text have the same findings. -/
theorem records_eq_of_recordsText_eq {other : Report}
    (h : other.recordsText = report.recordsText) : other.records = report.records := by
  have hpieces := pieces_recordsText other
  rw [h, pieces_recordsText, List.append_cancel_right_eq, List.map_map, List.map_map] at hpieces
  refine List.map_injective_iff.2 (fun record record' hline => ?_) hpieces.symm
  have hobject := congrArg Json.parse? (String.toList_inj.1 hline)
  rw [Record.parse?_line, Record.parse?_line, Option.some.injEq] at hobject
  exact Record.object_injective hobject

/-- **The text of the findings is read back line by line.** What is put out is the text as it
was written: lines with a line break behind each, none of them empty, and nothing at all
when nothing was found. The line breaks cut it into these lines again; by the grammar each
of them writes one object, and these are the objects of the shared images, the unreferenced
images, the shared types and the unreferenced types, each with its kind, its name, its place
and, for what is shared, the number of files. So two reports have the same text exactly when
they have the same findings. -/
theorem parse?_lines (report : Report) (coloured : Bool) :
    ∃ lines : List String,
      (report.text .ndjson coloured).toList = lines.flatMap (fun line => line.toList ++ ['\n']) ∧
      Text.pieces '\n' (report.text .ndjson coloured).toList = lines.map String.toList ++ [[]] ∧
      (∀ line ∈ lines, line ≠ "") ∧
      (∀ line ∈ lines, ∀ value,
        Json.WritesPadded line.toList value ↔ Json.parse? line = some value) ∧
      lines.map Json.parse? =
        report.sharedAssets.map (fun asset => some (.object [
            ("kind", .string "asset_collision"), ("name", .string asset.name),
            ("location", .null), ("count", .ofNat asset.count)])) ++
        report.unreferencedAssets.map (fun asset => some (.object [
            ("kind", .string "asset"), ("name", .string asset.name),
            ("location", (asset.location?.map Json.string).getD .null)])) ++
        report.sharedSymbols.map (fun symbol => some (.object [
            ("kind", .string "symbol_collision"), ("name", .string symbol.name),
            ("location", .string symbol.kept), ("count", .ofNat (symbol.shadowed.length + 1))])) ++
        report.unreferencedSymbols.map (fun symbol => some (.object [
            ("kind", .string "symbol"), ("name", .string symbol.name),
            ("location", .string symbol.file)])) ∧
      (report.text .ndjson coloured = "" ↔ report.sharedAssets = [] ∧
        report.unreferencedAssets = [] ∧ report.sharedSymbols = [] ∧
          report.unreferencedSymbols = []) ∧
      report.text .ndjson coloured = report.recordsText ∧
      ∀ (other : Report) (coloured' : Bool),
        other.text .ndjson coloured' = report.text .ndjson coloured ↔
          other.records = report.records := by
  simp only [text_ndjson]
  refine ⟨report.records.map Record.line, ?_, pieces_recordsText report, ?_, ?_, ?_, ?_, trivial,
    fun other _ => ⟨records_eq_of_recordsText_eq, fun h => ?_⟩⟩
  · rw [toList_recordsText, List.flatMap_map, List.flatMap_map]
  · intro line hline
    obtain ⟨record, -, rfl⟩ := List.mem_map.1 hline
    exact record.line_ne_empty
  · exact fun line _ value => Json.parse?_eq_some_iff.symm
  · rw [List.map_map]
    simp [records, Function.comp_def, Record.parse?_line, Record.object]
  · have hempty : report.recordsText = "" ↔ report.records = [] := by
      rw [← String.toList_inj, toList_recordsText]
      cases report.records <;> simp
    rw [hempty]
    simp [records]
  · rw [recordsText, recordsText, h]

end Report

end Unreferenced
