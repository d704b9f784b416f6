import Unreferenced.Proofs.CommandLine.Run
import Unreferenced.Proofs.Report.Page
import Unreferenced.Proofs.Styled

/-!
# The colours of a page

A page in colour is the plain page with sequences in it, when no text of the report brings
the character with it that begins a sequence: a terminal shows the same characters, each in
the style of its stretch of the page, and the styles never run into each other. A page that
goes to a file is the plain one and has no sequence at all. The main result is
`Unreferenced.Report.page_coloured`.
-/

namespace Unreferenced

/-- **Colours change nothing but the sequences.** Take a report with no text in it that has
the character that begins a sequence. What is shown of its page in colour is the page without
colours. The sequences in it are openings and resets in turn, from an opening to a reset.
Every character is shown in the style of its stretch and in no other, and in none where the
stretch has none. The page without colours has no sequence in it, and this is what a file
for the report holds when it is written. -/
theorem Report.page_coloured {report : Report}
    (h : ∀ text ∈ report.texts, '\x1b' ∉ text.toList) :
    shownText (report.page true).toList = (report.page false).toList ∧
      Alternates (sequencesIn (report.page true).toList) ∧
      paint [] (signals (report.page true).toList) =
        (spansOf report.pageLines).flatMap Span.painted ∧
      '\x1b' ∉ (report.page false).toList ∧
      ∀ (options : Options) (coloured : Bool) (tree : FileTree) (file : FilePath),
        options.output? = some file →
        (options.putReport coloured tree report .terminal).error? = none →
        (options.putReport coloured tree report .terminal).tree.bytes? file =
          some (report.page false).toUTF8 := by
  have hlines := not_mem_pageLines (by decide) h
  refine ⟨shownText_writeLines hlines, alternates_writeLines hlines, paint_writeLines hlines,
    not_mem_writeLines hlines, fun options coloured tree file houtput hput => ?_⟩
  obtain ⟨-, hbytes⟩ := Options.putReport_of_ok hput
  rw [(hbytes file).2, houtput, if_pos (FileTree.leadsTo_some_iff.2 rfl)]
  rfl

/-- A report with a finding of each kind has no such text, and its page can be written. -/
theorem Report.twins_coloured :
    (∀ text ∈ twinReport.texts, '\x1b' ∉ text.toList) ∧
      shownText (twinReport.page true).toList = (twinReport.page false).toList ∧
      (({ output? := some ⟨"out"⟩ } : Options).putReport true sampleTree twinReport
        .terminal).tree.bytes? ⟨"out"⟩ = some (twinReport.page false).toUTF8 := by
  have h : ∀ text ∈ twinReport.texts, '\x1b' ∉ text.toList := by decide +kernel
  obtain ⟨hshown, -, -, -, hwritten⟩ := page_coloured h
  exact ⟨h, hshown, hwritten _ true sampleTree _ rfl (by decide +kernel)⟩

end Unreferenced
