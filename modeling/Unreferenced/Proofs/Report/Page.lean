import Mathlib.Data.List.Basic
import Unreferenced.Report.Page
import Unreferenced.Text.Pieces

/-!
# What a page is made of

A page holds the texts of its report (`Unreferenced.Report.texts`), numbers, and words of
its own, and its words are in printable characters of ASCII. So a property of characters
that the printable ones have, and all those in the texts of the report, is one of all
characters on the page (`Unreferenced.Report.allOnLines_pageLines`). Statements on pages ask
this about single characters that would upset them: a line break, which would make two
lines out of one, or the character that begins a colour.

Written plainly, a page is its lines with a line break behind each; when no text has a line
break in it, cutting the page at its line breaks gives back the lines
(`Unreferenced.Report.lines_page`).
-/

namespace Unreferenced

/-! ### Texts all of whose characters have a property -/

/-- Whether a character is a printable one of ASCII. -/
def isPrintable (c : Char) : Bool :=
  ' ' ≤ c && c ≤ '~'

/-- All characters of a text have a property. -/
def AllChars (p : Char → Prop) (text : String) : Prop :=
  ∀ c ∈ text.toList, p c

section AllChars

variable {p : Char → Prop}

theorem allChars_append {s t : String} : AllChars p (s ++ t) ↔ AllChars p s ∧ AllChars p t := by
  simp only [AllChars, String.toList_append, List.forall_mem_append]

theorem AllChars.append {s t : String} (hs : AllChars p s) (ht : AllChars p t) :
    AllChars p (s ++ t) :=
  allChars_append.2 ⟨hs, ht⟩

theorem AllChars.intercalate {sep : String} (hsep : AllChars p sep) {texts : List String}
    (h : ∀ text ∈ texts, AllChars p text) : AllChars p (sep.intercalate texts) := by
  induction texts with
  | nil => simp [AllChars]
  | cons first more ih =>
    obtain ⟨hfirst, hmore⟩ := List.forall_mem_cons.1 h
    cases more with
    | nil => rwa [String.intercalate_singleton]
    | cons second more =>
      rw [String.intercalate_cons_cons]
      exact (hfirst.append hsep).append (ih hmore)

variable (hwords : ∀ c, isPrintable c = true → p c)

include hwords

/-- The words of a page have the property, by looking at each of their characters. -/
theorem allChars_words {cs : List Char} (h : cs.all isPrintable = true) :
    AllChars p (String.ofList cs) := by
  intro c hc
  rw [String.toList_ofList] at hc
  exact hwords c (List.all_eq_true.1 h c hc)

/-- A digit is printable. -/
theorem allChars_toString (n : Nat) : AllChars p (toString n) := by
  intro c hc
  rw [Nat.toString_eq_repr, Nat.toList_repr] at hc
  have hdigit := Nat.isDigit_of_mem_toDigits (by decide) (by decide) hc
  refine hwords c ?_
  simp only [Char.isDigit, isPrintable, Bool.and_eq_true, decide_eq_true_eq, Char.le_def,
    UInt32.le_iff_toNat_le, ge_iff_le] at hdigit ⊢
  -- the digits lie between the first printable character and the last
  have hspace : ' '.val.toNat = 0x20 := rfl
  have hzero : '0'.val.toNat = 0x30 := rfl
  have hnine : '9'.val.toNat = 0x39 := rfl
  have htilde : '~'.val.toNat = 0x7e := rfl
  omega

end AllChars

/-! ### The characters of a page -/

namespace Report

/-- The texts in a report. -/
def texts (report : Report) : List String :=
  report.root ::
    (report.sharedAssets.map (·.name) ++
      report.unreferencedAssets.flatMap (fun asset => asset.name :: asset.location?.toList) ++
      report.sharedSymbols.flatMap (fun symbol =>
        symbol.name :: symbol.kept :: symbol.shadowed) ++
      report.unreferencedSymbols.flatMap (fun symbol => [symbol.name, symbol.file]))

/-- The texts in a report, list by list. -/
theorem forall_mem_texts {report : Report} {P : String → Prop} :
    (∀ text ∈ report.texts, P text) ↔
      P report.root ∧ (∀ asset ∈ report.sharedAssets, P asset.name) ∧
        (∀ asset ∈ report.unreferencedAssets,
          P asset.name ∧ ∀ location ∈ asset.location?, P location) ∧
        (∀ symbol ∈ report.sharedSymbols,
          P symbol.name ∧ P symbol.kept ∧ ∀ file ∈ symbol.shadowed, P file) ∧
        ∀ symbol ∈ report.unreferencedSymbols, P symbol.name ∧ P symbol.file := by
  simp only [texts, List.forall_mem_cons, List.forall_mem_append, List.forall_mem_map,
    List.forall_mem_flatMap, Option.mem_toList, Option.mem_def, List.not_mem_nil, false_implies,
    implies_true, and_true, and_assoc]

/-- All characters on some lines have a property. -/
def AllOnLines (p : Char → Prop) (lines : List StyledLine) : Prop :=
  ∀ line ∈ lines, ∀ span ∈ line, AllChars p span.text

section Characters

variable {p : Char → Prop} {report : Report}

theorem allOnLines_append {lines more : List StyledLine} :
    AllOnLines p (lines ++ more) ↔ AllOnLines p lines ∧ AllOnLines p more :=
  List.forall_mem_append

theorem allOnLines_cons {line : StyledLine} {more : List StyledLine} :
    AllOnLines p (line :: more) ↔ (∀ span ∈ line, AllChars p span.text) ∧ AllOnLines p more :=
  List.forall_mem_cons

theorem allOnLines_nil : AllOnLines p [] :=
  List.forall_mem_nil _

/-- A line in one style. -/
theorem allOnLines_singleton {span : Span} : AllOnLines p [[span]] ↔ AllChars p span.text := by
  simp only [AllOnLines, List.forall_mem_singleton]

variable (hwords : ∀ c, isPrintable c = true → p c)

include hwords

theorem allOnLines_rule : AllOnLines p [rule] :=
  allOnLines_singleton.2 (allChars_words hwords (by decide))

theorem allChars_transitiveNote : AllChars p transitiveNote :=
  AllChars.append (allChars_words hwords (by decide)) (allChars_words hwords (by decide))

theorem allOnLines_sharedAssetLines (h : ∀ asset ∈ report.sharedAssets, AllChars p asset.name) :
    AllOnLines p report.sharedAssetLines := by
  rw [sharedAssetLines]
  split
  · exact allOnLines_nil
  · refine allOnLines_append.2 ⟨allOnLines_cons.2 ⟨?_, ?_⟩, allOnLines_rule hwords⟩
    · exact List.forall_mem_singleton.2 (allChars_words hwords (by decide))
    · refine List.forall_mem_map.2 fun asset hmem => List.forall_mem_singleton.2 ?_
      simp only [unstyled, allChars_append, and_assoc]
      exact ⟨allChars_words hwords (by decide), h asset hmem, allChars_words hwords (by decide),
        allChars_toString hwords _, allChars_words hwords (by decide)⟩

theorem allOnLines_unreferencedAssetLines {asset : UnreferencedAsset}
    (hname : AllChars p asset.name)
    (hlocation : ∀ location ∈ asset.location?, AllChars p location) :
    AllOnLines p (unreferencedAssetLines asset) := by
  refine allOnLines_cons.2 ⟨List.forall_mem_cons.2 ⟨?_, List.forall_mem_singleton.2 hname⟩, ?_⟩
  · exact allChars_words hwords (by decide)
  · cases hsome : asset.location? with
    | none => exact allOnLines_nil
    | some location =>
      refine allOnLines_singleton.2 (allChars_append.2 ⟨allChars_append.2 ⟨?_, ?_⟩, ?_⟩)
      · exact allChars_words hwords (by decide)
      · exact hlocation location hsome
      · exact allChars_words hwords (by decide)

theorem allOnLines_assetLines (hshared : ∀ asset ∈ report.sharedAssets, AllChars p asset.name)
    (hunreferenced : ∀ asset ∈ report.unreferencedAssets,
      AllChars p asset.name ∧ ∀ location ∈ asset.location?, AllChars p location) :
    AllOnLines p report.assetLines := by
  simp only [assetLines, allOnLines_append, allOnLines_cons, List.forall_mem_singleton, rule,
    allOnLines_nil, and_true, and_assoc]
  refine ⟨allChars_words hwords (by decide), allChars_words hwords (by decide),
    allOnLines_sharedAssetLines hwords hshared, allChars_words hwords (by decide), ?_,
    allChars_words hwords (by decide)⟩
  split
  · exact allOnLines_singleton.2 (allChars_words hwords (by decide))
  · refine allOnLines_cons.2 ⟨List.forall_mem_singleton.2 ?_, ?_⟩
    · simp only [styled, allChars_append, and_assoc]
      exact ⟨allChars_words hwords (by decide), allChars_toString hwords _,
        allChars_words hwords (by decide)⟩
    · refine List.forall_mem_flatMap.2 fun asset hmem => ?_
      obtain ⟨hname, hlocation⟩ := hunreferenced asset hmem
      exact allOnLines_unreferencedAssetLines hwords hname hlocation

theorem allOnLines_sharedSymbolLines (h : ∀ symbol ∈ report.sharedSymbols,
      AllChars p symbol.name ∧ AllChars p symbol.kept ∧
        ∀ file ∈ symbol.shadowed, AllChars p file) :
    AllOnLines p report.sharedSymbolLines := by
  rw [sharedSymbolLines]
  split
  · exact allOnLines_nil
  · refine allOnLines_append.2 ⟨allOnLines_cons.2 ⟨?_, ?_⟩, allOnLines_rule hwords⟩
    · exact List.forall_mem_singleton.2 (allChars_words hwords (by decide))
    · refine List.forall_mem_map.2 fun symbol hmem => List.forall_mem_singleton.2 ?_
      obtain ⟨hname, hkept, hshadowed⟩ := h symbol hmem
      simp only [unstyled, allChars_append, and_assoc]
      exact ⟨allChars_words hwords (by decide), hname, allChars_words hwords (by decide), hkept,
        allChars_words hwords (by decide),
        .intercalate (allChars_words hwords (by decide)) hshadowed,
        allChars_words hwords (by decide)⟩

theorem allOnLines_symbolLines
    (hshared : ∀ symbol ∈ report.sharedSymbols, AllChars p symbol.name ∧
      AllChars p symbol.kept ∧ ∀ file ∈ symbol.shadowed, AllChars p file)
    (hunreferenced : ∀ symbol ∈ report.unreferencedSymbols,
      AllChars p symbol.name ∧ AllChars p symbol.file) :
    AllOnLines p report.symbolLines := by
  simp only [symbolLines, allOnLines_append, allOnLines_cons, List.forall_mem_singleton, rule,
    allOnLines_nil, and_true, and_assoc]
  refine ⟨allChars_words hwords (by decide), allChars_words hwords (by decide),
    allOnLines_sharedSymbolLines hwords hshared, ?_, allChars_words hwords (by decide)⟩
  split
  · exact allOnLines_singleton.2 (allChars_words hwords (by decide))
  · refine allOnLines_append.2 ⟨allOnLines_cons.2 ⟨List.forall_mem_singleton.2 ?_, ?_⟩, ?_⟩
    · simp only [styled, allChars_append, and_assoc]
      exact ⟨allChars_words hwords (by decide), allChars_toString hwords _,
        allChars_words hwords (by decide)⟩
    · refine List.forall_mem_map.2 fun symbol hmem => ?_
      obtain ⟨hname, hfile⟩ := hunreferenced symbol hmem
      simp only [List.forall_mem_cons, List.not_mem_nil, false_implies, implies_true, and_true,
        unstyled, styled, allChars_append, and_assoc]
      exact ⟨allChars_words hwords (by decide), hname, allChars_words hwords (by decide),
        allChars_words hwords (by decide), hfile, allChars_words hwords (by decide)⟩
    · refine allOnLines_cons.2 ⟨List.forall_mem_singleton.2 (allChars_words hwords (by decide)),
        allOnLines_singleton.2 ?_⟩
      exact AllChars.append (allChars_words hwords (by decide)) (allChars_transitiveNote hwords)

/-- **What is on a page** are the words of the page, numbers, and the texts of its report. -/
theorem allOnLines_pageLines (htexts : ∀ text ∈ report.texts, AllChars p text) :
    AllOnLines p report.pageLines := by
  obtain ⟨hroot, hsharedAssets, hassets, hsharedSymbols, hsymbols⟩ := forall_mem_texts.1 htexts
  simp only [pageLines, allOnLines_append, allOnLines_cons, List.forall_mem_singleton, rule,
    styled, unstyled, allChars_append, allOnLines_nil, and_true, and_assoc]
  -- the parts on images and on types, which the scan may not have looked for, come last
  refine ⟨allChars_words hwords (by decide), allChars_words hwords (by decide),
    allChars_words hwords (by decide), hroot, allChars_words hwords (by decide), ?_, ?_,
    allChars_words hwords (by decide), allChars_words hwords (by decide)⟩ <;> split
  · exact allOnLines_assetLines hwords hsharedAssets hassets
  · exact allOnLines_nil
  · exact allOnLines_symbolLines hwords hsharedSymbols hsymbols
  · exact allOnLines_nil

end Characters

/-- A character that is not printable is on no line of a page when it is in none of the texts
of the report. -/
theorem not_mem_pageLines {report : Report} {c : Char} (hc : isPrintable c = false)
    (htexts : ∀ text ∈ report.texts, c ∉ text.toList) :
    ∀ line ∈ report.pageLines, ∀ span ∈ line, c ∉ span.text.toList := by
  have hwords : ∀ b, isPrintable b = true → b ≠ c := by
    rintro b hb rfl
    exact Bool.false_ne_true (hc.symm.trans hb)
  have hpage := allOnLines_pageLines hwords fun text hmem b hb hbc =>
    htexts text hmem (hbc ▸ hb)
  exact fun line hline span hspan hmem => hpage line hline span hspan c hmem rfl

end Report

/-! ### The lines of a page -/

/-- The lines of a text, as its line breaks cut it; the last of them is what stands behind the
last line break. -/
def Text.lines (text : String) : List String :=
  (pieces '\n' text.toList).map String.ofList

/-- Lines with a line break behind each are cut into these lines again. -/
theorem Text.lines_eq {text : String} {lines : List String}
    (htext : text.toList = (lines.map String.toList).flatMap (· ++ ['\n']))
    (h : ∀ line ∈ lines, '\n' ∉ line.toList) : Text.lines text = lines ++ [""] := by
  rw [Text.lines, htext, Text.pieces_flatMap (List.forall_mem_map.2 h), List.map_append,
    List.map_map]
  simp [Function.comp_def]

/-- A line without its styles. -/
def StyledLine.plain (line : StyledLine) : String :=
  String.ofList (line.flatMap (·.text.toList))

theorem StyledLine.plain_nil : StyledLine.plain [] = "" :=
  rfl

theorem StyledLine.plain_cons (span : Span) (line : StyledLine) :
    StyledLine.plain (span :: line) = span.text ++ line.plain := by
  rw [← String.toList_inj]
  simp [StyledLine.plain]

theorem StyledLine.plain_singleton (span : Span) : StyledLine.plain [span] = span.text := by
  rw [plain_cons, plain_nil, String.append_empty]

theorem StyledLine.write_plain (line : StyledLine) :
    line.write false = line.plain.toList ++ ['\n'] := by
  rw [StyledLine.write, StyledLine.plain, String.toList_ofList]
  rfl

theorem toList_writeLines_plain (lines : List StyledLine) :
    (writeLines false lines).toList =
      ((lines.map StyledLine.plain).map String.toList).flatMap (· ++ ['\n']) := by
  rw [writeLines, String.toList_ofList, List.map_map, List.flatMap_map]
  exact List.flatMap_congr fun line _ => line.write_plain

/-- **A page is cut into its lines** when no text of the report has a line break in it. -/
theorem Report.lines_page {report : Report} (h : ∀ text ∈ report.texts, '\n' ∉ text.toList) :
    Text.lines (report.page false) = report.pageLines.map StyledLine.plain ++ [""] := by
  refine Text.lines_eq (toList_writeLines_plain report.pageLines) (List.forall_mem_map.2 ?_)
  intro line hline hmem
  rw [StyledLine.plain, String.toList_ofList] at hmem
  obtain ⟨span, hspan, hc⟩ := List.mem_flatMap.1 hmem
  exact not_mem_pageLines (by decide) h line hline span hspan hc

/-- A report with a finding of each kind. -/
def twinReport : Report where
  root := "app"
  sharedAssets := [⟨"icon", 2⟩]
  unreferencedAssets := [⟨"icon", some "icon.png"⟩]
  sharedSymbols := [⟨"Home", "B.swift", ["A.swift"]⟩]
  unreferencedSymbols := [⟨"Home", "B.swift"⟩]
  summary :=
    { imageFiles := 2, sourceFiles := 2, assetNames := 1, symbolsDeclared := 1,
      symbolsChecked := 1 }

end Unreferenced
