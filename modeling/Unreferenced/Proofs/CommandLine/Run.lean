import Unreferenced.CommandLine.Run
import Unreferenced.Proofs.FileTree.Writing
import Unreferenced.Proofs.Scan
import Unreferenced.Proofs.Walk.Files

/-!
# What a run leaves behind

A run finds out all that it has to say before it prints or writes anything. What can keep it
from that is listed here (`Unreferenced.Options.IsFatal`): a settings file that is no text or
does not give settings, an unknown format, a root that is absent or no directory. It is
exactly what makes the first part of a run fail
(`Unreferenced.Options.exists_error_findings_iff`), and then nothing is printed and the tree
stays as it is, whatever files the command line names (`Unreferenced.run_of_isFatal`).

A run that succeeds puts the report out in one place: on the standard output or in a file.
The one prints lines and the other adds a line break to what it writes, but both come to the
text of the report (`Unreferenced.Options.putReport_of_none`,
`Unreferenced.Options.putReport_of_some`). Without colours it is the same text, and all other
files are left as the same run without a file leaves them
(`Unreferenced.run_written_eq_printed`).
-/

namespace Unreferenced

/-! ### Steps that may fail -/

section Steps

variable {ε ε' α β : Type} {result : Except ε α} {error : ε}

theorem bind_eq_error_iff {f : α → Except ε β} :
    (result >>= f) = .error error ↔
      result = .error error ∨ ∃ a, result = .ok a ∧ f a = .error error := by
  cases result <;> simp [bind, Except.bind]

theorem bind_pure_eq_error_iff {f : α → β} :
    (result >>= fun a => pure (f a)) = .error error ↔ result = .error error := by
  simp [bind_eq_error_iff, pure, Except.pure]

theorem mapError_eq_error_iff {f : ε → ε'} {error' : ε'} :
    result.mapError f = .error error' ↔ ∃ error, result = .error error ∧ f error = error' := by
  cases result <;> simp [Except.mapError]

theorem mapError_eq_ok_iff {f : ε → ε'} {a : α} :
    result.mapError f = .ok a ↔ result = .ok a := by
  cases result <;> simp [Except.mapError]

end Steps

namespace Options

variable {options : Options} {tree : FileTree}

/-! ### What a run can fail at -/

/-- The settings file of a run, if it has one: the one that is named, or the first of those
that the project may hold. -/
def settingsPath? (options : Options) (tree : FileTree) : Option FilePath :=
  options.config?.or ((settingsNames.map options.path.join).find? tree.isFile)

/-- A run fails to get settings exactly when its settings file gives none. -/
theorem settings_eq_error_iff {error : SettingsError} :
    options.settings tree = .error error ↔
      ∃ path, options.settingsPath? tree = some path ∧ tree.settingsAt path = .error error := by
  rw [settings, settingsPath?]
  cases options.config? with
  | some path => exact bind_pure_eq_error_iff.trans (by simp)
  | none =>
    refine bind_pure_eq_error_iff.trans ?_
    rw [FileTree.settingsOf, Option.none_or]
    cases (settingsNames.map options.path.join).find? tree.isFile <;> simp

/-- What keeps a run from its findings. -/
inductive IsFatal (options : Options) (tree : FileTree) : Prop
  /-- The settings file is not there, or is no text. -/
  | unreadable {path : FilePath} (hpath : options.settingsPath? tree = some path)
    (h : tree.text? path = none) : IsFatal options tree
  /-- The text of the settings file does not give settings. -/
  | malformed {path : FilePath} {text : String} {error : SettingsError}
    (hpath : options.settingsPath? tree = some path) (htext : tree.text? path = some text)
    (h : Settings.ofText path.extension? text = .error error) : IsFatal options tree
  /-- No format is given, and the settings name an unknown one. -/
  | unknownFormat {settings : Settings} (hformat : options.format? = none)
    (hsettings : options.settings tree = .ok settings)
    (h : ReportFormat.ofName? settings.report.format = none) : IsFatal options tree
  /-- Nothing is at the root. -/
  | rootNotFound (hfile : tree.isFile options.path = false)
    (hdirectory : tree.isDirectory options.path = false) : IsFatal options tree
  /-- A file is at the root. -/
  | rootNotDirectory (h : tree.isFile options.path = true) : IsFatal options tree

theorem format_eq_error_iff {settings : Settings} {error : RunError} :
    options.format settings = .error error ↔
      options.format? = none ∧ ReportFormat.ofName? settings.report.format = none ∧
        .unknownFormat settings.report.format = error := by
  rw [format]
  cases options.format? <;> cases ReportFormat.ofName? settings.report.format <;> simp

end Options

theorem FileTree.exists_error_settingsAt_iff {tree : FileTree} {path : FilePath} :
    (∃ error, tree.settingsAt path = .error error) ↔
      tree.text? path = none ∨
        ∃ text error, tree.text? path = some text ∧
          Settings.ofText path.extension? text = .error error := by
  rw [settingsAt]
  cases tree.text? path <;> simp

theorem FileTree.exists_error_scan_iff {tree : FileTree} {settings : Settings} {passes : Passes}
    {root : FilePath} :
    (∃ error, tree.scan settings passes root = .error error) ↔
      tree.isDirectory root = false := by
  cases hscan : tree.scan settings passes root with
  | ok scan => simp [(scan_eq_ok_iff.1 hscan).1]
  | error error =>
    refine iff_of_true ⟨error, rfl⟩ (Bool.eq_false_iff.2 fun hroot => ?_)
    have hok : tree.scan settings passes root =
        .ok (.ofFiles settings passes root (tree.projectFiles settings root)) :=
      scan_eq_ok_iff.2 ⟨hroot, rfl⟩
    rw [hscan] at hok
    cases hok

/-- The root is no directory when it is a file or nothing. -/
theorem FileTree.isDirectory_eq_false_iff {tree : FileTree} {path : FilePath} :
    tree.isDirectory path = false ↔
      tree.isFile path = true ∨ tree.isFile path = false ∧ tree.isDirectory path = false := by
  rw [isFile, isDirectory]
  rcases tree.find? path with _ | ⟨⟩ | ⟨⟩ | ⟨⟩ <;> simp

namespace Options

variable {options : Options} {tree : FileTree}

/-- **The settings, the format and the scan of a run can each fail**, one after the other. -/
theorem findings_eq_error_iff {error : RunError} :
    options.findings tree = .error error ↔
      (∃ e, options.settings tree = .error e ∧ .settings e = error) ∨
        ∃ settings, options.settings tree = .ok settings ∧
          (options.format settings = .error error ∨
            (∃ format, options.format settings = .ok format) ∧
              ∃ e, tree.scan settings options.passes options.path = .error e ∧
                .scan e = error) := by
  rw [findings, bind_eq_error_iff, mapError_eq_error_iff]
  -- the report that is made at the end cannot fail
  simp only [mapError_eq_ok_iff, bind_eq_error_iff, mapError_eq_error_iff, pure, Except.pure,
    reduceCtorEq, and_false, exists_false, or_false, ← exists_and_right]

/-- A run has findings unless its settings or its format fail, or its root is no directory. -/
theorem exists_error_findings_iff :
    (∃ error, options.findings tree = .error error) ↔
      (∃ error, options.settings tree = .error error) ∨
        (∃ settings, options.settings tree = .ok settings ∧
          ∃ error, options.format settings = .error error) ∨
        tree.isDirectory options.path = false := by
  simp only [findings_eq_error_iff]
  constructor
  · rintro ⟨error, ⟨e, he, -⟩ | ⟨settings, hsettings, hformat | ⟨-, e, he, -⟩⟩⟩
    · exact .inl ⟨e, he⟩
    · exact .inr (.inl ⟨settings, hsettings, error, hformat⟩)
    · exact .inr (.inr (FileTree.exists_error_scan_iff.1 ⟨e, he⟩))
  · rintro (⟨e, he⟩ | ⟨settings, hsettings, error, hformat⟩ | hroot)
    · exact ⟨_, .inl ⟨e, he, rfl⟩⟩
    · exact ⟨error, .inr ⟨settings, hsettings, .inl hformat⟩⟩
    · -- the scan is not come to when a step before it fails
      cases hsettings : options.settings tree with
      | error e => exact ⟨_, .inl ⟨e, rfl, rfl⟩⟩
      | ok settings =>
        cases hformat : options.format settings with
        | error error => exact ⟨error, .inr ⟨settings, rfl, .inl hformat⟩⟩
        | ok format =>
          obtain ⟨e, he⟩ := FileTree.exists_error_scan_iff.2 hroot
          exact ⟨_, .inr ⟨settings, rfl, .inr ⟨⟨format, hformat⟩, e, he, rfl⟩⟩⟩

/-- **A run has findings unless something is fatal.** -/
theorem isFatal_iff :
    options.IsFatal tree ↔ ∃ error, options.findings tree = .error error := by
  rw [exists_error_findings_iff]
  constructor
  · rintro (⟨hpath, h⟩ | ⟨hpath, htext, h⟩ | ⟨hformat, hsettings, h⟩ | ⟨-, h⟩ | h)
    · obtain ⟨error, hat⟩ := FileTree.exists_error_settingsAt_iff.2 (.inl h)
      exact .inl ⟨error, settings_eq_error_iff.2 ⟨_, hpath, hat⟩⟩
    · obtain ⟨error, hat⟩ := FileTree.exists_error_settingsAt_iff.2 (.inr ⟨_, _, htext, h⟩)
      exact .inl ⟨error, settings_eq_error_iff.2 ⟨_, hpath, hat⟩⟩
    · exact .inr (.inl ⟨_, hsettings, _, format_eq_error_iff.2 ⟨hformat, h, rfl⟩⟩)
    · exact .inr (.inr h)
    · exact .inr (.inr (FileTree.isDirectory_eq_false_iff.2 (.inl h)))
  · rintro (⟨error, h⟩ | ⟨settings, hsettings, error, h⟩ | h)
    · obtain ⟨path, hpath, hat⟩ := settings_eq_error_iff.1 h
      rcases FileTree.exists_error_settingsAt_iff.1 ⟨error, hat⟩ with
        htext | ⟨text, error, htext, hparse⟩
      · exact .unreadable hpath htext
      · exact .malformed hpath htext hparse
    · obtain ⟨hformat, hname, -⟩ := format_eq_error_iff.1 h
      exact .unknownFormat hformat hsettings hname
    · rcases FileTree.isDirectory_eq_false_iff.1 h with hfile | ⟨hfile, hdirectory⟩
      · exact .rootNotDirectory hfile
      · exact .rootNotFound hfile hdirectory

/-- What keeps a run from its findings is not that its arguments are malformed. -/
theorem exitCode_of_findings {error : RunError} (h : options.findings tree = .error error) :
    error.exitCode = 1 := by
  rcases findings_eq_error_iff.1 h with
    ⟨e, -, rfl⟩ | ⟨settings, -, hformat | ⟨-, e, -, rfl⟩⟩
  · rfl
  · obtain ⟨-, -, rfl⟩ := format_eq_error_iff.1 hformat
    rfl
  · rfl

end Options

/-! ### Runs that fail before they put anything out -/

theorem run_of_scan {arguments : List String} {options : Options}
    (h : Request.ofArguments? arguments = some (.scan options)) (coloured : Bool)
    (tree : FileTree) : run arguments coloured tree = options.run coloured tree := by
  rw [run, h]

/-- **A run that something is fatal to leaves no trace**: its exit code is 1, it prints
nothing, and the tree after it is the tree before it, whatever else the command line asks
for. -/
theorem run_of_isFatal {arguments : List String} {options : Options} {tree : FileTree}
    (hscan : Request.ofArguments? arguments = some (.scan options))
    (hfatal : options.IsFatal tree) (coloured : Bool) :
    (run arguments coloured tree).exitCode = 1 ∧ (run arguments coloured tree).printed = "" ∧
      (run arguments coloured tree).tree = tree := by
  obtain ⟨error, herror⟩ := Options.isFatal_iff.1 hfatal
  have hrun : run arguments coloured tree = { error? := some error, tree } := by
    rw [run_of_scan hscan, Options.run, herror]
  rw [hrun]
  exact ⟨Options.exitCode_of_findings herror, rfl, rfl⟩

/-- The settings file is a source file, and two other files are to be written. -/
def sampleOptions : Options where
  path := ⟨"app"⟩
  config? := some ⟨"app/Home.swift"⟩
  output? := some ⟨"out"⟩
  deletionList? := some ⟨"gone"⟩

/-- A source file named as the settings file is fatal: neither of the two files is written. -/
theorem run_of_source_as_settings :
    Request.ofArguments? ["-c", "app/Home.swift", "-o", "out", "--deletion-list", "gone", "app"] =
        some (.scan sampleOptions) ∧
      sampleOptions.IsFatal sampleTree ∧
      (run ["-c", "app/Home.swift", "-o", "out", "--deletion-list", "gone", "app"] false
        sampleTree).tree = sampleTree := by
  have hscan : Request.ofArguments?
      ["-c", "app/Home.swift", "-o", "out", "--deletion-list", "gone", "app"] =
        some (.scan sampleOptions) := by decide +kernel
  have htext : sampleTree.text? ⟨"app/Home.swift"⟩ = some "class Home {}" := by decide +kernel
  have hmalformed : Settings.ofText (FilePath.extension? ⟨"app/Home.swift"⟩) "class Home {}" =
      .error .invalid := by decide +kernel
  have hfatal : sampleOptions.IsFatal sampleTree := .malformed rfl htext hmalformed
  exact ⟨hscan, hfatal, (run_of_isFatal hscan hfatal false).2.2⟩

/-! ### Runs that succeed -/

/-- A run that ends well has not failed anywhere. -/
theorem Outcome.exitCode_eq_zero_iff {outcome : Outcome} :
    outcome.exitCode = 0 ↔ outcome.error? = none := by
  rw [exitCode]
  cases outcome.error? with
  | none => simp
  | some error => cases error <;> simp [RunError.exitCode]

/-- A path leads to the file that another path leads to, if there is another path. -/
def FileTree.LeadsTo (tree : FileTree) (other : FilePath) (path? : Option FilePath) : Prop :=
  ∃ path ∈ path?, tree.target? other = tree.target? path

instance (tree : FileTree) (other : FilePath) (path? : Option FilePath) :
    Decidable (tree.LeadsTo other path?) :=
  inferInstanceAs (Decidable (∃ path ∈ path?, _))

theorem FileTree.not_leadsTo_none {tree : FileTree} {other : FilePath} :
    ¬tree.LeadsTo other none := by
  rintro ⟨_, h, -⟩
  cases h

theorem FileTree.leadsTo_some_iff {tree : FileTree} {other path : FilePath} :
    tree.LeadsTo other (some path) ↔ tree.target? other = tree.target? path := by
  simp [LeadsTo]

namespace Options

variable {options : Options} {tree : FileTree} {report : Report} {format : ReportFormat}
  {coloured : Bool}

/-- A text of data is printed with one line break behind it, unless it is empty. -/
theorem putData_of_none (houtput : options.output? = none) (text : String) :
    options.putData tree text = { printed := endedOnce text, tree } := by
  rw [putData, houtput, endedOnce]
  dsimp only
  split
  · rfl
  · rw [Outcome.printLine, Outcome.print, String.empty_append]

/-- **The standard output gets the text of a report**, in every format. -/
theorem putReport_of_none (houtput : options.output? = none) :
    options.putReport coloured tree report format =
      { printed := report.text format coloured, tree } := by
  cases format with
  | terminal => rw [putReport, putPage, houtput, Outcome.print, String.empty_append, Report.text]
  | json => exact putData_of_none houtput _
  | ndjson => exact putData_of_none houtput _

/-- **A file gets the text of a report without colours**, in every format. -/
theorem putReport_of_some {file : FilePath} (houtput : options.output? = some file) :
    options.putReport coloured tree report format =
      Outcome.writeReport { tree } file (report.text format false) := by
  cases format <;> simp only [putReport, putPage, putData, houtput, Report.text, endedOnce]

/-- A report that was put out without a failure is printed or in its file. -/
theorem putReport_of_ok (h : (options.putReport coloured tree report format).error? = none) :
    (options.putReport coloured tree report format).printed =
        options.output?.elim (report.text format coloured) (fun _ => "") ∧
      ∀ other,
        (options.putReport coloured tree report format).tree.target? other =
            tree.target? other ∧
          (options.putReport coloured tree report format).tree.bytes? other =
            if tree.LeadsTo other options.output? then some (report.text format false).toUTF8
            else tree.bytes? other := by
  cases houtput : options.output? with
  | none =>
    rw [putReport_of_none houtput]
    exact ⟨rfl, fun other => ⟨rfl, (if_neg FileTree.not_leadsTo_none).symm⟩⟩
  | some file =>
    rw [putReport_of_some houtput, Outcome.writeReport] at h ⊢
    dsimp only at h ⊢
    cases hwrite : tree.writeText file (report.text format false) with
    | none =>
      rw [hwrite] at h
      cases h
    | some tree' =>
      refine ⟨rfl, fun other => ⟨FileTree.target?_of_write hwrite other, ?_⟩⟩
      simp only [FileTree.leadsTo_some_iff]
      exact FileTree.bytes?_of_write hwrite other

/-- The names of the unreferenced types are written last, and nothing else then. -/
theorem putDeletionList_of_ok {outcome : Outcome}
    (h : (options.putDeletionList report outcome).error? = none) :
    outcome.error? = none ∧
      (options.putDeletionList report outcome).printed = outcome.printed ∧
      ∀ other,
        (options.putDeletionList report outcome).tree.bytes? other =
          if outcome.tree.LeadsTo other options.deletionList? then
            some report.deletionList.toUTF8
          else outcome.tree.bytes? other := by
  rw [putDeletionList] at h ⊢
  cases herror : outcome.error? with
  | some error =>
    rw [herror] at h
    dsimp only at h
    rw [herror] at h
    cases h
  | none =>
    cases hlist : options.deletionList? with
    | none => exact ⟨rfl, rfl, fun other => (if_neg FileTree.not_leadsTo_none).symm⟩
    | some list =>
      rw [herror, hlist] at h
      dsimp only at h ⊢
      cases hwrite : outcome.tree.writeText list report.deletionList with
      | none =>
        rw [hwrite] at h
        cases h
      | some tree' =>
        refine ⟨rfl, rfl, fun other => ?_⟩
        simp only [FileTree.leadsTo_some_iff]
        exact FileTree.bytes?_of_write hwrite other

/-- **What a run that ends well leaves behind**: the names of the unreferenced types in their
file, the report without colours in its file or as it is on the standard output, and every
other file as it was. -/
theorem run_of_ok (h : (options.run coloured tree).exitCode = 0) :
    ∃ report format, options.findings tree = .ok (report, format) ∧
      (options.run coloured tree).printed =
        options.output?.elim (report.text format coloured) (fun _ => "") ∧
      ∀ other,
        (options.run coloured tree).tree.bytes? other =
          if tree.LeadsTo other options.deletionList? then some report.deletionList.toUTF8
          else if tree.LeadsTo other options.output? then
            some (report.text format false).toUTF8
          else tree.bytes? other := by
  rw [Outcome.exitCode_eq_zero_iff, run] at h
  rw [run]
  cases hfindings : options.findings tree with
  | error error =>
    rw [hfindings] at h
    cases h
  | ok findings =>
    obtain ⟨report, format⟩ := findings
    rw [hfindings] at h
    obtain ⟨hput, hprinted, hlist⟩ := putDeletionList_of_ok h
    obtain ⟨hprinted', hreport⟩ := putReport_of_ok hput
    refine ⟨report, format, rfl, hprinted.trans hprinted', fun other => (hlist other).trans ?_⟩
    have hleads : ∀ path?,
        (options.putReport coloured tree report format).tree.LeadsTo other path? ↔
          tree.LeadsTo other path? := by
      intro path?
      simp only [FileTree.LeadsTo, fun path => (hreport path).1]
    rw [(hreport other).2]
    exact if_congr (hleads _) rfl rfl

end Options

/-- **A file holds what would be printed.** Take a command line that prints its report and one
that asks for the same with the report in a file, other than the one for the names of the
unreferenced types. When both runs end well, the first without colours, then the second
prints nothing, its file has the bytes that the first has printed, and every other file is
in both trees the same; so are the names of the unreferenced types, if they are asked for. -/
theorem run_written_eq_printed {arguments arguments' : List String} {options : Options}
    {file : FilePath} {tree : FileTree} {coloured : Bool}
    (hscan : Request.ofArguments? arguments = some (.scan options))
    (hprint : options.output? = none)
    (hscan' : Request.ofArguments? arguments' =
      some (.scan { options with output? := some file }))
    (hlist : ∀ list, options.deletionList? = some list → tree.target? list ≠ tree.target? file)
    (hcode : (run arguments false tree).exitCode = 0)
    (hcode' : (run arguments' coloured tree).exitCode = 0) :
    (run arguments' coloured tree).printed = "" ∧
      (run arguments' coloured tree).tree.bytes? file =
        some (run arguments false tree).printed.toUTF8 ∧
      (∀ other, tree.target? other ≠ tree.target? file →
        (run arguments' coloured tree).tree.bytes? other =
          (run arguments false tree).tree.bytes? other) ∧
      ∀ list, options.deletionList? = some list →
        ∃ names, (run arguments false tree).tree.bytes? list = some names ∧
          (run arguments' coloured tree).tree.bytes? list = some names := by
  rw [run_of_scan hscan] at hcode ⊢
  rw [run_of_scan hscan'] at hcode' ⊢
  obtain ⟨report, format, hfindings, hprinted, hbytes⟩ := Options.run_of_ok hcode
  obtain ⟨report', format', hfindings', hprinted', hbytes'⟩ := Options.run_of_ok hcode'
  -- where the report goes is no part of the findings
  obtain ⟨rfl, rfl⟩ : report = report' ∧ format = format' := by
    have h := hfindings.symm.trans hfindings'
    simpa using h
  have hfile : ¬tree.LeadsTo file options.deletionList? := by
    rintro ⟨list, hmem, h⟩
    exact hlist list hmem h.symm
  rw [hprint] at hprinted
  rw [hprinted]
  refine ⟨hprinted', ?_, fun other hother => ?_, fun list hmem => ?_⟩
  · rw [hbytes', if_neg hfile, if_pos (FileTree.leadsTo_some_iff.2 rfl)]
    rfl
  · rw [hbytes', hbytes, hprint, if_neg FileTree.not_leadsTo_none,
      if_neg (mt FileTree.leadsTo_some_iff.1 hother)]
  · have hleads : tree.LeadsTo list options.deletionList? := ⟨list, hmem, rfl⟩
    exact ⟨_, by rw [hbytes, if_pos hleads], by rw [hbytes', if_pos hleads]⟩

/-- In the small project the findings are the same on the standard output and in a file, which
is named by a detour. -/
theorem run_with_output_of_sample :
    Request.ofArguments? ["-f", "ndjson", "--deletion-list", "gone", "app"] =
        some (.scan { path := ⟨"app"⟩, format? := some .ndjson, deletionList? := some ⟨"gone"⟩ }) ∧
      (run ["-f", "ndjson", "--deletion-list", "gone", "app"] false sampleTree).exitCode = 0 ∧
      (run ["-f", "ndjson", "--deletion-list", "gone", "-o", "app/../out", "app"] true
        sampleTree).exitCode = 0 ∧
      (run ["-f", "ndjson", "--deletion-list", "gone", "-o", "app/../out", "app"] true
          sampleTree).tree.bytes? ⟨"app/../out"⟩ =
        some (run ["-f", "ndjson", "--deletion-list", "gone", "app"] false
          sampleTree).printed.toUTF8 := by
  have hscan : Request.ofArguments? ["-f", "ndjson", "--deletion-list", "gone", "app"] =
      some (.scan { path := ⟨"app"⟩, format? := some .ndjson,
                    deletionList? := some ⟨"gone"⟩ }) := by
    decide +kernel
  have hcode : (run ["-f", "ndjson", "--deletion-list", "gone", "app"] false
      sampleTree).exitCode = 0 := by decide +kernel
  have hcode' : (run ["-f", "ndjson", "--deletion-list", "gone", "-o", "app/../out", "app"] true
      sampleTree).exitCode = 0 := by decide +kernel
  have hlist : ∀ list : FilePath, some ⟨"gone"⟩ = some list →
      sampleTree.target? list ≠ sampleTree.target? ⟨"app/../out"⟩ := by
    rintro _ ⟨⟩
    decide +kernel
  have hscan' : Request.ofArguments?
      ["-f", "ndjson", "--deletion-list", "gone", "-o", "app/../out", "app"] =
        some (.scan { path := ⟨"app"⟩, format? := some .ndjson, output? := some ⟨"app/../out"⟩,
                      deletionList? := some ⟨"gone"⟩ }) := by
    decide +kernel
  exact ⟨hscan, hcode, hcode',
    (run_written_eq_printed hscan rfl hscan' hlist hcode hcode').2.1⟩

end Unreferenced
