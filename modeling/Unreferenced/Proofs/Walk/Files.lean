import Mathlib.Data.List.Infix
import Unreferenced.Proofs.Exclusion
import Unreferenced.Proofs.FilePath
import Unreferenced.Proofs.FileTree

/-!
# Which files a walk finds

The walk tests every entry on its way down and turns back at a directory that is hidden or
excluded, so what it finds is given, to begin with, by a condition on *all* steps that
lead to a file (`Unreferenced.Settings.Admits`). The condition that one would state is on
the file alone: no name on its path is hidden, and the text of the whole path is not
excluded. The two are the same (`Unreferenced.Settings.admits_iff`), since exclusion is
inherited from a directory to what lies below it: turning back early saves work and hides
nothing.

`Unreferenced.FileTree.mem_projectFiles_iff` puts this together for the files that take
part in a scan. The root enters into it only as the front of their paths, with one
exception: a root that is spelled `-` stands for the standard input, and nothing is found
there (`Unreferenced.FileTree.walk_misses_directory_named_dash`).
-/

namespace Unreferenced

variable {settings : Settings} {above names : List String}

/-! ### The steps to a file -/

/-- No step along the names, from the directory that `above` leads to, is left out. -/
def Settings.Admits (settings : Settings) (above names : List String) : Prop :=
  ∀ front, front ≠ [] → front <+: names → settings.leavesOut (above ++ front) = false

theorem Settings.admits_nil : settings.Admits above [] := by
  intro front hne hfront
  exact absurd (List.prefix_nil.1 hfront) hne

theorem Settings.admits_cons {name : String} :
    settings.Admits above (name :: names) ↔
      settings.leavesOut (above ++ [name]) = false ∧ settings.Admits (above ++ [name]) names := by
  constructor
  · intro h
    refine ⟨h [name] (by simp) ⟨names, rfl⟩, fun front hne hfront => ?_⟩
    rw [List.append_assoc]
    exact h (name :: front) (by simp) (List.cons_prefix_cons.2 ⟨rfl, hfront⟩)
  · rintro ⟨hname, hrest⟩ front hne hfront
    obtain ⟨first, more, rfl⟩ := List.exists_cons_of_ne_nil hne
    obtain ⟨rfl, hmore⟩ := List.cons_prefix_cons.1 hfront
    rcases eq_or_ne more [] with rfl | hmore'
    · exact hname
    · rw [List.append_cons]
      exact hrest more hmore' hmore

/-- **The steps to a file pass exactly when the file itself does**: no name on the way is
hidden, if hidden names are left out, and the path as a whole is not excluded. -/
theorem Settings.admits_iff (hne : names ≠ []) :
    settings.Admits [] names ↔
      (settings.files.skipHidden = true → ∀ name ∈ names, isHiddenName name = false) ∧
        isExcluded settings.exclude (anchoredPath names) = false := by
  constructor
  · intro h
    constructor
    · intro hskip name hmem
      obtain ⟨front, rest, rfl⟩ := List.append_of_mem hmem
      have hfront := h (front ++ [name]) (by simp) ⟨rest, by simp⟩
      simp only [List.nil_append, leavesOut, hskip, Bool.true_and, Bool.or_eq_false_iff,
        List.getLast?_append, List.getLast?_singleton, Option.some_or, Option.any_some] at hfront
      exact hfront.1
    · have hall := h names hne List.prefix_rfl
      simp only [List.nil_append, leavesOut, Bool.or_eq_false_iff] at hall
      exact hall.2
  · rintro ⟨hhidden, hexcluded⟩ front hfront ⟨rest, rfl⟩
    rw [List.nil_append, leavesOut, Bool.or_eq_false_iff]
    constructor
    · rw [Bool.and_eq_false_iff]
      by_cases hskip : settings.files.skipHidden = true
      · refine .inr ?_
        rw [List.getLast?_eq_getLast_of_ne_nil hfront, Option.any_some]
        exact hhidden hskip _ (List.mem_append_left _ (List.getLast_mem hfront))
      · exact .inl (by simpa using hskip)
    · -- An excluded ancestor would exclude the whole path.
      rw [Bool.eq_false_iff]
      intro hc
      rw [isExcluded_anchoredPath_append hfront hc] at hexcluded
      exact absurd hexcluded (by simp)

/-! ### What a walk finds -/

theorem mem_inNameOrder {found : List (String × List FoundFile)} {file : FoundFile} :
    file ∈ inNameOrder found ↔ ∃ entry ∈ found, file ∈ entry.2 := by
  simp only [inNameOrder, List.mem_flatMap, (sortedBy_perm found).mem_iff]

theorem filesAtEach_eq_map (settings : Settings) (above : List String) (entries : List Entry) :
    filesAtEach settings above entries =
      entries.map fun entry => (entry.name, filesAt settings above entry) := by
  induction entries with
  | nil => rfl
  | cons entry rest ih => rw [filesAtEach, ih, List.map_cons]

theorem mem_inNameOrder_filesAtEach {entries : List Entry} {file : FoundFile} :
    file ∈ inNameOrder (filesAtEach settings above entries) ↔
      ∃ entry ∈ entries, file ∈ filesAt settings above entry := by
  simp only [mem_inNameOrder, filesAtEach_eq_map, List.mem_map]
  constructor
  · rintro ⟨_, ⟨entry, hmem, rfl⟩, hfile⟩
    exact ⟨entry, hmem, hfile⟩
  · rintro ⟨entry, hmem, hfile⟩
    exact ⟨_, ⟨entry, hmem, rfl⟩, hfile⟩

mutual

/-- What the walk finds at an entry is a file that the entry holds, with no step on the
way left out. -/
theorem holdsFile_of_mem_filesAt (settings : Settings) : ∀ (above : List String) (entry : Entry)
    (file : FoundFile), file ∈ filesAt settings above entry →
      ∃ names, file.names = above ++ names ∧ HoldsFile [entry] names file.contents ∧
        settings.Admits above names
  | above, .file name contents, file, h => by
    rw [filesAt] at h
    split at h
    · cases h
    · next hleft =>
      obtain rfl := List.mem_singleton.1 h
      refine ⟨[name], rfl, .inside (by simp), Settings.admits_cons.2 ⟨?_, Settings.admits_nil⟩⟩
      simpa using hleft
  | above, .directory name entries, file, h => by
    rw [filesAt] at h
    split at h
    · cases h
    · next hleft =>
      obtain ⟨found, hfound, hfile⟩ := mem_inNameOrder.1 h
      obtain ⟨names, hnames, hholds, hadmits⟩ :=
        holdsFile_of_mem_filesAtEach settings (above ++ [name]) entries found hfound file hfile
      refine ⟨name :: names, by simp [hnames], .deeper (by simp) hholds, ?_⟩
      exact Settings.admits_cons.2 ⟨by simpa using hleft, hadmits⟩
  | _, .link _ _, _, h => by
    rw [filesAt] at h
    cases h

/-- The same for what the walk finds at one of the entries of a directory. -/
theorem holdsFile_of_mem_filesAtEach (settings : Settings) : ∀ (above : List String)
    (entries : List Entry) (found : String × List FoundFile),
    found ∈ filesAtEach settings above entries → ∀ file ∈ found.2,
      ∃ names, file.names = above ++ names ∧ HoldsFile entries names file.contents ∧
        settings.Admits above names
  | _, [], _, hfound => by
    rw [filesAtEach] at hfound
    cases hfound
  | above, entry :: rest, found, hfound => by
    intro file hfile
    rw [filesAtEach] at hfound
    rcases List.mem_cons.1 hfound with rfl | hrest
    · obtain ⟨names, hnames, hholds, hadmits⟩ :=
        holdsFile_of_mem_filesAt settings above entry file hfile
      exact ⟨names, hnames, holdsFile_cons_iff.2 (.inl hholds), hadmits⟩
    · obtain ⟨names, hnames, hholds, hadmits⟩ :=
        holdsFile_of_mem_filesAtEach settings above rest found hrest file hfile
      exact ⟨names, hnames, holdsFile_cons_iff.2 (.inr hholds), hadmits⟩

end

/-- A file that a directory holds is found if no step on the way to it is left out. -/
theorem mem_of_holdsFile {entries : List Entry} {contents : ByteArray}
    (h : HoldsFile entries names contents) (hadmits : settings.Admits above names) :
    ⟨above ++ names, contents⟩ ∈ inNameOrder (filesAtEach settings above entries) := by
  induction h generalizing above with
  | @inside entries name contents hmem =>
    have hleft := (Settings.admits_cons.1 hadmits).1
    refine mem_inNameOrder_filesAtEach.2 ⟨_, hmem, ?_⟩
    rw [filesAt, if_neg (by simp [hleft])]
    exact List.mem_cons_self
  | @deeper entries inner name names contents hmem hdeep ih =>
    obtain ⟨hleft, hrest⟩ := Settings.admits_cons.1 hadmits
    have hnames : above ++ name :: names = above ++ [name] ++ names := List.append_cons ..
    refine mem_inNameOrder_filesAtEach.2 ⟨_, hmem, ?_⟩
    rw [filesAt, if_neg (by simp [hleft]), hnames]
    exact ih hrest

/-- **A walk finds exactly the files that pass the tests on files**: turning back early at
a directory changes nothing. -/
theorem mem_regularFiles_iff {entries : List Entry} {file : FoundFile} :
    file ∈ regularFiles settings entries ↔
      HoldsFile entries file.names file.contents ∧
        (settings.files.skipHidden = true → ∀ name ∈ file.names, isHiddenName name = false) ∧
        isExcluded settings.exclude (anchoredPath file.names) = false := by
  constructor
  · intro h
    obtain ⟨found, hfound, hfile⟩ := mem_inNameOrder.1 h
    obtain ⟨names, hnames, hholds, hadmits⟩ :=
      holdsFile_of_mem_filesAtEach settings [] entries found hfound file hfile
    rw [List.nil_append] at hnames
    subst hnames
    exact ⟨hholds, (Settings.admits_iff hholds.ne_nil).1 hadmits⟩
  · rintro ⟨hholds, hpasses⟩
    exact mem_of_holdsFile hholds ((Settings.admits_iff hholds.ne_nil).2 hpasses)

/-! ### A small project -/

/-- A project with a source file, an image in a bundle, a hidden file and a link back to
itself. -/
def sampleTree : FileTree where
  entries := [.directory "app"
    [.directory "gear.imageset" [.file "gear.png" .empty],
      .file "Home.swift" "class Home {}".toUTF8, .file ".Draft.swift" .empty, .link "loop" "."]]
  workingDirectory := []

/-- Settings for the small project: nothing is excluded but what is hidden. -/
def sampleSettings : Settings where
  exclude := []
  files := { imageExtensions := ["png"], markupExtensions := ["xib"] }

/-! ### The files that take part in a scan -/

/-- A found file takes part when its kind does. -/
theorem FoundFile.accepted?_eq_some_iff {root : FilePath} {found : FoundFile}
    {file : ProjectFile} :
    found.accepted? settings root = some file ↔
      file = ⟨found.path root, settings.files.classify (found.path root), found.contents⟩ ∧
        file.kind ≠ .ignored := by
  rw [accepted?]
  split
  · next hkind =>
    constructor
    · intro h
      cases h
    · rintro ⟨rfl, hne⟩
      exact absurd hkind hne
  · next hkind =>
    rw [Option.some.injEq]
    constructor
    · rintro rfl
      exact ⟨rfl, hkind⟩
    · exact fun h => h.1.symm

/-- The kind of a found file is that of the path below the root. -/
theorem classify_path_eq {root : FilePath} {found : FoundFile}
    (hnames : ∀ name ∈ found.names, isEntryName name = true) (hne : found.names ≠ []) :
    settings.files.classify (found.path root) =
      settings.files.classify ⟨"/".intercalate found.names⟩ := by
  rw [FileSettings.classify, FileSettings.classify, FoundFile.path,
    FilePath.extension?_joinAll root hnames hne]

namespace FileTree

variable {tree : FileTree} {root : FilePath}

theorem found_of_directory {position : List String} {entries : List Entry}
    (h : tree.find? root = some (.directory position entries)) :
    tree.found settings root =
      if root.Same standardInput then [] else regularFiles settings entries := by
  rw [found, h]

/-- The files that take part in a scan of a directory, by what the walk finds. -/
theorem mem_projectFiles_iff_found {position : List String} {entries : List Entry}
    (h : tree.find? root = some (.directory position entries)) {file : ProjectFile} :
    file ∈ tree.projectFiles settings root ↔
      ¬root.Same standardInput ∧ ∃ found ∈ regularFiles settings entries,
        found.accepted? settings root = some file := by
  rw [projectFiles, found_of_directory h, List.mem_filterMap]
  split
  · next hdash => simp [hdash]
  · next hdash => simp [hdash]

/-- A file that takes part in the scan of a directory is shown by the path from there. -/
theorem relativeTo?_of_mem_projectFiles (hlawful : tree.isLawful = true)
    {position : List String} {entries : List Entry}
    (hroot : tree.find? root = some (.directory position entries)) {file : ProjectFile}
    (hmem : file ∈ tree.projectFiles settings root) :
    file.path.relativeTo? root = some ⟨file.path.shownFrom root⟩ := by
  obtain ⟨-, found, hfound, haccepted⟩ := (mem_projectFiles_iff_found hroot).1 hmem
  obtain ⟨rfl, -⟩ := FoundFile.accepted?_eq_some_iff.1 haccepted
  have hnames := (mem_regularFiles_iff.1 hfound).1.isEntryName (areLawful_of_find? hlawful hroot)
  have hrelative := FilePath.relativeTo?_joinAll root hnames
  rw [← FoundFile.path] at hrelative
  rw [FilePath.shownFrom, hrelative, Option.getD_some]

/-- In the small project the source file and the image take part. -/
theorem projectFiles_sampleTree :
    sampleTree.projectFiles sampleSettings ⟨"app"⟩ =
      [⟨⟨"app/Home.swift"⟩, .source, "class Home {}".toUTF8⟩,
        ⟨⟨"app/gear.imageset/gear.png"⟩, .image, .empty⟩] := by
  have hfound : sampleTree.found sampleSettings ⟨"app"⟩ =
      [⟨["Home.swift"], "class Home {}".toUTF8⟩, ⟨["gear.imageset", "gear.png"], .empty⟩] := by
    rfl
  have hsource : sampleSettings.files.classify ⟨"app/Home.swift"⟩ = .source := by
    decide +kernel
  have himage : sampleSettings.files.classify ⟨"app/gear.imageset/gear.png"⟩ = .image := by
    decide +kernel
  have hpath : ["Home.swift"].foldl FilePath.join ⟨"app"⟩ = ⟨"app/Home.swift"⟩ := by
    decide
  have hpath' : ["gear.imageset", "gear.png"].foldl FilePath.join ⟨"app"⟩ =
      ⟨"app/gear.imageset/gear.png"⟩ := by
    decide
  rw [projectFiles, hfound]
  simp only [List.filterMap_cons, FoundFile.accepted?, FoundFile.path, hpath, hpath', hsource,
    himage, List.filterMap_nil]

end FileTree

end Unreferenced
