import Unreferenced.Proofs.Scan
import Unreferenced.Proofs.Walk.Reordering

/-!
# The order of a scan

Two answers of a scan depend on the order in which it takes the files: the list of files
itself, and the file that is kept of a type that several declare. Neither is an accident of
the file system. The files are in the order of their paths, component by component, and the
kept file is the greatest of those that declare the type
(`Unreferenced.FileTree.projectFiles_in_order`).

Who looks at the texts of the paths would expect another file here and there
(`Unreferenced.FileTree.keeps_smaller_text`): the separator is greater than the dot, and
still what lies below `a` comes before `a.swift`.
-/

namespace Unreferenced

/-- In files that are in the order of their paths, a name is kept with the greatest of the
files that declare it. -/
theorem path?_typesIn_iff_greatest {settings : SymbolSettings} {files : List ProjectFile}
    (horder : files.Pairwise fun f g => f.path.Before g.path) {name : String} {path : FilePath} :
    (typesIn settings files).path? name = some path ↔
      ∃ file ∈ ofKind .source files, file.Declares settings name ∧ file.path = path ∧
        ∀ other ∈ ofKind .source files, other.Declares settings name →
          other = file ∨ other.path.Before file.path := by
  have hsources : (ofKind .source files).Pairwise fun f g => f.path.Before g.path :=
    horder.filter _
  rw [path?_typesIn_iff]
  refine exists_congr fun file => ?_
  rw [isLastWith_iff_of_pairwise FilePath.Before.asymm hsources]
  constructor
  · rintro ⟨⟨hmem, hdeclares, hall⟩, hpath⟩
    exact ⟨hmem, hdeclares, hpath, hall⟩
  · rintro ⟨hmem, hdeclares, hpath, hall⟩
    exact ⟨⟨hmem, hdeclares, hall⟩, hpath⟩

namespace FileTree

/-- A project in which a file in a directory and a file beside it declare one type; they are
listed in the order that the walk does not take. -/
def besideTree : FileTree where
  entries := [.directory "app"
    [.file "a.swift" "class Home {}".toUTF8,
      .directory "a" [.file "B.swift" "class Home {}".toUTF8]]]
  workingDirectory := []

/-- The same project, listed in the order of the walk. -/
def besideTreeInOrder : FileTree where
  entries := [.directory "app"
    [.directory "a" [.file "B.swift" "class Home {}".toUTF8],
      .file "a.swift" "class Home {}".toUTF8]]
  workingDirectory := []

theorem projectFiles_besideTree :
    besideTree.projectFiles sampleSettings ⟨"app"⟩ =
      [⟨⟨"app/a/B.swift"⟩, .source, "class Home {}".toUTF8⟩,
        ⟨⟨"app/a.swift"⟩, .source, "class Home {}".toUTF8⟩] := by
  have hfound : besideTree.found sampleSettings ⟨"app"⟩ =
      [⟨["a", "B.swift"], "class Home {}".toUTF8⟩, ⟨["a.swift"], "class Home {}".toUTF8⟩] := by
    rfl
  have hinside : sampleSettings.files.classify ⟨"app/a/B.swift"⟩ = .source := by
    decide +kernel
  have hbeside : sampleSettings.files.classify ⟨"app/a.swift"⟩ = .source := by
    decide +kernel
  have hpath : ["a", "B.swift"].foldl FilePath.join ⟨"app"⟩ = ⟨"app/a/B.swift"⟩ := by
    decide
  have hpath' : ["a.swift"].foldl FilePath.join ⟨"app"⟩ = ⟨"app/a.swift"⟩ := by
    decide
  rw [projectFiles, hfound]
  simp only [List.filterMap_cons, FoundFile.accepted?, FoundFile.path, hpath, hpath', hinside,
    hbeside, List.filterMap_nil]

/-- **The kept file need not have the greatest text.** -/
theorem keeps_smaller_text :
    besideTree.isLawful = true ∧ ∃ scan, besideTree.scan sampleSettings {} ⟨"app"⟩ = .ok scan ∧
      scan.symbols.path? "Home" = some ⟨"app/a.swift"⟩ ∧
      ∃ file ∈ ofKind .source (besideTree.projectFiles sampleSettings ⟨"app"⟩),
        file.Declares sampleSettings.symbols "Home" ∧
          Text.bytes "app/a.swift" < Text.bytes file.path.text := by
  refine ⟨by decide, _, scan_eq_ok_iff.2 ⟨by decide, rfl⟩, ?_, ?_⟩
  · rw [projectFiles_besideTree]
    decide +kernel
  · rw [projectFiles_besideTree]
    refine ⟨_, mem_ofKind.2 ⟨List.mem_cons_self, rfl⟩, ?_, ?_⟩
    · decide +kernel
    · decide

/-- **The walk has one order, and the kept file is the greatest in it.** The files that take
part in the scan of a directory come strictly in the order of their paths, compared
component by component and each component by its bytes, so that no path comes twice. They
are the same files in the same order however the directories list their entries. A type has
an entry when a source file declares it, with the path of the greatest such file in that
order; and in some project this is not the file whose path has the greatest text. -/
theorem projectFiles_in_order {tree : FileTree} (hlawful : tree.isLawful = true)
    {root : FilePath} (hroot : tree.isDirectory root = true) (settings : Settings) :
    (tree.projectFiles settings root).Pairwise (fun f g => f.path.Before g.path) ∧
    (tree.projectFiles settings root).Pairwise (fun f g => ¬f.path.Same g.path) ∧
    (∀ tree' : FileTree, Reordered tree.entries tree'.entries →
      tree'.workingDirectory = tree.workingDirectory →
        tree'.projectFiles settings root = tree.projectFiles settings root) ∧
    (∀ passes : Passes, passes.symbols = true →
      ∃ scan, tree.scan settings passes root = .ok scan ∧ ∀ name path,
        scan.symbols.path? name = some path ↔
          ∃ file ∈ ofKind .source (tree.projectFiles settings root),
            file.Declares settings.symbols name ∧ file.path = path ∧
            ∀ other ∈ ofKind .source (tree.projectFiles settings root),
              other.Declares settings.symbols name →
                other = file ∨ other.path.Before file.path) ∧
    ∃ (tree : FileTree) (settings : Settings) (root : FilePath) (scan : Scan) (name : String)
        (path : FilePath),
      tree.isLawful = true ∧ tree.scan settings {} root = .ok scan ∧
      scan.symbols.path? name = some path ∧
      ∃ file ∈ ofKind .source (tree.projectFiles settings root),
        file.Declares settings.symbols name ∧
          Text.bytes path.text < Text.bytes file.path.text := by
  obtain ⟨position, entries, hplace⟩ := isDirectory_iff.1 hroot
  have horder := pairwise_before_projectFiles hlawful hplace settings
  refine ⟨horder, pairwise_projectFiles hlawful hplace settings, ?_, ?_, ?_⟩
  · intro tree' hreordered hworking
    exact hreordered.projectFiles_eq hlawful hworking hroot settings
  · intro passes hpasses
    refine ⟨_, scan_eq_ok_iff.2 ⟨hroot, rfl⟩, fun name path => ?_⟩
    simp only [Scan.ofFiles, hpasses, if_true]
    exact path?_typesIn_iff_greatest horder
  · obtain ⟨hbeside, scan, hscan, hkept, hother⟩ := keeps_smaller_text
    exact ⟨besideTree, sampleSettings, ⟨"app"⟩, scan, "Home", _, hbeside, hscan, hkept, hother⟩

/-- The project finds the same files however it is listed, and keeps the file beside the
directory. -/
theorem home_kept_beside :
    besideTree.isLawful = true ∧ besideTree.isDirectory ⟨"app"⟩ = true ∧
      besideTreeInOrder.projectFiles sampleSettings ⟨"app"⟩ = besideTree.projectFiles sampleSettings ⟨"app"⟩ ∧
      ∃ scan, besideTree.scan sampleSettings {} ⟨"app"⟩ = .ok scan ∧
        scan.symbols.path? "Home" = some ⟨"app/a.swift"⟩ := by
  have hlawful : besideTree.isLawful = true := by decide
  have hroot : besideTree.isDirectory ⟨"app"⟩ = true := by decide
  obtain ⟨-, -, hlisted, hkept, -⟩ := projectFiles_in_order hlawful hroot sampleSettings
  obtain ⟨scan, hscan, hpath⟩ := hkept {} rfl
  refine ⟨hlawful, hroot, hlisted _ (.inside .swap) rfl, scan, hscan, (hpath _ _).2 ?_⟩
  rw [projectFiles_besideTree]
  refine ⟨⟨⟨"app/a.swift"⟩, .source, "class Home {}".toUTF8⟩, by simp [ofKind], ?_, rfl, ?_⟩
  · decide +kernel
  · intro other hother _
    rcases List.mem_cons.1 (mem_ofKind.1 hother).1 with rfl | hother
    · exact .inr (by decide)
    · exact .inl (List.mem_singleton.1 hother)

end FileTree

end Unreferenced
