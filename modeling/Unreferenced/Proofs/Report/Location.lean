import Unreferenced.Proofs.Report.Assets
import Unreferenced.Proofs.Report.Shared
import Unreferenced.Proofs.Report.Symbols

/-!
# Where a project lies

A scan works with paths that have the root in front, and a report shows paths as seen from
the root. So the same project should have the same report wherever it lies, and for its
types it has: what a file is and declares, which files are the same and how they are seen
depends only on the names that lead to them from the root
(`Unreferenced.sharedSymbols_inProject`, `Unreferenced.unreferencedSymbols_inProject`).

The names of images are the exception. The innermost bundle on the path of an image is
looked for on the whole path, so a root that lies in a bundle gives its name to every image
without a bundle of its own (`Unreferenced.FileTree.bundle_root_renames_image`).
`Unreferenced.FileTree.report_of_same_files` says how far the reports of two roots agree:
images, too, have the same names if both roots lie in bundles of one name, and the reports
are the same altogether if neither lies in a bundle.
-/

namespace Unreferenced

variable {settings : Settings} {passes : Passes} {root root' : FilePath} {name : String}

/-! ### Files below a root -/

namespace FoundFile

/-- The kind of a file that was found, by its path below the root. -/
def kind (settings : Settings) (file : FoundFile) : FileKind :=
  settings.files.classify ⟨"/".intercalate file.names⟩

/-- The text of a file that was found, empty when it has none of its own. -/
def text (file : FoundFile) : String :=
  (String.fromUTF8? file.contents).getD ""

/-- A file that was found as it takes part in the scan of a root. -/
def inProject (settings : Settings) (root : FilePath) (file : FoundFile) : ProjectFile :=
  ⟨file.path root, file.kind settings, file.contents⟩

/-- A file below a root is reached by lawful names, by one at least. -/
def IsLawful (file : FoundFile) : Prop :=
  file.names ≠ [] ∧ ∀ name ∈ file.names, isEntryName name = true

theorem accepted?_eq {file : FoundFile} (h : file.IsLawful) :
    file.accepted? settings root =
      if file.kind settings = .ignored then none else some (file.inProject settings root) := by
  rw [accepted?, classify_path_eq h.2 h.1, ← kind]
  split
  · next hkind => rw [if_pos hkind]
  · next hkind =>
    rw [if_neg hkind, inProject, kind]

theorem relativeTo?_inProject (settings : Settings) (root : FilePath) {file : FoundFile}
    (h : file.IsLawful) :
    (file.inProject settings root).path.relativeTo? root =
      some ⟨"/".intercalate file.names⟩ :=
  FilePath.relativeTo?_joinAll root h.2

theorem shownFrom_inProject (settings : Settings) (root : FilePath) {file : FoundFile}
    (h : file.IsLawful) :
    (file.inProject settings root).path.shownFrom root = "/".intercalate file.names := by
  rw [FilePath.shownFrom, relativeTo?_inProject settings root h, Option.getD_some]

theorem same_inProject_iff {file file' : FoundFile} (h : file.IsLawful) (h' : file'.IsLawful) :
    (file.inProject settings root).path.Same (file'.inProject settings root).path ↔
      file.names = file'.names :=
  FilePath.joinAll_same_iff root h.2 h'.2

end FoundFile

/-- The found files that take part in a scan, of whatever root. -/
def participants (settings : Settings) (found : List FoundFile) : List FoundFile :=
  found.filter fun file => file.kind settings ≠ .ignored

/-- **The files of a scan** are the ones that take part, put below the root. -/
theorem FileTree.projectFiles_eq_map {tree : FileTree} (hlawful : tree.isLawful = true)
    {position : List String} {entries : List Entry}
    (hroot : tree.find? root = some (.directory position entries))
    (hdash : ¬root.Same standardInput) :
    tree.projectFiles settings root =
      (participants settings (regularFiles settings entries)).map (·.inProject settings root) := by
  have haccepted : ∀ file ∈ regularFiles settings entries,
      file.accepted? settings root =
        if file.kind settings = .ignored then none else some (file.inProject settings root) := by
    intro file hmem
    have hholds := (mem_regularFiles_iff.1 hmem).1
    exact FoundFile.accepted?_eq
      ⟨hholds.ne_nil, hholds.isEntryName (areLawful_of_find? hlawful hroot)⟩
  rw [projectFiles, found_of_directory hroot, if_neg hdash, List.filterMap_congr haccepted,
    participants]
  induction regularFiles settings entries with
  | nil => rfl
  | cons file rest ih =>
    by_cases hkind : file.kind settings = .ignored
    · simpa [hkind] using ih
    · simpa [hkind] using ih

/-! ### Lists of files below two roots -/

variable {found : List FoundFile}

theorem ofKind_inProject (kind : FileKind) (found : List FoundFile) :
    ofKind kind (found.map (·.inProject settings root)) =
      (found.filter fun file => file.kind settings == kind).map (·.inProject settings root) :=
  List.filter_map

/-- A file that was found declares a name. -/
def FoundFile.declares (settings : Settings) (name : String) (file : FoundFile) : Bool :=
  decide (name ∈ declaredNames settings.symbols.declarationKeywords file.text)

theorem declaringFiles_inProject (found : List FoundFile) (name : String) :
    declaringFiles settings.symbols (found.map (·.inProject settings root)) name =
      ((found.filter fun file => file.kind settings == .source).filter
        (·.declares settings name)).map (·.inProject settings root) := by
  rw [declaringFiles, ofKind_inProject, List.filter_map]
  rfl

/-- Which names are declared does not depend on the root. -/
theorem names_typesIn_inProject (settings : Settings) (root root' : FilePath)
    (found : List FoundFile) :
    (typesIn settings.symbols (found.map (·.inProject settings root))).names =
      (typesIn settings.symbols (found.map (·.inProject settings root'))).names := by
  have hdeclared : ∀ path : FilePath,
      declaredIn settings.symbols (found.map (·.inProject settings path)) =
        (found.filter fun file => file.kind settings == .source).flatMap fun file =>
          declaredNames settings.symbols.declarationKeywords file.text := by
    intro path
    rw [declaredIn, ofKind_inProject, List.flatMap_map]
    rfl
  refine eq_of_pairwise_lt ?_ ?_ fun name => ?_
  · exact List.pairwise_map.2 (isOrdered_typesIn ..)
  · exact List.pairwise_map.2 (isOrdered_typesIn ..)
  · rw [(names_typesIn_perm ..).mem_iff, (names_typesIn_perm ..).mem_iff, hdeclared, hdeclared]

/-- Which images are referenced does not depend on the root. -/
theorem isImageReferenced_inProject_iff :
    IsImageReferenced (found.map (·.inProject settings root)) name ↔
      IsImageReferenced (found.map (·.inProject settings root')) name := by
  have hroot : ∀ path : FilePath,
      IsImageReferenced (found.map (·.inProject settings path)) name ↔
        ∃ file ∈ found.filter fun file => (file.kind settings).isSearchable,
          Text.contains file.text ("\"" ++ name ++ "\"") = true := by
    intro path
    have hsearchable : searchable (found.map (·.inProject settings path)) =
        (found.filter fun file => (file.kind settings).isSearchable).map
          (·.inProject settings path) := List.filter_map
    rw [IsImageReferenced, hsearchable]
    simp only [List.mem_map, exists_exists_and_eq_and]
    exact Iff.rfl
  rw [hroot, hroot]

section Lawful

variable (hfound : ∀ file ∈ found, file.IsLawful)

include hfound

theorem relativeTo?_declaringFiles_inProject (name : String) :
    (declaringFiles settings.symbols (found.map (·.inProject settings root)) name).map
        (·.path.relativeTo? root) =
      (declaringFiles settings.symbols (found.map (·.inProject settings root')) name).map
        (·.path.relativeTo? root') := by
  rw [declaringFiles_inProject, declaringFiles_inProject, List.map_map, List.map_map]
  refine List.map_congr_left fun file hmem => ?_
  have hlawful := hfound file (List.mem_filter.1 (List.mem_filter.1 hmem).1).1
  rw [Function.comp_apply, Function.comp_apply, FoundFile.relativeTo?_inProject settings root hlawful,
    FoundFile.relativeTo?_inProject settings root' hlawful]

/-- Which types are referenced does not depend on the root. -/
theorem isTypeReferenced_inProject_iff {file : FoundFile} (hfile : file ∈ found) :
    IsTypeReferenced (found.map (·.inProject settings root)) name
        (file.inProject settings root).path ↔
      IsTypeReferenced (found.map (·.inProject settings root')) name
        (file.inProject settings root').path := by
  have hroot : ∀ path : FilePath,
      IsTypeReferenced (found.map (·.inProject settings path)) name
          (file.inProject settings path).path ↔
        (∃ other ∈ found.filter fun other => other.kind settings == .source,
          ¬other.names = file.names ∧ (Text.contains other.text (name ++ "(") = true ∨
            Text.contains other.text (name ++ ".self") = true)) ∨
        ∃ other ∈ found.filter fun other => other.kind settings == .markup,
          Text.contains other.text ("customClass=\"" ++ name ++ "\"") = true := by
    intro path
    rw [IsTypeReferenced, ofKind_inProject, ofKind_inProject]
    simp only [List.mem_map, exists_exists_and_eq_and]
    refine or_congr (exists_congr fun other => and_congr_right fun hother => ?_) Iff.rfl
    rw [FoundFile.same_inProject_iff (hfound other (List.mem_filter.1 hother).1)
      (hfound file hfile)]
    exact Iff.rfl
  rw [hroot, hroot]

/-- **The unreferenced types do not depend on the root.** -/
theorem unreferencedSymbols_inProject :
    reportedSymbols settings root
        (typeVerdicts settings.symbols (found.map (·.inProject settings root))) =
      reportedSymbols settings root'
        (typeVerdicts settings.symbols (found.map (·.inProject settings root'))) := by
  have hmem : ∀ (path path' : FilePath) symbol,
      symbol ∈ reportedSymbols settings path
          (typeVerdicts settings.symbols (found.map (·.inProject settings path))) →
        symbol ∈ reportedSymbols settings path'
          (typeVerdicts settings.symbols (found.map (·.inProject settings path'))) := by
    rintro path path' ⟨name, shown⟩ h
    obtain ⟨hknown, hretain, last, hlast, hshown, hreferenced⟩ :=
      mem_reportedSymbols_typeVerdicts_iff.1 h
    rw [isLastWith_iff_getLast?_filter, ← declaringFiles, declaringFiles_inProject,
      List.getLast?_map, Option.map_eq_some_iff] at hlast
    obtain ⟨file, hfile, rfl⟩ := hlast
    have hin := (List.mem_filter.1 (List.mem_filter.1 (List.mem_of_getLast? hfile)).1).1
    refine mem_reportedSymbols_typeVerdicts_iff.2
      ⟨hknown, hretain, file.inProject settings path', ?_, ?_, ?_⟩
    · rw [isLastWith_iff_getLast?_filter, ← declaringFiles, declaringFiles_inProject,
        List.getLast?_map, hfile, Option.map_some]
    · rw [← hshown, FoundFile.shownFrom_inProject settings path (hfound file hin),
        FoundFile.shownFrom_inProject settings path' (hfound file hin)]
    · rwa [isTypeReferenced_inProject_iff hfound hin]
  exact eq_of_pairwise_name_lt (pairwise_reportedSymbols_typeVerdicts ..)
    (pairwise_reportedSymbols_typeVerdicts ..) fun symbol => ⟨hmem _ _ symbol, hmem _ _ symbol⟩

/-- **The shared types do not depend on the root.** -/
theorem sharedSymbols_inProject (hpasses : passes.symbols = true)
    (hdistinct : found.Pairwise fun f g => f.names ≠ g.names) :
    ((Scan.ofFiles settings passes root
        (found.map (·.inProject settings root))).report settings).sharedSymbols =
      ((Scan.ofFiles settings passes root'
        (found.map (·.inProject settings root'))).report settings).sharedSymbols := by
  have hiff : ∀ (path : FilePath) name kept shadowed,
      ⟨name, kept, shadowed⟩ ∈ ((Scan.ofFiles settings passes path
          (found.map (·.inProject settings path))).report settings).sharedSymbols ↔
        shadowed ≠ [] ∧ (declaringFiles settings.symbols
            (found.map (·.inProject settings path)) name).map (·.path.relativeTo? path) =
          (shadowed ++ [kept]).map fun text => some ⟨text⟩ := by
    intro path name kept shadowed
    refine mem_sharedSymbols_iff hpasses ?_ ?_
    · refine List.pairwise_map.2 (hdistinct.imp_of_mem fun {f g} hf hg hne hsame => ?_)
      exact hne ((FoundFile.same_inProject_iff (hfound f hf) (hfound g hg)).1 hsame)
    · rintro _ hmem
      obtain ⟨file, hfile, rfl⟩ := List.mem_map.1 hmem
      rw [FoundFile.relativeTo?_inProject settings path (hfound file hfile),
        FoundFile.shownFrom_inProject settings path (hfound file hfile)]
  refine eq_of_pairwise_name_lt (pairwise_sharedSymbols ..) (pairwise_sharedSymbols ..) ?_
  rintro ⟨name, kept, shadowed⟩
  rw [hiff, hiff, relativeTo?_declaringFiles_inProject hfound]

/-! ### Images below two roots -/

/-- The images of found files have the same names below roots in bundles of one name. -/
theorem map_name_namedImages_inProject
    (hroots : root.enclosingBundle? settings.files.bundleSuffix =
      root'.enclosingBundle? settings.files.bundleSuffix) :
    (namedImages settings (found.map (·.inProject settings root))).map (·.name) =
      (namedImages settings (found.map (·.inProject settings root'))).map (·.name) := by
  rw [namedImages, namedImages, ofKind_inProject, ofKind_inProject, List.filterMap_map,
    List.filterMap_map, List.map_filterMap, List.map_filterMap]
  refine List.filterMap_congr fun file hmem => ?_
  obtain ⟨hne, hnames⟩ := hfound file (List.mem_filter.1 hmem).1
  have hname := map_fst_imageName?_joinAll root settings.files.bundleSuffix hnames hne hroots
  rw [Function.comp_apply, Function.comp_apply, ProjectFile.named?, ProjectFile.named?,
    Option.map_map, Option.map_map]
  exact hname

/-- An image as it is seen from a root: its name, its path and its bundle. -/
def NamedImage.seenFrom (root : FilePath) (image : NamedImage) :
    String × String × Option String :=
  (image.name, image.path.shownFrom root, image.bundle?.map (·.shownFrom root))

/-- **Below roots that lie in no bundle the images of found files look the same.** -/
theorem map_seenFrom_namedImages_inProject
    (hroot : root.enclosingBundle? settings.files.bundleSuffix = none)
    (hroot' : root'.enclosingBundle? settings.files.bundleSuffix = none) :
    (namedImages settings (found.map (·.inProject settings root))).map (·.seenFrom root) =
      (namedImages settings (found.map (·.inProject settings root'))).map
        (·.seenFrom root') := by
  rw [namedImages, namedImages, ofKind_inProject, ofKind_inProject, List.filterMap_map,
    List.filterMap_map, List.map_filterMap, List.map_filterMap]
  refine List.filterMap_congr fun file hmem => ?_
  have hlawful := hfound file (List.mem_filter.1 hmem).1
  have hseen : ∀ path : FilePath,
      ((file.inProject settings path).named? settings).map (·.seenFrom path) =
        ((imageName? (file.names.foldl .join path) settings.files.bundleSuffix).map
          fun found => (found.1, found.2.map (·.shownFrom path))).map
            fun seen => (seen.1, "/".intercalate file.names, seen.2) := by
    intro path
    have hshown := FoundFile.shownFrom_inProject settings path hlawful
    simp only [ProjectFile.named?, Option.map_map, Function.comp_def, NamedImage.seenFrom, hshown]
    rfl
  rw [Function.comp_apply, Function.comp_apply, hseen, hseen,
    imageName?_joinAll_of_enclosingBundle? root _ hlawful.2 hlawful.1 hroot,
    imageName?_joinAll_of_enclosingBundle? root' _ hlawful.2 hlawful.1 hroot']

end Lawful

/-! ### The lists of images in a report -/

section Images

variable {files files' : List ProjectFile}

/-- The place of a name as it is seen from a root comes from the images as they are seen. -/
theorem map_shownFrom_imageLocation? (settings : Settings) (root : FilePath)
    (files : List ProjectFile) (name : String) :
    (imageLocation? settings files name).map (·.shownFrom root) =
      ((((namedImages settings files).map (·.seenFrom root)).filter (·.1 == name)).findSome?
          (·.2.2)).or
        ((((namedImages settings files).map (·.seenFrom root)).filter (·.1 == name)).head?.map
          (·.2.1)) := by
  have hseen : ((namedImages settings files).map (·.seenFrom root)).filter (·.1 == name) =
      (imagesNamed settings files name).map (·.seenFrom root) := List.filter_map
  rw [hseen, imageLocation?, Option.map_or, List.findSome?_map, List.head?_map, Option.map_map,
    Option.map_map, List.map_findSome?]
  rfl

theorem imagesNamed_ne_nil_iff_mem :
    imagesNamed settings files name ≠ [] ↔ name ∈ (namedImages settings files).map (·.name) := by
  simp [imagesNamed, List.filter_eq_nil_iff]

/-- Whether a name is reported depends on the names of the images and on the searched texts. -/
theorem map_name_unreferencedAssets_congr
    (hnames : (namedImages settings files).map (·.name) =
      (namedImages settings files').map (·.name))
    (hreferenced : ∀ name, IsImageReferenced files name ↔ IsImageReferenced files' name) :
    (reportedAssets settings root
        ((collectText files).assetVerdicts (collectAssets settings files))).map (·.name) =
      (reportedAssets settings root'
        ((collectText files').assetVerdicts (collectAssets settings files'))).map (·.name) := by
  have hmem : ∀ (path : FilePath) files name, name ∈ (reportedAssets settings path
        ((collectText files).assetVerdicts (collectAssets settings files))).map (·.name) ↔
      name ∈ (namedImages settings files).map (·.name) ∧ nameFault? name = none ∧
        settings.retain name = false ∧ ¬IsImageReferenced files name := by
    intro path files name
    rw [← imagesNamed_ne_nil_iff_mem, List.mem_map]
    constructor
    · rintro ⟨⟨name, location?⟩, hasset, rfl⟩
      obtain ⟨hne, hfault, hretain, hnot, -⟩ := mem_reportedAssets_assetVerdicts_iff.1 hasset
      exact ⟨hne, hfault, hretain, hnot⟩
    · rintro ⟨hne, hfault, hretain, hnot⟩
      exact ⟨_, mem_reportedAssets_assetVerdicts_iff.2 ⟨hne, hfault, hretain, hnot, rfl⟩, rfl⟩
  refine eq_of_pairwise_lt ?_ ?_ fun name => ?_
  · exact List.pairwise_map.2 (pairwise_reportedAssets_assetVerdicts ..)
  · exact List.pairwise_map.2 (pairwise_reportedAssets_assetVerdicts ..)
  · rw [hmem, hmem, hnames, hreferenced]

/-- What is reported depends on the images as they are seen and on the searched texts. -/
theorem unreferencedAssets_congr
    (hseen : (namedImages settings files).map (·.seenFrom root) =
      (namedImages settings files').map (·.seenFrom root'))
    (hreferenced : ∀ name, IsImageReferenced files name ↔ IsImageReferenced files' name) :
    reportedAssets settings root
        ((collectText files).assetVerdicts (collectAssets settings files)) =
      reportedAssets settings root'
        ((collectText files').assetVerdicts (collectAssets settings files')) := by
  have hnames : (namedImages settings files).map (·.name) =
      (namedImages settings files').map (·.name) := by
    have hfst := congrArg (List.map (·.1)) hseen
    rwa [List.map_map, List.map_map] at hfst
  refine eq_of_pairwise_name_lt (pairwise_reportedAssets_assetVerdicts ..)
    (pairwise_reportedAssets_assetVerdicts ..) ?_
  rintro ⟨name, location?⟩
  rw [mem_reportedAssets_assetVerdicts_iff, mem_reportedAssets_assetVerdicts_iff,
    imagesNamed_ne_nil_iff_mem, imagesNamed_ne_nil_iff_mem, hnames, hreferenced,
    map_shownFrom_imageLocation?, map_shownFrom_imageLocation?, hseen]

/-- The number of image names comes from the names of the images. -/
theorem size_collectAssets (settings : Settings) (files : List ProjectFile) :
    (collectAssets settings files).size =
      ((namedImages settings files).map (·.name)).dedup.length := by
  rw [← (AssetRegistry.names_ofInserts_perm _).length_eq, ← collectAssets_eq,
    AssetRegistry.names, List.length_map, AssetRegistry.size]

/-- The shared images come from the names of the images. -/
theorem sharedAssets_congr (hpasses : passes.assets = true)
    (hnames : (namedImages settings files).map (·.name) =
      (namedImages settings files').map (·.name)) :
    ((Scan.ofFiles settings passes root files).report settings).sharedAssets =
      ((Scan.ofFiles settings passes root' files').report settings).sharedAssets := by
  refine eq_of_pairwise_name_lt (pairwise_sharedAssets ..) (pairwise_sharedAssets ..) ?_
  rintro ⟨name, count⟩
  rw [mem_sharedAssets_iff hpasses, mem_sharedAssets_iff hpasses, ← count_map_name_namedImages,
    ← count_map_name_namedImages, hnames]

end Images

/-! ### Passes that are left out -/

theorem report_without_symbols (settings : Settings) (root : FilePath) (files : List ProjectFile)
    (hpasses : passes.symbols = false) :
    ((Scan.ofFiles settings passes root files).report settings).sharedSymbols = [] ∧
      ((Scan.ofFiles settings passes root files).report settings).unreferencedSymbols = [] ∧
      ((Scan.ofFiles settings passes root files).report settings).summary.symbolsDeclared = 0 ∧
      ((Scan.ofFiles settings passes root files).report settings).summary.symbolsChecked = 0 := by
  simp only [Scan.report, Report.build, Scan.ofFiles, hpasses, Bool.false_eq_true, if_false,
    Scan.symbolVerdicts]
  exact ⟨rfl, rfl, rfl, rfl⟩

theorem report_without_assets (settings : Settings) (root : FilePath) (files : List ProjectFile)
    (hpasses : passes.assets = false) :
    ((Scan.ofFiles settings passes root files).report settings).sharedAssets = [] ∧
      ((Scan.ofFiles settings passes root files).report settings).unreferencedAssets = [] ∧
      ((Scan.ofFiles settings passes root files).report settings).summary.assetNames = 0 := by
  simp only [Scan.report, Report.build, Scan.ofFiles, hpasses, Bool.false_eq_true, if_false,
    Scan.assetVerdicts]
  exact ⟨rfl, rfl, rfl⟩

/-! ### The reports of two roots -/

/-- The report of found files below a root. -/
def reportBelow (settings : Settings) (passes : Passes) (found : List FoundFile)
    (root : FilePath) : Report :=
  (Scan.ofFiles settings passes root (found.map (·.inProject settings root))).report settings

section TwoRoots

variable (settings passes root root')

theorem map_kind_inProject (found : List FoundFile) :
    (found.map (·.inProject settings root)).map (·.kind) = found.map (·.kind settings) := by
  rw [List.map_map]
  rfl

/-- Summaries that agree in the number of image names and in all other numbers agree. -/
theorem Summary.eq_of_assetNames {summary summary' : Summary}
    (hothers : { summary with assetNames := 0 } = { summary' with assetNames := 0 })
    (hnames : summary.assetNames = summary'.assetNames) : summary = summary' := by
  cases summary
  cases summary'
  rw [Summary.mk.injEq] at hothers ⊢
  exact ⟨hothers.1, hothers.2.1, hothers.2.2.1, hnames, hothers.2.2.2.2⟩

/-- The numbers that have nothing to do with the names of images do not depend on the
root. -/
theorem summary_reportBelow (found : List FoundFile) :
    { (reportBelow settings passes found root').summary with assetNames := 0 } =
      { (reportBelow settings passes found root).summary with assetNames := 0 } := by
  rw [Summary.mk.injEq]
  refine ⟨?_, ?_, ?_, rfl, ?_⟩
  · simp only [reportBelow, Scan.report, Report.build, Scan.ofFiles, map_kind_inProject]
  · simp only [reportBelow, Scan.report, Report.build, Scan.ofFiles, map_kind_inProject]
  · simp only [reportBelow, Scan.report, Report.build, Scan.ofFiles, map_kind_inProject]
  · dsimp only [reportBelow]
    cases hpasses : passes.symbols with
    | true =>
      rw [symbolsDeclared_ofFiles hpasses, symbolsDeclared_ofFiles hpasses,
        symbolsChecked_ofFiles hpasses, symbolsChecked_ofFiles hpasses,
        length_typeVerdicts, length_typeVerdicts,
        names_typesIn_inProject settings root root' found]
      exact ⟨rfl, rfl⟩
    | false =>
      obtain ⟨-, -, hdeclared, hchecked⟩ := report_without_symbols settings root
        (found.map (·.inProject settings root)) hpasses
      obtain ⟨-, -, hdeclared', hchecked'⟩ := report_without_symbols settings root'
        (found.map (·.inProject settings root')) hpasses
      exact ⟨hdeclared'.trans hdeclared.symm, hchecked'.trans hchecked.symm⟩

variable {found : List FoundFile} (hfound : ∀ file ∈ found, file.IsLawful)

include hfound

/-- The lists of types do not depend on the root. -/
theorem symbols_reportBelow (hdistinct : found.Pairwise fun f g => f.names ≠ g.names) :
    (reportBelow settings passes found root').sharedSymbols =
        (reportBelow settings passes found root).sharedSymbols ∧
      (reportBelow settings passes found root').unreferencedSymbols =
        (reportBelow settings passes found root).unreferencedSymbols := by
  dsimp only [reportBelow]
  cases hpasses : passes.symbols with
  | true =>
    rw [unreferencedSymbols_ofFiles hpasses, unreferencedSymbols_ofFiles hpasses]
    exact ⟨sharedSymbols_inProject hfound hpasses hdistinct, unreferencedSymbols_inProject hfound⟩
  | false =>
    obtain ⟨hshared, hunreferenced, -, -⟩ := report_without_symbols settings root
      (found.map (·.inProject settings root)) hpasses
    obtain ⟨hshared', hunreferenced', -, -⟩ := report_without_symbols settings root'
      (found.map (·.inProject settings root')) hpasses
    exact ⟨hshared'.trans hshared.symm, hunreferenced'.trans hunreferenced.symm⟩

/-- The names of images and their number are the same below roots in bundles of one name. -/
theorem assets_reportBelow
    (hroots : passes.assets = true → root.enclosingBundle? settings.files.bundleSuffix =
      root'.enclosingBundle? settings.files.bundleSuffix) :
    (reportBelow settings passes found root').sharedAssets =
        (reportBelow settings passes found root).sharedAssets ∧
      (reportBelow settings passes found root').unreferencedAssets.map (·.name) =
        (reportBelow settings passes found root).unreferencedAssets.map (·.name) ∧
      (reportBelow settings passes found root').summary.assetNames =
        (reportBelow settings passes found root).summary.assetNames := by
  dsimp only [reportBelow]
  cases hpasses : passes.assets with
  | true =>
    have hnames := map_name_namedImages_inProject hfound (hroots hpasses).symm
    rw [unreferencedAssets_ofFiles hpasses, unreferencedAssets_ofFiles hpasses,
      assetNames_ofFiles hpasses, assetNames_ofFiles hpasses, size_collectAssets,
      size_collectAssets, hnames]
    exact ⟨sharedAssets_congr hpasses hnames,
      map_name_unreferencedAssets_congr hnames fun _ => isImageReferenced_inProject_iff, rfl⟩
  | false =>
    obtain ⟨hshared, hunreferenced, hsize⟩ := report_without_assets settings root
      (found.map (·.inProject settings root)) hpasses
    obtain ⟨hshared', hunreferenced', hsize'⟩ := report_without_assets settings root'
      (found.map (·.inProject settings root')) hpasses
    rw [hshared, hshared', hunreferenced, hunreferenced', hsize, hsize']
    exact ⟨rfl, rfl, rfl⟩

/-- The places of images are the same below roots that lie in no bundle. -/
theorem unreferencedAssets_reportBelow
    (hnone : passes.assets = true → root.enclosingBundle? settings.files.bundleSuffix = none ∧
      root'.enclosingBundle? settings.files.bundleSuffix = none) :
    (reportBelow settings passes found root').unreferencedAssets =
      (reportBelow settings passes found root).unreferencedAssets := by
  dsimp only [reportBelow]
  cases hpasses : passes.assets with
  | true =>
    rw [unreferencedAssets_ofFiles hpasses, unreferencedAssets_ofFiles hpasses]
    exact unreferencedAssets_congr
      (map_seenFrom_namedImages_inProject hfound (hnone hpasses).2 (hnone hpasses).1)
      fun _ => isImageReferenced_inProject_iff
  | false =>
    obtain ⟨-, hunreferenced, -⟩ := report_without_assets settings root
      (found.map (·.inProject settings root)) hpasses
    obtain ⟨-, hunreferenced', -⟩ := report_without_assets settings root'
      (found.map (·.inProject settings root')) hpasses
    exact hunreferenced'.trans hunreferenced.symm

end TwoRoots

/-- **How far the location of a project matters.** Two lawful trees hold the same files
below two roots, neither of which is the path `-`. Then the scans of both roots succeed and
count the same files, their reports have the same lists of types, and the summaries differ
at most in the number of image names. If the innermost bundles of the roots have one name,
or both roots have none, the shared images, the names of the unreferenced ones and the
summaries are the same too. If no root lies in a bundle, or images are not looked for, the
reports differ in nothing but the root. -/
theorem FileTree.report_of_same_files {tree tree' : FileTree} (hlawful : tree.isLawful = true)
    (hlawful' : tree'.isLawful = true) {position position' : List String}
    {entries entries' : List Entry}
    (hroot : tree.find? root = some (.directory position entries))
    (hroot' : tree'.find? root' = some (.directory position' entries'))
    (hfiles : ∀ names contents, HoldsFile entries names contents ↔
      HoldsFile entries' names contents)
    (hdash : ¬root.Same standardInput) (hdash' : ¬root'.Same standardInput)
    (settings : Settings) (passes : Passes) :
    ∃ scan scan', tree.scan settings passes root = .ok scan ∧
      tree'.scan settings passes root' = .ok scan' ∧
      scan'.counts = scan.counts ∧
      (scan'.report settings).sharedSymbols = (scan.report settings).sharedSymbols ∧
      (scan'.report settings).unreferencedSymbols =
        (scan.report settings).unreferencedSymbols ∧
      { (scan'.report settings).summary with assetNames := 0 } =
        { (scan.report settings).summary with assetNames := 0 } ∧
      (root.enclosingBundle? settings.files.bundleSuffix =
          root'.enclosingBundle? settings.files.bundleSuffix →
        (scan'.report settings).sharedAssets = (scan.report settings).sharedAssets ∧
          (scan'.report settings).unreferencedAssets.map (·.name) =
            (scan.report settings).unreferencedAssets.map (·.name) ∧
          (scan'.report settings).summary = (scan.report settings).summary) ∧
      ((passes.assets = true → root.enclosingBundle? settings.files.bundleSuffix = none ∧
          root'.enclosingBundle? settings.files.bundleSuffix = none) →
        scan'.report settings = { scan.report settings with root := root'.text }) := by
  have hentries := areLawful_of_find? hlawful hroot
  have hentries' := areLawful_of_find? hlawful' hroot'
  set found := participants settings (regularFiles settings entries) with hparticipants
  -- both scans are of the same files that were found, each put below its own root
  have hproject : tree.projectFiles settings root = found.map (·.inProject settings root) :=
    projectFiles_eq_map hlawful hroot hdash
  have hproject' : tree'.projectFiles settings root' =
      found.map (·.inProject settings root') := by
    rw [projectFiles_eq_map hlawful' hroot' hdash',
      ← regularFiles_congr hentries hentries' hfiles]
  have hfound : ∀ file ∈ found, file.IsLawful := by
    intro file hmem
    have hholds := (mem_regularFiles_iff.1 (List.mem_filter.1 hmem).1).1
    exact ⟨hholds.ne_nil, hholds.isEntryName hentries⟩
  have hdistinct : found.Pairwise fun f g => f.names ≠ g.names := by
    refine ((pairwise_regularFiles hentries).filter _).imp fun {f g} hlt heq => ?_
    exact List.lt_irrefl _ (heq ▸ hlt)
  have hscan : tree.scan settings passes root =
      .ok (.ofFiles settings passes root (found.map (·.inProject settings root))) :=
    scan_eq_ok_iff.2 ⟨isDirectory_iff.2 ⟨_, _, hroot⟩, by rw [hproject]⟩
  have hscan' : tree'.scan settings passes root' =
      .ok (.ofFiles settings passes root' (found.map (·.inProject settings root'))) :=
    scan_eq_ok_iff.2 ⟨isDirectory_iff.2 ⟨_, _, hroot'⟩, by rw [hproject']⟩
  have hsymbols := symbols_reportBelow settings passes root root' hfound hdistinct
  have hsummary := summary_reportBelow settings passes root root' found
  refine ⟨_, _, hscan, hscan', ?_, hsymbols.1, hsymbols.2, hsummary, fun hroots => ?_,
    fun hnone => ?_⟩
  · rw [Scan.ofFiles, Scan.ofFiles, map_kind_inProject, map_kind_inProject]
  · obtain ⟨hshared, hnames, hsize⟩ :=
      assets_reportBelow settings passes root root' hfound fun _ => hroots
    exact ⟨hshared, hnames, Summary.eq_of_assetNames hsummary hsize⟩
  · obtain ⟨hshared, -, hsize⟩ :=
      assets_reportBelow settings passes root root' hfound fun h =>
        (hnone h).1.trans (hnone h).2.symm
    have hassets := unreferencedAssets_reportBelow settings passes root root' hfound hnone
    rw [Report.mk.injEq]
    exact ⟨rfl, rfl, hshared, hassets, hsymbols.1, hsymbols.2,
      Summary.eq_of_assetNames hsummary hsize⟩

/-- The small project, one directory further down. -/
def movedTree : FileTree where
  entries := [.directory "work" sampleTree.entries]
  workingDirectory := []

/-- The small project has the same report after it has been moved, but for the root. -/
theorem FileTree.home_and_gear_moved :
    sampleTree.isLawful = true ∧ movedTree.isLawful = true ∧
      ∃ scan scan', sampleTree.scan sampleSettings {} ⟨"app"⟩ = .ok scan ∧
        movedTree.scan sampleSettings {} ⟨"work/app"⟩ = .ok scan' ∧
        scan'.report sampleSettings = { scan.report sampleSettings with root := "work/app" } := by
  have hlawful : sampleTree.isLawful = true := by decide
  have hlawful' : movedTree.isLawful = true := by decide
  have hdash : ¬(⟨"app"⟩ : FilePath).Same standardInput := by decide
  have hdash' : ¬(⟨"work/app"⟩ : FilePath).Same standardInput := by decide
  refine ⟨hlawful, hlawful', ?_⟩
  obtain ⟨scan, scan', hscan, hscan', -, -, -, -, -, hreport⟩ :=
    report_of_same_files hlawful hlawful' (by rfl) (by rfl) (fun _ _ => Iff.rfl) hdash hdash'
      sampleSettings {}
  exact ⟨scan, scan', hscan, hscan', hreport fun _ => ⟨by decide +kernel, by decide +kernel⟩⟩

/-- A tree with the same image in two directories, of which one is a bundle. -/
def bundledTree : FileTree where
  entries := [.directory "proj" [.file "a.png" .empty],
    .directory "x.imageset" [.file "a.png" .empty]]
  workingDirectory := []

/-- **A root that is a bundle changes the report**: two directories hold the same image,
and it is reported by its own name below the one and by the name of the root below the
other. -/
theorem FileTree.bundle_root_renames_image :
    bundledTree.isLawful = true ∧
      bundledTree.find? ⟨"proj"⟩ = some (.directory ["proj"] [.file "a.png" .empty]) ∧
      bundledTree.find? ⟨"x.imageset"⟩ =
        some (.directory ["x.imageset"] [.file "a.png" .empty]) ∧
      ∃ scan scan', bundledTree.scan sampleSettings {} ⟨"proj"⟩ = .ok scan ∧
        bundledTree.scan sampleSettings {} ⟨"x.imageset"⟩ = .ok scan' ∧
        (scan.report sampleSettings).unreferencedAssets = [⟨"a", some "a.png"⟩] ∧
        (scan'.report sampleSettings).unreferencedAssets = [⟨"x", some ""⟩] := by
  have hscan : bundledTree.scan sampleSettings {} ⟨"proj"⟩ = .ok (.ofFiles sampleSettings {}
      ⟨"proj"⟩ (bundledTree.projectFiles sampleSettings ⟨"proj"⟩)) :=
    scan_eq_ok_iff.2 ⟨by decide, rfl⟩
  have hscan' : bundledTree.scan sampleSettings {} ⟨"x.imageset"⟩ = .ok (.ofFiles sampleSettings {}
      ⟨"x.imageset"⟩ (bundledTree.projectFiles sampleSettings ⟨"x.imageset"⟩)) :=
    scan_eq_ok_iff.2 ⟨by decide, rfl⟩
  refine ⟨by decide, rfl, rfl, _, _, hscan, hscan', ?_, ?_⟩
  · decide +kernel
  · decide +kernel

end Unreferenced
