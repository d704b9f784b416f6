import Unreferenced.Proofs.Asset.Name
import Unreferenced.Proofs.Scan
import Unreferenced.Proofs.Walk.Order
import Unreferenced.Report

/-!
# Shared names in a report

No file of a project is lost on the way into a scan and none is counted twice. An image is
listed in the entry of its name and in no other, since every image has one name; a count of
images and a list of paths are kept by different rules, and agree because the walk meets no
path twice. Out of this come the two lists of shared names: those of at least two images,
with their number (`Unreferenced.mem_sharedAssets_iff`), and those that at least two source
files declare, with these files in walk order, the last of them kept
(`Unreferenced.mem_sharedSymbols_iff`). A file that declares a name several times counts
once.

`Unreferenced.FileTree.report_shared` says all of it for the scan of a directory.
-/

namespace Unreferenced

variable {settings : Settings} {passes : Passes} {root : FilePath} {files : List ProjectFile}
  {name : String}

/-! ### Images of a list of files -/

/-- Of how many images a name is. -/
def imageCount (settings : Settings) (files : List ProjectFile) (name : String) : Nat :=
  (ofKind .image files).countP fun file =>
    (imageName? file.path settings.files.bundleSuffix).map (·.1) = some name

theorem count_map_name_namedImages (settings : Settings) (files : List ProjectFile)
    (name : String) :
    ((namedImages settings files).map (·.name)).count name = imageCount settings files name := by
  rw [namedImages, List.map_filterMap, List.count_filterMap, imageCount]
  refine congrArg (List.countP · _) (funext fun file => ?_)
  rw [ProjectFile.named?, Option.map_map]
  exact Bool.beq_eq_decide_eq _ _

/-- The images of a list of files have the paths of its image files, when those have names. -/
theorem map_path_namedImages
    (hnamed : ∀ file ∈ ofKind .image files,
      (imageName? file.path settings.files.bundleSuffix).isSome = true) :
    (namedImages settings files).map (·.path) = (ofKind .image files).map (·.path) := by
  have hpath : ∀ file ∈ ofKind .image files,
      (file.named? settings).map (·.path) = some file.path := by
    intro file hmem
    obtain ⟨found, hfound⟩ := Option.isSome_iff_exists.1 (hnamed file hmem)
    rw [ProjectFile.named?, hfound]
    rfl
  rw [namedImages, List.map_filterMap, List.filterMap_congr hpath, ← List.filterMap_eq_map]
  rfl

/-- An image comes from a file of its path that gives its name. -/
theorem mem_namedImages_iff {image : NamedImage} :
    image ∈ namedImages settings files ↔ ∃ file ∈ ofKind .image files,
      imageName? file.path settings.files.bundleSuffix = some (image.name, image.bundle?) ∧
        file.path = image.path := by
  obtain ⟨name, path, bundle?⟩ := image
  simp only [namedImages, List.mem_filterMap, ProjectFile.named?, Option.map_eq_some_iff,
    Prod.exists, NamedImage.mk.injEq]
  constructor
  · rintro ⟨file, hmem, _, _, hname, rfl, rfl, rfl⟩
    exact ⟨file, hmem, hname, rfl⟩
  · rintro ⟨file, hmem, hname, rfl⟩
    exact ⟨file, hmem, name, bundle?, hname, rfl, rfl, rfl⟩

section DistinctPaths

variable (hpaths : files.Pairwise fun f g => ¬f.path.Same g.path)

include hpaths

theorem pairwise_namedImages :
    (namedImages settings files).Pairwise fun a b => ¬a.path.Same b.path := by
  refine List.pairwise_filterMap.2 ((hpaths.filter _).imp ?_)
  rintro f g hnot a ha b hb
  obtain ⟨-, -, rfl⟩ := Option.map_eq_some_iff.1 ha
  obtain ⟨-, -, rfl⟩ := Option.map_eq_some_iff.1 hb
  exact hnot

/-- **The entry of a name lists the images with that name**, each once. -/
theorem locations_of_mem_collectAssets {entry : AssetEntry}
    (hmem : entry ∈ (collectAssets settings files).entries) :
    entry.locations = (imagesNamed settings files entry.name).map (·.path) := by
  rw [collectAssets_eq] at hmem
  exact AssetEntry.locations_of_ofImages? ((pairwise_namedImages hpaths).filter _)
    (AssetRegistry.ofImages?_of_mem hmem)

theorem pairwise_locations_of_mem_collectAssets {entry : AssetEntry}
    (hmem : entry ∈ (collectAssets settings files).entries) :
    entry.locations.Pairwise fun p q => ¬p.Same q := by
  rw [locations_of_mem_collectAssets hpaths hmem, List.pairwise_map]
  exact (pairwise_namedImages hpaths).filter _

/-- The list of paths and the count of an entry agree. -/
theorem length_locations_of_mem_collectAssets {entry : AssetEntry}
    (hmem : entry ∈ (collectAssets settings files).entries) :
    entry.locations.length = entry.uses := by
  rw [locations_of_mem_collectAssets hpaths hmem, List.length_map]
  rw [collectAssets_eq] at hmem
  exact (AssetEntry.uses_of_ofImages? (AssetRegistry.ofImages?_of_mem hmem)).symm

/-- **An image with a name is listed in one entry**, that of its name. -/
theorem existsUnique_entry_collectAssets {file : ProjectFile} (hfile : file ∈ ofKind .image files)
    (hnamed : (imageName? file.path settings.files.bundleSuffix).isSome = true) :
    ∃! entry, entry ∈ (collectAssets settings files).entries ∧
      ∃ path ∈ entry.locations, path.Same file.path := by
  obtain ⟨⟨name, bundle?⟩, hname⟩ := Option.isSome_iff_exists.1 hnamed
  have himage : ⟨name, file.path, bundle?⟩ ∈ imagesNamed settings files name :=
    List.mem_filter.2 ⟨mem_namedImages_iff.2 ⟨file, hfile, hname, rfl⟩, by simp⟩
  obtain ⟨entry, hentry, hentryName, -⟩ := exists_entry_collectAssets_iff.2
    ⟨List.ne_nil_of_mem himage, rfl⟩
  refine ⟨entry, ⟨hentry, file.path, ?_, .refl _⟩, ?_⟩
  · rw [locations_of_mem_collectAssets hpaths hentry, hentryName]
    exact List.mem_map_of_mem himage
  · rintro other ⟨hother, path, hpath, hsame⟩
    -- The path is that of an image with the name of the other entry, and no other file has it.
    rw [locations_of_mem_collectAssets hpaths hother] at hpath
    obtain ⟨image, himage', rfl⟩ := List.mem_map.1 hpath
    obtain ⟨himage', hotherName⟩ := List.mem_filter.1 himage'
    obtain ⟨file', hfile', hname', hpath'⟩ := mem_namedImages_iff.1 himage'
    obtain rfl := eq_of_same_path hpaths (mem_ofKind.1 hfile').1 (mem_ofKind.1 hfile).1
      (hpath' ▸ hsame)
    rw [hname, Option.some.injEq, Prod.mk.injEq] at hname'
    have hnames : other.name = entry.name := by
      rw [hentryName, hname'.1]
      exact (eq_of_beq hotherName).symm
    have hnodup := AssetRegistry.nodup_names_ofInserts (namedImages settings files)
    rw [← collectAssets_eq] at hnodup
    exact List.inj_on_of_nodup_map hnodup hother hentry hnames

/-- **Every image is listed once**: the lengths of the lists add up to the number of image
files. -/
theorem sum_length_locations_collectAssets
    (hnamed : ∀ file ∈ ofKind .image files,
      (imageName? file.path settings.files.bundleSuffix).isSome = true) :
    ((collectAssets settings files).entries.map (·.locations.length)).sum =
      (ofKind .image files).length := by
  rw [List.map_congr_left fun entry hmem => length_locations_of_mem_collectAssets hpaths hmem,
    collectAssets_eq, AssetRegistry.sum_uses_ofInserts, ← List.length_map (·.path),
    map_path_namedImages hnamed, List.length_map]

end DistinctPaths

/-! ### Declarations of a list of files -/

/-- The source files that declare a name, in order. -/
def declaringFiles (settings : SymbolSettings) (files : List ProjectFile) (name : String) :
    List ProjectFile :=
  (ofKind .source files).filter (·.Declares settings name)

/-- Every source file enters a name as often as it declares it. -/
theorem components_filesOf_declarationsIn (settings : SymbolSettings) (files : List ProjectFile)
    (name : String) :
    (SymbolRegistry.filesOf (declarationsIn settings files) name).map (·.components) =
      (ofKind .source files).flatMap fun file =>
        List.replicate ((declaredNames settings.declarationKeywords file.text).count name)
          file.path.components := by
  rw [SymbolRegistry.filesOf, List.map_map, declarationsIn, List.filter_flatMap, List.map_flatMap]
  refine congrArg (List.flatMap · _) (funext fun file => ?_)
  have hfilter : ((fun declared : String × FilePath => declared.1 == name) ∘ (·, file.path)) =
      (· == name) := rfl
  rw [List.filter_map, hfilter, List.filter_beq, List.map_replicate, List.map_replicate]
  rfl

section DistinctPaths

variable (hpaths : files.Pairwise fun f g => ¬f.path.Same g.path)

include hpaths

/-- **The files of an entry are those that declare its name**, a file with several
declarations once. -/
theorem files_of_mem_typesIn {settings : SymbolSettings} {entry : SymbolEntry}
    (hmem : entry ∈ (typesIn settings files).entries) :
    entry.files = (declaringFiles settings files entry.name).map (·.path.components) := by
  have hentry := (SymbolRegistry.get?_eq_some_iff (isOrdered_typesIn settings files)).2
    ⟨hmem, rfl⟩
  rw [typesIn_eq, SymbolRegistry.get?_ofInserts] at hentry
  have hdeclares : (fun file : ProjectFile => decide (file.Declares settings entry.name)) =
      fun file => decide
        ((declaredNames settings.declarationKeywords file.text).count entry.name ≠ 0) := by
    funext file
    rw [decide_eq_decide, ← Nat.pos_iff_ne_zero, List.count_pos_iff]
    exact Iff.rfl
  have hdistinct : (ofKind .source files).Pairwise
      fun f g => f.path.components ≠ g.path.components := hpaths.filter _
  rw [SymbolEntry.files_of_ofPaths? hentry, components_filesOf_declarationsIn, declaringFiles,
    hdeclares, ← eraseDups_flatMap_replicate hdistinct]

/-- **Of the files that declare a name the last is kept**, and the others are shadowed. -/
theorem components_of_mem_typesIn {settings : SymbolSettings} {entry : SymbolEntry}
    (hmem : entry ∈ (typesIn settings files).entries) :
    (entry.shadowed ++ [entry.path]).map (·.components) =
      (declaringFiles settings files entry.name).map (·.path.components) := by
  obtain ⟨last, hlast, hpath⟩ := exists_entry_typesIn_iff.1 ⟨entry, hmem, rfl, rfl⟩
  rw [isLastWith_iff_getLast?_filter, ← declaringFiles] at hlast
  obtain ⟨others, hfiles⟩ := List.getLast?_eq_some_iff.1 hlast
  have hdistinct : ∀ other ∈ others, other.path.components ≠ last.path.components := by
    have hpairs : (declaringFiles settings files entry.name).Pairwise
        fun f g => ¬f.path.Same g.path := (hpaths.filter _).filter _
    rw [hfiles, List.pairwise_append] at hpairs
    exact fun other hother => hpairs.2.2 other hother last (List.mem_singleton_self last)
  rw [List.map_append, SymbolEntry.components_shadowed, files_of_mem_typesIn hpaths hmem, hfiles,
    ← hpath, List.map_append, List.filter_append]
  simpa using hdistinct

end DistinctPaths

/-! ### Shared names -/

theorem mem_sharedAssets_iff_shared (hpasses : passes.assets = true) {count : Nat} :
    ⟨name, count⟩ ∈ ((Scan.ofFiles settings passes root files).report settings).sharedAssets ↔
      (name, count) ∈ (collectAssets settings files).shared := by
  simp only [Scan.report, Report.build, Scan.ofFiles, hpasses, if_true, List.mem_map, Prod.exists,
    SharedAsset.mk.injEq]
  constructor
  · rintro ⟨_, _, hmem, rfl, rfl⟩
    exact hmem
  · exact fun hmem => ⟨_, _, hmem, rfl, rfl⟩

/-- **The shared images** are those that at least two image files give the name of, with
their number. -/
theorem mem_sharedAssets_iff (hpasses : passes.assets = true) {count : Nat} :
    ⟨name, count⟩ ∈ ((Scan.ofFiles settings passes root files).report settings).sharedAssets ↔
      2 ≤ count ∧ count = imageCount settings files name := by
  rw [mem_sharedAssets_iff_shared hpasses, collectAssets_eq, AssetRegistry.mem_shared_ofInserts,
    count_map_name_namedImages]

theorem pairwise_sharedAssets (settings : Settings) (passes : Passes) (root : FilePath)
    (files : List ProjectFile) :
    ((Scan.ofFiles settings passes root files).report settings).sharedAssets.Pairwise
      fun a b => a.name < b.name := by
  rw [Scan.report, Report.build, Scan.ofFiles, List.pairwise_map]
  dsimp only
  split
  · rw [collectAssets_eq]
    exact AssetRegistry.pairwise_shared_ofInserts _
  · exact .nil

/-- Paths with the same components are seen alike from everywhere. -/
theorem FilePath.map_relativeTo?_congr {ps qs : List FilePath}
    (h : ps.map (·.components) = qs.map (·.components)) (root : FilePath) :
    ps.map (·.relativeTo? root) = qs.map (·.relativeTo? root) := by
  have hrelative : (fun p : FilePath => p.relativeTo? root) =
      (fun cs => if root.components.isPrefixOf cs
        then some (ofComponents (cs.drop root.components.length)) else none) ∘ components := rfl
  rw [hrelative, ← List.map_map, h, List.map_map]

/-- What is shown of the files of an entry is what its declaring files look like from the
root. -/
theorem relativeTo?_declaringFiles_of_mem_typesIn
    (hpaths : files.Pairwise fun f g => ¬f.path.Same g.path)
    (hbelow : ∀ file ∈ files, file.path.relativeTo? root = some ⟨file.path.shownFrom root⟩)
    {entry : SymbolEntry} (hmem : entry ∈ (typesIn settings.symbols files).entries) :
    (declaringFiles settings.symbols files entry.name).map (·.path.relativeTo? root) =
      (entry.shadowed.map (·.shownFrom root) ++ [entry.path.shownFrom root]).map
        fun text => some ⟨text⟩ := by
  have hcomponents := components_of_mem_typesIn hpaths hmem
  have hpathComponents : (entry.shadowed ++ [entry.path]).map (·.components) =
      ((declaringFiles settings.symbols files entry.name).map (·.path)).map (·.components) := by
    rw [hcomponents, List.map_map]
    rfl
  have hrelative := FilePath.map_relativeTo?_congr hpathComponents root
  rw [List.map_map] at hrelative
  have hsome : ∀ path ∈ entry.shadowed ++ [entry.path],
      path.relativeTo? root = some ⟨path.shownFrom root⟩ := by
    intro path hpath
    have hin := List.mem_map_of_mem (f := (·.relativeTo? root)) hpath
    rw [hrelative] at hin
    obtain ⟨file, hfile, heq⟩ := List.mem_map.1 hin
    have hfile' := hbelow file (List.mem_filter.1 (List.mem_filter.1 hfile).1).1
    rw [FilePath.shownFrom, ← heq, Function.comp_apply, hfile', Option.getD_some]
  have hmap := List.map_congr_left hsome
  rw [hrelative] at hmap
  simpa [Function.comp_def] using hmap

/-- **The shared types**: a type is listed when the files that declare it, as seen from the
root and in order, are some shadowed ones and then the one that is kept. -/
theorem mem_sharedSymbols_iff (hpasses : passes.symbols = true)
    (hpaths : files.Pairwise fun f g => ¬f.path.Same g.path)
    (hbelow : ∀ file ∈ files, file.path.relativeTo? root = some ⟨file.path.shownFrom root⟩)
    {kept : String} {shadowed : List String} :
    ⟨name, kept, shadowed⟩ ∈
        ((Scan.ofFiles settings passes root files).report settings).sharedSymbols ↔
      shadowed ≠ [] ∧ (declaringFiles settings.symbols files name).map
        (·.path.relativeTo? root) = (shadowed ++ [kept]).map fun text => some ⟨text⟩ := by
  simp only [Scan.report, Report.build, Scan.ofFiles, hpasses, if_true, SymbolRegistry.collisions,
    List.mem_map, List.mem_filter, Bool.not_eq_true', List.isEmpty_eq_false_iff,
    SharedSymbol.mk.injEq]
  constructor
  · rintro ⟨entry, ⟨hmem, hne⟩, rfl, rfl, rfl⟩
    exact ⟨by simpa using hne, relativeTo?_declaringFiles_of_mem_typesIn hpaths hbelow hmem⟩
  · rintro ⟨hne, hfiles⟩
    have hdeclaring : declaringFiles settings.symbols files name ≠ [] := by
      intro hnil
      simp [hnil] at hfiles
    obtain ⟨file, hfile⟩ := List.exists_mem_of_ne_nil _ hdeclaring
    obtain ⟨hsource, hdeclares⟩ := List.mem_filter.1 hfile
    obtain ⟨entry, hmem, rfl⟩ := List.mem_map.1
      (mem_names_typesIn.2 ⟨file, hsource, of_decide_eq_true hdeclares⟩)
    have hinjective : Function.Injective fun text : String => some (⟨text⟩ : FilePath) :=
      fun a b hab => congrArg FilePath.text (Option.some.inj hab)
    rw [relativeTo?_declaringFiles_of_mem_typesIn hpaths hbelow hmem,
      hinjective.list_map.eq_iff] at hfiles
    obtain ⟨hshadowed, hkept⟩ := List.append_inj' hfiles rfl
    refine ⟨entry, ⟨hmem, ?_⟩, rfl, (List.cons.inj hkept).1, hshadowed⟩
    rintro hnil
    rw [hnil] at hshadowed
    exact hne hshadowed.symm

theorem pairwise_sharedSymbols (settings : Settings) (passes : Passes) (root : FilePath)
    (files : List ProjectFile) :
    ((Scan.ofFiles settings passes root files).report settings).sharedSymbols.Pairwise
      fun a b => a.name < b.name := by
  rw [Scan.report, Report.build, Scan.ofFiles, List.pairwise_map]
  dsimp only
  split
  · exact (isOrdered_typesIn settings.symbols files).filter _
  · exact .nil

/-! ### The files of a project -/

/-- A file that takes part in a scan is told by its extension. -/
theorem FileTree.exists_extension?_of_mem_projectFiles {tree : FileTree} {file : ProjectFile}
    (h : file ∈ tree.projectFiles settings root) :
    ∃ extension, file.path.extension? = some extension := by
  obtain ⟨found, -, haccepted⟩ := List.mem_filterMap.1 h
  obtain ⟨rfl, hkind⟩ := FoundFile.accepted?_eq_some_iff.1 haccepted
  exact FileSettings.exists_extension?_of_classify hkind

/-- **No file is lost or counted twice, and the shared names are exact.** A scan of a
directory succeeds. Every image file has a name and is listed in one entry; no entry lists
a path twice, and the lengths of the lists add up to the number of image files; the
searched text has as many source and interface files as are counted. The shared images are,
in strict order of the names, those of at least two image files, each with their number,
which is also the length of the list of its entry. The shared types are, in strict order
of the names, those that at least two source files declare; as seen from the root and in
walk order these files are the shadowed ones, then the one that is kept. -/
theorem FileTree.report_shared {tree : FileTree} (hlawful : tree.isLawful = true)
    (hroot : tree.isDirectory root = true) (settings : Settings) :
    ∃ scan, tree.scan settings {} root = .ok scan ∧
      (∀ file ∈ ofKind .image (tree.projectFiles settings root),
        (imageName? file.path settings.files.bundleSuffix).isSome = true ∧
          ∃! entry, entry ∈ scan.assets.entries ∧
            ∃ path ∈ entry.locations, path.Same file.path) ∧
      (∀ entry ∈ scan.assets.entries, entry.locations.Pairwise fun p q => ¬p.Same q) ∧
      scan.counts =
        { images := (ofKind .image (tree.projectFiles settings root)).length
          sources := (ofKind .source (tree.projectFiles settings root)).length
          markup := (ofKind .markup (tree.projectFiles settings root)).length } ∧
      (scan.assets.entries.map (·.locations.length)).sum = scan.counts.images ∧
      scan.corpus.sources.length = scan.counts.sources ∧
      scan.corpus.markup.length = scan.counts.markup ∧
      (scan.report settings).sharedAssets.Pairwise (fun a b => a.name < b.name) ∧
      (∀ name count, ⟨name, count⟩ ∈ (scan.report settings).sharedAssets ↔
        2 ≤ count ∧ count = imageCount settings (tree.projectFiles settings root) name) ∧
      (∀ shared ∈ (scan.report settings).sharedAssets, ∃ entry ∈ scan.assets.entries,
        entry.name = shared.name ∧ entry.locations.length = shared.count) ∧
      (scan.report settings).sharedSymbols.Pairwise (fun a b => a.name < b.name) ∧
      ∀ name kept shadowed,
        ⟨name, kept, shadowed⟩ ∈ (scan.report settings).sharedSymbols ↔
          shadowed ≠ [] ∧
            (declaringFiles settings.symbols (tree.projectFiles settings root) name).map
              (·.path.relativeTo? root) = (shadowed ++ [kept]).map fun text => some ⟨text⟩ := by
  obtain ⟨position, entries, hplace⟩ := isDirectory_iff.1 hroot
  have hpaths := pairwise_projectFiles hlawful hplace settings
  have hbelow : ∀ file ∈ tree.projectFiles settings root,
      file.path.relativeTo? root = some ⟨file.path.shownFrom root⟩ :=
    fun file hmem => relativeTo?_of_mem_projectFiles hlawful hplace hmem
  have hnamed : ∀ file ∈ ofKind .image (tree.projectFiles settings root),
      (imageName? file.path settings.files.bundleSuffix).isSome = true := by
    intro file hmem
    obtain ⟨extension, hextension⟩ := exists_extension?_of_mem_projectFiles (mem_ofKind.1 hmem).1
    exact isSome_imageName? hextension _
  have hcorpus : ∀ kind : FileKind, kind.isSearchable = true →
      ((collectText (tree.projectFiles settings root)).filesOfKind kind).length =
        (ofKind kind (tree.projectFiles settings root)).length := by
    intro kind hkind
    have hlength := congrArg List.length
      (map_contents_filesOfKind kind hkind (tree.projectFiles settings root))
    rwa [List.length_map, List.length_map] at hlength
  refine ⟨_, scan_eq_ok_iff.2 ⟨hroot, rfl⟩, fun file hmem => ⟨hnamed file hmem, ?_⟩,
    fun entry hmem => ?_, ?_, ?_, ?_, ?_, pairwise_sharedAssets .., fun name count => ?_,
    fun ⟨name, count⟩ hmem => ?_, pairwise_sharedSymbols .., fun name kept shadowed => ?_⟩
  · exact existsUnique_entry_collectAssets hpaths hmem (hnamed file hmem)
  · exact pairwise_locations_of_mem_collectAssets hpaths hmem
  · exact FileCounts.ofKinds_map_kind _
  · rw [Scan.ofFiles, FileCounts.ofKinds_map_kind]
    exact sum_length_locations_collectAssets hpaths hnamed
  · rw [Scan.ofFiles, FileCounts.ofKinds_map_kind]
    exact hcorpus .source rfl
  · rw [Scan.ofFiles, FileCounts.ofKinds_map_kind]
    exact hcorpus .markup rfl
  · exact mem_sharedAssets_iff rfl
  · obtain ⟨entry, hentry, -, hname, huses⟩ :=
      AssetRegistry.mem_shared_iff.1 ((mem_sharedAssets_iff_shared rfl).1 hmem)
    exact ⟨entry, hentry, hname, (length_locations_of_mem_collectAssets hpaths hentry).trans huses⟩
  · exact mem_sharedSymbols_iff rfl hpaths hbelow

/-- A project in which two images share a name and two source files declare a type, one of
them twice. -/
def twinTree : FileTree where
  entries := [.directory "app"
    [.directory "old" [.file "icon.png" .empty], .file "icon.png" .empty,
      .file "A.swift" "class Home {} struct Home {}".toUTF8,
      .file "B.swift" "class Home {}".toUTF8]]
  workingDirectory := []

/-- The image is shared by two files, and the type by two files although it is declared
three times. -/
theorem FileTree.home_and_icon_shared :
    twinTree.isLawful = true ∧ twinTree.isDirectory ⟨"app"⟩ = true ∧
      ∃ scan, twinTree.scan sampleSettings {} ⟨"app"⟩ = .ok scan ∧
        ⟨"icon", 2⟩ ∈ (scan.report sampleSettings).sharedAssets ∧
        ⟨"Home", "B.swift", ["A.swift"]⟩ ∈ (scan.report sampleSettings).sharedSymbols := by
  have hlawful : twinTree.isLawful = true := by decide
  have hroot : twinTree.isDirectory ⟨"app"⟩ = true := by decide
  refine ⟨hlawful, hroot, ?_⟩
  obtain ⟨scan, hscan, -, -, -, -, -, -, -, hassets, -, -, hsymbols⟩ :=
    report_shared hlawful hroot sampleSettings
  refine ⟨scan, hscan, (hassets _ _).2 ⟨by decide, ?_⟩, (hsymbols _ _ _).2 ⟨by simp, ?_⟩⟩
  · decide +kernel
  · decide +kernel

end Unreferenced
