import Unreferenced.Proofs.Asset.Registry
import Unreferenced.Proofs.Symbol.Registry
import Unreferenced.Proofs.Verdict
import Unreferenced.Scan

/-!
# What a scan collects

Everything that a scan collects is a function of the files that take part, and this file
says which: the images are those that the image files give, entered in walk order; the
searched text is that of the source and interface files; and the types are the names that
the source files declare, each with its file. The scan reads the declarations out of the
searched text and not out of the files, which gives the same, because the spans give back
the texts (`Unreferenced.typesIn_eq`).

So a name has an entry when a source file declares it, with the path of the last one that
does (`Unreferenced.path?_typesIn_iff`).
-/

namespace Unreferenced

/-! ### The files of a scan -/

/-- The files of one kind, in order. -/
def ofKind (kind : FileKind) (files : List ProjectFile) : List ProjectFile :=
  files.filter (·.kind == kind)

/-- The files whose text is searched, in order. -/
def searchable (files : List ProjectFile) : List ProjectFile :=
  files.filter (·.kind.isSearchable)

/-- A file as it is added to the searched text. -/
def ProjectFile.pushed (file : ProjectFile) : Pushed :=
  ⟨file.path, file.kind, file.text⟩

/-- The name under which a file is entered as an image, with its path and the bundle that
gave the name. -/
def ProjectFile.named? (file : ProjectFile) (settings : Settings) : Option NamedImage :=
  (imageName? file.path settings.files.bundleSuffix).map fun found =>
    ⟨found.1, file.path, found.2⟩

/-- The images among the files, each with its name, in order. -/
def namedImages (settings : Settings) (files : List ProjectFile) : List NamedImage :=
  (ofKind .image files).filterMap (·.named? settings)

/-- A file declares a name. -/
def ProjectFile.Declares (file : ProjectFile) (settings : SymbolSettings) (name : String) :
    Prop :=
  name ∈ declaredNames settings.declarationKeywords file.text

/-- The declarations in the source files, each with the path of its file, in order. -/
def declarationsIn (settings : SymbolSettings) (files : List ProjectFile) :
    List (String × FilePath) :=
  (ofKind .source files).flatMap fun file =>
    (declaredNames settings.declarationKeywords file.text).map (·, file.path)

instance (file : ProjectFile) (settings : SymbolSettings) (name : String) :
    Decidable (file.Declares settings name) :=
  inferInstanceAs (Decidable (_ ∈ _))

theorem mem_ofKind {kind : FileKind} {files : List ProjectFile} {file : ProjectFile} :
    file ∈ ofKind kind files ↔ file ∈ files ∧ file.kind = kind := by
  simp [ofKind]

theorem mem_searchable {files : List ProjectFile} {file : ProjectFile} :
    file ∈ searchable files ↔ file ∈ files ∧ (file.kind = .source ∨ file.kind = .markup) := by
  rw [searchable, List.mem_filter]
  refine and_congr_right fun _ => ?_
  cases file.kind <;> simp [FileKind.isSearchable]

/-- The files of a kind that is searched are among those that are. -/
theorem filter_kind_searchable {kind : FileKind} (hkind : kind.isSearchable = true)
    (files : List ProjectFile) :
    (searchable files).filter (·.kind == kind) = ofKind kind files := by
  rw [searchable, ofKind, List.filter_filter]
  refine List.filter_congr fun file _ => ?_
  by_cases h : file.kind = kind <;> simp [h, hkind]

/-- The counts of a list of files are the numbers of its files of each kind. -/
theorem FileCounts.ofKinds_map_kind (files : List ProjectFile) :
    FileCounts.ofKinds (files.map (·.kind)) =
      { images := (ofKind .image files).length
        sources := (ofKind .source files).length
        markup := (ofKind .markup files).length } := by
  have hcount : ∀ kind, (files.map (·.kind)).count kind = (ofKind kind files).length := by
    intro kind
    rw [List.count_eq_countP, List.countP_map, List.countP_eq_length_filter]
    rfl
  simp only [ofKinds, hcount]

/-! ### The searched text -/

theorem collectText_eq (files : List ProjectFile) :
    collectText files = .ofPushes ((searchable files).map ProjectFile.pushed) := by
  rw [collectText, Corpus.ofPushes, List.foldl_map]
  rfl

/-- The files of a kind in the searched text, with the texts that their spans give back, are
those of the project. -/
theorem map_contents_filesOfKind (kind : FileKind) (hkind : kind.isSearchable = true)
    (files : List ProjectFile) :
    ((collectText files).filesOfKind kind).map (fun file =>
        (⟨file.path, file.kind, (collectText files).contents file⟩ : Pushed)) =
      (ofKind kind files).map ProjectFile.pushed := by
  have hpushed : (collectText files).pushed = (searchable files).map ProjectFile.pushed := by
    rw [collectText_eq, Corpus.pushed_ofPushes]
  have hfilter := congrArg (List.filter fun file => file.kind == kind) hpushed
  rw [Corpus.pushed, List.filter_map, List.filter_map] at hfilter
  rw [← filter_kind_searchable hkind]
  exact hfilter

/-! ### Images -/

theorem collectAssets_eq (settings : Settings) (files : List ProjectFile) :
    collectAssets settings files = .ofInserts (namedImages settings files) := by
  rw [collectAssets, AssetRegistry.ofInserts, namedImages, List.foldl_filterMap]
  refine congrArg (fun step => List.foldl step ({} : AssetRegistry) (ofKind .image files)) ?_
  funext registry file
  rw [ProjectFile.named?]
  cases imageName? file.path settings.files.bundleSuffix <;> rfl

/-- The images that give a name, in order. -/
def imagesNamed (settings : Settings) (files : List ProjectFile) (name : String) :
    List NamedImage :=
  (namedImages settings files).filter (·.name == name)

/-- Where to look for a name: at the first bundle that gave it, or else at the first image
that did. -/
def imageLocation? (settings : Settings) (files : List ProjectFile) (name : String) :
    Option FilePath :=
  ((imagesNamed settings files name).findSome? (·.bundle?)).or
    ((imagesNamed settings files name).head?.map (·.path))

theorem imagesNamed_ne_nil_iff {settings : Settings} {files : List ProjectFile} {name : String} :
    imagesNamed settings files name ≠ [] ↔
      ∃ file ∈ ofKind .image files, ∃ bundle?,
        imageName? file.path settings.files.bundleSuffix = some (name, bundle?) := by
  rw [imagesNamed, ne_eq, List.filter_eq_nil_iff, namedImages]
  push Not
  simp only [List.mem_filterMap, ProjectFile.named?, Option.map_eq_some_iff, beq_iff_eq,
    Prod.exists]
  constructor
  · rintro ⟨-, ⟨file, hmem, _, bundle?, hname, rfl⟩, rfl⟩
    exact ⟨file, hmem, bundle?, hname⟩
  · rintro ⟨file, hmem, bundle?, hname⟩
    exact ⟨_, ⟨file, hmem, name, bundle?, hname, rfl⟩, rfl⟩

/-- **The entry of a name** is there when an image gives the name, with the place that the
images with that name have. -/
theorem exists_entry_collectAssets_iff {settings : Settings} {files : List ProjectFile}
    {name : String} {location? : Option FilePath} :
    (∃ entry ∈ (collectAssets settings files).entries,
        entry.name = name ∧ entry.bestLocation? = location?) ↔
      imagesNamed settings files name ≠ [] ∧ location? = imageLocation? settings files name := by
  have hget := AssetRegistry.get?_ofInserts (namedImages settings files) name
  have hnodup := AssetRegistry.nodup_names_ofInserts (namedImages settings files)
  have hbest := AssetEntry.bestLocation?_ofImages? (imagesNamed settings files name)
  rw [← collectAssets_eq] at hget hnodup
  rw [← imagesNamed] at hget
  rw [← imageLocation?, ← hget] at hbest
  constructor
  · rintro ⟨entry, hmem, rfl, rfl⟩
    have hentry := (AssetRegistry.get?_eq_some_iff hnodup).2 ⟨hmem, rfl⟩
    rw [hentry] at hget hbest
    refine ⟨fun hnil => ?_, hbest⟩
    rw [hnil] at hget
    cases hget
  · rintro ⟨hne, rfl⟩
    obtain ⟨first, rest, hsplit⟩ := List.exists_cons_of_ne_nil hne
    rw [hsplit] at hget
    rw [hget] at hbest
    obtain ⟨hmem, hname⟩ := (AssetRegistry.get?_eq_some_iff hnodup).1 hget
    exact ⟨_, hmem, hname, hbest⟩

/-! ### Types -/

/-- Reading a source file enters the names that it declares, all with its path. -/
theorem foldl_declaredNames (settings : SymbolSettings) (files : List Pushed)
    (registry : SymbolRegistry) :
    files.foldl
        (fun registry file =>
          (declaredNames settings.declarationKeywords file.text).foldl
            (fun registry name => registry.insert name file.path) registry)
        registry =
      (files.flatMap fun file =>
          (declaredNames settings.declarationKeywords file.text).map (·, file.path)).foldl
        (fun registry declared => registry.insert declared.1 declared.2) registry := by
  induction files generalizing registry with
  | nil => rfl
  | cons file rest ih =>
    rw [List.foldl_cons, ih, List.flatMap_cons, List.foldl_append, List.foldl_map]

/-- The types that a scan of the files collects, by name. -/
def typesIn (settings : SymbolSettings) (files : List ProjectFile) : SymbolRegistry :=
  collectSymbols settings (collectText files)

/-- **The types of a scan** are those that the source files declare, although they are read
out of the searched text. -/
theorem typesIn_eq (settings : SymbolSettings) (files : List ProjectFile) :
    typesIn settings files = .ofInserts (declarationsIn settings files) := by
  have hsources := map_contents_filesOfKind .source rfl files
  rw [← Corpus.sources] at hsources
  have hrun := foldl_declaredNames settings ((ofKind .source files).map ProjectFile.pushed) {}
  rw [← hsources, List.foldl_map, hsources, List.flatMap_map] at hrun
  exact hrun

/-- The entries of a scan are strictly in the order of their names. -/
theorem isOrdered_typesIn (settings : SymbolSettings) (files : List ProjectFile) :
    SymbolRegistry.IsOrdered (typesIn settings files).entries := by
  rw [typesIn_eq]
  exact SymbolRegistry.isOrdered_ofInserts _

/-- A name has an entry when a source file declares it. -/
theorem mem_names_typesIn {settings : SymbolSettings} {files : List ProjectFile}
    {name : String} :
    name ∈ (typesIn settings files).names ↔
      ∃ file ∈ ofKind .source files, file.Declares settings name := by
  rw [typesIn_eq, SymbolRegistry.mem_names_ofInserts]
  simp [declarationsIn, ProjectFile.Declares]

/-- The declarations of one file end with one of a name when the file declares it. -/
theorem ProjectFile.isLastWith_declared_iff {settings : SymbolSettings} {file : ProjectFile}
    {name : String} {path : FilePath} :
    IsLastWith (fun declared => declared.1 = name)
        ((declaredNames settings.declarationKeywords file.text).map (·, file.path)) (name, path) ↔
      file.Declares settings name ∧ file.path = path := by
  constructor
  · intro h
    obtain ⟨declared, hmem, heq⟩ := List.mem_map.1 h.mem
    obtain ⟨rfl, rfl⟩ := Prod.mk.inj heq
    exact ⟨hmem, rfl⟩
  · rintro ⟨hdeclares, rfl⟩
    have hmem : (name, file.path) ∈
        (declaredNames settings.declarationKeywords file.text).map (·, file.path) :=
      List.mem_map.2 ⟨name, hdeclares, rfl⟩
    obtain ⟨last, hlast⟩ := exists_isLastWith (p := fun declared : String × FilePath =>
      declared.1 = name) ⟨_, hmem, rfl⟩
    obtain ⟨declared, -, rfl⟩ := List.mem_map.1 hlast.mem
    obtain rfl : declared = name := hlast.holds
    exact hlast

/-- **The file of a name is the last source file that declares it.** -/
theorem path?_typesIn_iff {settings : SymbolSettings} {files : List ProjectFile}
    {name : String} {path : FilePath} :
    (typesIn settings files).path? name = some path ↔
      ∃ last, IsLastWith (·.Declares settings name) (ofKind .source files) last ∧
        last.path = path := by
  rw [typesIn_eq, SymbolRegistry.path?_ofInserts_iff, declarationsIn]
  induction ofKind .source files using List.reverseRecOn with
  | nil => simp [not_isLastWith_nil]
  | append_singleton sources file ih =>
    rw [List.flatMap_append, List.flatMap_singleton, isLastWith_append_iff,
      ProjectFile.isLastWith_declared_iff, ih]
    simp only [isLastWith_append_iff, isLastWith_singleton_iff, List.mem_singleton, forall_eq,
      List.forall_mem_map]
    by_cases hdeclares : file.Declares settings name
    · have hnot : ¬∀ declared ∈ declaredNames settings.declarationKeywords file.text,
          ¬declared = name := fun hc => hc name hdeclares rfl
      rw [or_iff_left fun h => hnot h.1, and_iff_right hdeclares]
      simp only [hdeclares, not_true, false_and, or_false, true_and, exists_eq_left]
    · have hnone : ∀ declared ∈ declaredNames settings.declarationKeywords file.text,
          ¬declared = name := by
        rintro declared hmem rfl
        exact hdeclares hmem
      rw [or_iff_right fun h => hdeclares h.1, and_iff_right hnone]
      simp only [hdeclares, not_false_iff, false_and, false_or, true_and]

/-- **The entry of a type** is there when a source file declares it, with the path of the last
that does. -/
theorem exists_entry_typesIn_iff {settings : SymbolSettings} {files : List ProjectFile}
    {name : String} {path : FilePath} :
    (∃ entry ∈ (typesIn settings files).entries, entry.name = name ∧ entry.path = path) ↔
      ∃ last, IsLastWith (·.Declares settings name) (ofKind .source files) last ∧
        last.path = path := by
  rw [← SymbolRegistry.path?_eq_some_iff (isOrdered_typesIn settings files), path?_typesIn_iff]

/-! ### Verdicts -/

/-- A source file at another path calls the type or uses it as a value, or an interface file
names it as a class. -/
def IsTypeReferenced (files : List ProjectFile) (name : String) (path : FilePath) : Prop :=
  (∃ other ∈ ofKind .source files, ¬other.path.Same path ∧
    (Text.contains other.text (name ++ "(") = true ∨
      Text.contains other.text (name ++ ".self") = true)) ∨
  ∃ other ∈ ofKind .markup files,
    Text.contains other.text ("customClass=\"" ++ name ++ "\"") = true

/-- A file whose text is searched has the name between quotes. -/
def IsImageReferenced (files : List ProjectFile) (name : String) : Prop :=
  ∃ file ∈ searchable files, Text.contains file.text ("\"" ++ name ++ "\"") = true

/-- The verdicts on the types that a scan of the files collects. -/
def typeVerdicts (settings : SymbolSettings) (files : List ProjectFile) :
    List (SymbolEntry × Verdict) :=
  (collectText files).symbolVerdicts settings (typesIn settings files)

/-- The verdict on a type, in terms of the files. -/
theorem isReferenced_symbolVerdict_collectText_iff {files : List ProjectFile} {name : String}
    {path : FilePath} {verdict : Verdict}
    (h : (collectText files).symbolVerdict name path = .ok verdict) :
    verdict.isReferenced = true ↔ IsTypeReferenced files name path := by
  rw [collectText_eq] at h
  rw [Corpus.isReferenced_symbolVerdict_iff h, IsTypeReferenced]
  simp only [List.mem_map, exists_exists_and_eq_and, ProjectFile.pushed, mem_searchable,
    mem_ofKind, ReferenceForm.text]
  refine or_congr (exists_congr fun file => ?_) (exists_congr fun file => ?_)
  · constructor
    · rintro ⟨⟨hmem, -⟩, hkind, hrest⟩
      exact ⟨⟨hmem, hkind⟩, hrest⟩
    · rintro ⟨⟨hmem, hkind⟩, hrest⟩
      exact ⟨⟨hmem, .inl hkind⟩, hkind, hrest⟩
  · constructor
    · rintro ⟨⟨hmem, -⟩, hkind, hrest⟩
      exact ⟨⟨hmem, hkind⟩, hrest⟩
    · rintro ⟨⟨hmem, hkind⟩, hrest⟩
      exact ⟨⟨hmem, .inr hkind⟩, hkind, hrest⟩

/-- The verdict on an image, in terms of the files. -/
theorem isReferenced_assetVerdict_collectText_iff {files : List ProjectFile} {name : String}
    {verdict : Verdict} (h : (collectText files).assetVerdict name = .ok verdict) :
    verdict.isReferenced = true ↔ IsImageReferenced files name := by
  rw [collectText_eq] at h
  rw [Corpus.isReferenced_assetVerdict_iff h, IsImageReferenced]
  simp only [List.mem_map, exists_exists_and_eq_and, ProjectFile.pushed, ReferenceForm.text]

/-! ### The scan as a whole -/

/-- The scan that the files taking part make. -/
def Scan.ofFiles (settings : Settings) (passes : Passes) (root : FilePath)
    (files : List ProjectFile) : Scan where
  root := root
  passes := passes
  assets := if passes.assets then collectAssets settings files else {}
  symbols := if passes.symbols then typesIn settings.symbols files else {}
  corpus := collectText files
  counts := .ofKinds (files.map (·.kind))

/-- **A directory can be scanned**, and nothing else can; the scan is that of the files that
take part. -/
theorem FileTree.scan_eq_ok_iff {tree : FileTree} {settings : Settings} {passes : Passes}
    {root : FilePath} {scan : Scan} :
    tree.scan settings passes root = .ok scan ↔
      tree.isDirectory root = true ∧
        scan = .ofFiles settings passes root (tree.projectFiles settings root) := by
  cases hplace : tree.find? root with
  | none => simp [FileTree.scan, isDirectory, hplace]
  | some place =>
    cases place with
    | directory position entries =>
      simp only [FileTree.scan, isDirectory, hplace, Except.ok.injEq, true_and]
      exact eq_comm
    | file position name contents => simp [FileTree.scan, isDirectory, hplace]
    | vacant position name => simp [FileTree.scan, isDirectory, hplace]

end Unreferenced
