import Unreferenced.Proofs.Scan
import Unreferenced.Proofs.Walk.Files
import Unreferenced.Report

/-!
# The images in a report

An image is reported as unreferenced when an image file gives its name, the name can be
searched for and is not retained, and no searched file has it between quotes
(`Unreferenced.FileTree.report_unreferencedAssets`). Where it is said to be depends on all
the images with its name, in walk order: at the first bundle among them, even if an image
without a bundle came before, and at the first image when there is no bundle
(`Unreferenced.imageLocation?`).

As for types, the proof follows the scan backwards. There is nothing to be shown about the
tree itself, since names may repeat and the order of the files decides only on the place.
-/

namespace Unreferenced

variable {settings : Settings} {root : FilePath}

/-! ### The list of unreferenced images -/

variable {verdicts : List (AssetEntry × Verdict)}

/-- What is reported are the names that no verdict calls referenced and that are not
retained, with the places of their entries. -/
theorem mem_reportedAssets_iff {name : String} {location? : Option String} :
    ⟨name, location?⟩ ∈ reportedAssets settings root verdicts ↔
      settings.retain name = false ∧ ∃ entry verdict, (entry, verdict) ∈ verdicts ∧
        entry.name = name ∧ entry.bestLocation?.map (·.shownFrom root) = location? ∧
          ¬verdict.isReferenced = true := by
  simp only [reportedAssets, (sortedBy_perm _).mem_iff, List.mem_map, List.mem_filter,
    Settings.reports, Bool.and_eq_true, Bool.not_eq_true', Prod.exists,
    UnreferencedAsset.mk.injEq]
  constructor
  · rintro ⟨entry, verdict, ⟨hmem, hreferenced, hretain⟩, rfl, hlocation⟩
    exact ⟨hretain, entry, verdict, hmem, rfl, hlocation, by simpa using hreferenced⟩
  · rintro ⟨hretain, entry, verdict, hmem, rfl, hlocation, hreferenced⟩
    exact ⟨entry, verdict, ⟨hmem, by simpa using hreferenced, hretain⟩, rfl, hlocation⟩

/-- The reported names are in strict order when there is one verdict for each name. -/
theorem pairwise_reportedAssets (h : (verdicts.map fun p => p.1.name).Nodup) :
    (reportedAssets settings root verdicts).Pairwise fun a b => a.name < b.name := by
  refine pairwise_lt_sortedBy ?_
  rw [List.map_map]
  exact h.sublist (List.filter_sublist.map _)

/-! ### The images of a list of files -/

variable {files : List ProjectFile} {name : String}

/-- **The reported images of a list of files**: the names that an image gives, that can be
searched for and are not retained, and that none of the files references. -/
theorem mem_reportedAssets_assetVerdicts_iff {location? : Option String} :
    ⟨name, location?⟩ ∈ reportedAssets settings root
        ((collectText files).assetVerdicts (collectAssets settings files)) ↔
      imagesNamed settings files name ≠ [] ∧ nameFault? name = none ∧
        settings.retain name = false ∧ ¬IsImageReferenced files name ∧
        location? = (imageLocation? settings files name).map (·.shownFrom root) := by
  rw [mem_reportedAssets_iff]
  constructor
  · rintro ⟨hretain, entry, verdict, hmem, rfl, rfl, hreferenced⟩
    obtain ⟨hentry, hverdict⟩ := Corpus.mem_assetVerdicts_iff.1 hmem
    obtain ⟨hne, hlocation⟩ := exists_entry_collectAssets_iff.1 ⟨entry, hentry, rfl, rfl⟩
    refine ⟨hne, (Corpus.exists_assetVerdict_iff _).1 ⟨verdict, hverdict⟩, hretain, ?_, ?_⟩
    · rwa [← isReferenced_assetVerdict_collectText_iff hverdict]
    · rw [hlocation]
  · rintro ⟨hne, hfault, hretain, hreferenced, rfl⟩
    obtain ⟨entry, hentry, rfl, hlocation⟩ := exists_entry_collectAssets_iff.2 ⟨hne, rfl⟩
    obtain ⟨verdict, hverdict⟩ := (collectText files).exists_assetVerdict_iff.2 hfault
    refine ⟨hretain, entry, verdict, Corpus.mem_assetVerdicts_iff.2 ⟨hentry, hverdict⟩, rfl,
      by rw [hlocation], ?_⟩
    rwa [isReferenced_assetVerdict_collectText_iff hverdict]

/-- The reported images of a list of files are in strict order. -/
theorem pairwise_reportedAssets_assetVerdicts (settings : Settings) (root : FilePath)
    (files : List ProjectFile) :
    (reportedAssets settings root
      ((collectText files).assetVerdicts (collectAssets settings files))).Pairwise
        fun a b => a.name < b.name := by
  have hnodup := AssetRegistry.nodup_names_ofInserts (namedImages settings files)
  rw [← collectAssets_eq] at hnodup
  exact pairwise_reportedAssets (hnodup.sublist (Corpus.map_name_assetVerdicts_sublist _ _))

section OfFiles

variable {passes : Passes} (hpasses : passes.assets = true)

include hpasses

theorem unreferencedAssets_ofFiles :
    ((Scan.ofFiles settings passes root files).report settings).unreferencedAssets =
      reportedAssets settings root
        ((collectText files).assetVerdicts (collectAssets settings files)) := by
  simp only [Scan.report, Report.build, Scan.assetVerdicts, Scan.ofFiles, hpasses, if_true]

theorem assetNames_ofFiles :
    ((Scan.ofFiles settings passes root files).report settings).summary.assetNames =
      (collectAssets settings files).size := by
  simp only [Scan.report, Report.build, Scan.ofFiles, hpasses, if_true]

end OfFiles

/-! ### The images of a project -/

/-- **The report of images is exact.** A scan of a directory that looks for images succeeds.
It reports, in strict order of the names, those that an image file gives, that are not
blank and have no quote and no line break in them, that are not retained, and that no
source or interface file has between quotes. Each is reported at the first bundle that gave
it, or else at the first image that did, as seen from the root. -/
theorem FileTree.report_unreferencedAssets {tree : FileTree}
    (hroot : tree.isDirectory root = true) (settings : Settings) {passes : Passes}
    (hpasses : passes.assets = true) :
    ∃ scan, tree.scan settings passes root = .ok scan ∧
      (scan.report settings).unreferencedAssets.Pairwise (fun a b => a.name < b.name) ∧
      ∀ name location?, ⟨name, location?⟩ ∈ (scan.report settings).unreferencedAssets ↔
        (∃ file ∈ ofKind .image (tree.projectFiles settings root), ∃ bundle?,
          imageName? file.path settings.files.bundleSuffix = some (name, bundle?)) ∧
        ((∃ c ∈ name.toList, Text.isBlank c = false) ∧
          '\x22' ∉ name.toList ∧ '\n' ∉ name.toList ∧ '\r' ∉ name.toList) ∧
        settings.retain name = false ∧
        (∀ file ∈ searchable (tree.projectFiles settings root),
          Text.contains file.text ("\"" ++ name ++ "\"") = false) ∧
        location? = (imageLocation? settings (tree.projectFiles settings root) name).map
          (·.shownFrom root) := by
  refine ⟨_, scan_eq_ok_iff.2 ⟨hroot, rfl⟩, ?_, fun name location? => ?_⟩
  · rw [unreferencedAssets_ofFiles hpasses]
    exact pairwise_reportedAssets_assetVerdicts settings root _
  · rw [unreferencedAssets_ofFiles hpasses, mem_reportedAssets_assetVerdicts_iff,
      imagesNamed_ne_nil_iff, nameFault?_eq_none_iff, forall_endsLiteral_iff, IsImageReferenced]
    simp only [not_exists, not_and, Bool.not_eq_true]

/-- In the small project the only image is reported at its bundle. -/
theorem FileTree.gear_unreferenced :
    sampleTree.isDirectory ⟨"app"⟩ = true ∧
      ∃ scan, sampleTree.scan sampleSettings {} ⟨"app"⟩ = .ok scan ∧
        ⟨"gear", some "gear.imageset"⟩ ∈ (scan.report sampleSettings).unreferencedAssets := by
  have hroot : sampleTree.isDirectory ⟨"app"⟩ = true := by decide
  have hpasses : ({} : Passes).assets = true := rfl
  refine ⟨hroot, ?_⟩
  obtain ⟨scan, hscan, -, hreported⟩ := report_unreferencedAssets hroot sampleSettings hpasses
  have himages : ofKind .image (sampleTree.projectFiles sampleSettings ⟨"app"⟩) =
      [⟨⟨"app/gear.imageset/gear.png"⟩, .image, .empty⟩] := by
    rw [projectFiles_sampleTree]
    rfl
  have hsearchable : searchable (sampleTree.projectFiles sampleSettings ⟨"app"⟩) =
      [⟨⟨"app/Home.swift"⟩, .source, "class Home {}".toUTF8⟩] := by
    rw [projectFiles_sampleTree]
    rfl
  have hname : imageName? ⟨"app/gear.imageset/gear.png"⟩ sampleSettings.files.bundleSuffix =
      some ("gear", some ⟨"app/gear.imageset"⟩) := by
    decide +kernel
  refine ⟨scan, hscan, (hreported _ _).2 ⟨?_, ⟨?_, ?_⟩, rfl, ?_, ?_⟩⟩
  · rw [himages]
    exact ⟨_, List.mem_singleton_self _, _, hname⟩
  · exact ⟨'g', by decide, by decide⟩
  · exact ⟨by decide, by decide, by decide⟩
  · rw [hsearchable, List.forall_mem_singleton]
    decide +kernel
  · have hnamed : imagesNamed sampleSettings
        (sampleTree.projectFiles sampleSettings ⟨"app"⟩) "gear" =
          [⟨"gear", ⟨"app/gear.imageset/gear.png"⟩, some ⟨"app/gear.imageset"⟩⟩] := by
      rw [imagesNamed, namedImages, himages, List.filterMap_cons, ProjectFile.named?, hname]
      rfl
    rw [imageLocation?, hnamed]
    decide

end Unreferenced
