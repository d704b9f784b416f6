import Mathlib.Logic.Basic
import Unreferenced.Asset.Name
import Unreferenced.FileKind
import Unreferenced.Proofs.FilePath

/-!
# Which name an image has

The name of an image is that of the innermost bundle on its path, and where there is no
bundle its own. A file is taken for an image by its extension, and a name with an
extension has something in front of it, so every image has a name
(`Unreferenced.isSome_imageName?`).

Which of the components of a path are bundles does not depend on what stands before them
(`Unreferenced.innermostBundle?_eq`), so the bundles of a path are those of its end and,
when there are none, those of its front (`Unreferenced.bundleAmong?_append`). For an image
below a root this says what part the root can have in its name: none, unless the root
itself lies in a bundle (`Unreferenced.imageName?_joinAll_of_enclosingBundle?`).
-/

namespace Unreferenced

variable {suffix : String}

/-! ### Images without a bundle -/

/-- Where a name has an extension something stands before it. -/
theorem FilePath.splitName_fst_ne_nil {name extension : List Char}
    (h : (splitName name).2 = some extension) : (splitName name).1 ≠ [] := by
  rw [splitName] at h ⊢
  split
  · next hempty =>
    rw [if_pos hempty] at h
    cases h
  · next hfront => simpa using hfront

/-- Of a name that is not empty something is left without the extension. -/
theorem FilePath.splitName_fst_ne_nil_of_ne_nil {name : List Char} (h : name ≠ []) :
    (splitName name).1 ≠ [] := by
  cases hsplit : (splitName name).2 with
  | some extension => exact splitName_fst_ne_nil hsplit
  | none =>
    rw [splitName] at hsplit ⊢
    split at hsplit
    · next hempty => rwa [if_pos hempty]
    · cases hsplit

/-- The name that a path ends in is not empty. -/
theorem FilePath.ne_empty_of_fileName? {path : FilePath} {name : String}
    (h : path.fileName? = some name) : name ≠ "" := by
  obtain ⟨start, steps, hcomponents, hstart, hsteps⟩ := path.exists_components_eq
  have hname : Component.name name ∈ steps := by
    rw [fileName?] at h
    split at h
    · next text hlast =>
      obtain rfl := Option.some.inj h
      have hmem := List.mem_of_getLast? hlast
      rw [hcomponents] at hmem
      refine (List.mem_append.1 hmem).resolve_left fun hin => ?_
      rcases hstart with rfl | rfl | rfl <;> simp at hin
    · cases h
  rintro rfl
  have hnone := (hsteps _ hname).2
  cases hnone

/-- A path has a stem when it ends in a name, and the stem is not empty. -/
theorem FilePath.ne_empty_of_stem? {path : FilePath} {stem : String}
    (h : path.stem? = some stem) : stem ≠ "" := by
  obtain ⟨name, hname, rfl⟩ := Option.map_eq_some_iff.1 h
  have hne : name.toList ≠ [] := by simpa using ne_empty_of_fileName? hname
  simpa using splitName_fst_ne_nil_of_ne_nil hne

/-- A path with an extension has a name in front of it. -/
theorem FilePath.exists_stem?_of_extension? {path : FilePath} {extension : String}
    (h : path.extension? = some extension) : ∃ stem, path.stem? = some stem ∧ stem ≠ "" := by
  rw [extension?, Option.bind_eq_some_iff] at h
  obtain ⟨name, hname, hextension⟩ := h
  obtain ⟨cs, hcs, -⟩ := Option.map_eq_some_iff.1 hextension
  refine ⟨_, by rw [stem?, hname, Option.map_some], ?_⟩
  simpa using splitName_fst_ne_nil hcs

/-- A path of a kind that takes part has an extension. -/
theorem FileSettings.exists_extension?_of_classify {settings : FileSettings} {path : FilePath}
    (h : settings.classify path ≠ .ignored) : ∃ extension, path.extension? = some extension := by
  rw [classify] at h
  split at h
  · exact absurd rfl h
  · next extension hextension => exact ⟨extension, hextension⟩

/-- **A path with an extension gives an image a name**, whatever the bundles are called. -/
theorem isSome_imageName? {path : FilePath} {extension : String}
    (h : path.extension? = some extension) (bundleSuffix : String) :
    (imageName? path bundleSuffix).isSome = true := by
  obtain ⟨stem, hstem, hne⟩ := FilePath.exists_stem?_of_extension? h
  rw [imageName?]
  split
  · rfl
  · simp [hstem, hne]

/-! ### Bundles among components -/

/-- The name of the innermost bundle among some components, with the components up to it. -/
def bundleAmong? (suffix : String) :
    List FilePath.Component → Option (String × List FilePath.Component)
  | [] => none
  | component :: rest =>
    match bundleAmong? suffix rest with
    | some (name, upTo) => some (name, component :: upTo)
    | none => (bundleName? suffix component.text).map (·, [component])

/-- **What stands before the components** is part of the path of a bundle, not of its
name. -/
theorem innermostBundle?_eq (before components : List FilePath.Component) :
    innermostBundle? suffix before components =
      (bundleAmong? suffix components).map fun bundle =>
        (bundle.1, FilePath.ofComponents (before ++ bundle.2)) := by
  induction components generalizing before with
  | nil => rfl
  | cons component rest ih =>
    rw [innermostBundle?, bundleAmong?, ih]
    cases bundleAmong? suffix rest with
    | none => cases bundleName? suffix component.text <;> rfl
    | some bundle => simp

/-- **The innermost bundle of two stretches of a path** is that of the second, and where
that has none, that of the first. -/
theorem bundleAmong?_append (front components : List FilePath.Component) :
    bundleAmong? suffix (front ++ components) =
      ((bundleAmong? suffix components).map fun bundle => (bundle.1, front ++ bundle.2)).or
        (bundleAmong? suffix front) := by
  induction front with
  | nil => simp [bundleAmong?]
  | cons component rest ih =>
    rw [List.cons_append, bundleAmong?, ih, bundleAmong?]
    cases bundleAmong? suffix components with
    | none => rfl
    | some bundle => rfl

/-- A bundle is one of the components, and those up to it come first among them. -/
theorem prefix_of_bundleAmong? {components : List FilePath.Component}
    {bundle : String × List FilePath.Component}
    (h : bundleAmong? suffix components = some bundle) : bundle.2 <+: components := by
  induction components generalizing bundle with
  | nil => cases h
  | cons component rest ih =>
    rw [bundleAmong?] at h
    split at h
    · next name upTo hrest =>
      rw [← Option.some.inj h]
      exact List.cons_prefix_cons.2 ⟨rfl, ih hrest⟩
    · obtain ⟨name, -, rfl⟩ := Option.map_eq_some_iff.1 h
      exact List.cons_prefix_cons.2 ⟨rfl, List.nil_prefix⟩

/-! ### Images below a root -/

/-- The name of the innermost bundle that a directory lies in or is. -/
def FilePath.enclosingBundle? (path : FilePath) (bundleSuffix : String) : Option String :=
  let suffix := Text.lower bundleSuffix
  if suffix.isEmpty then none else (innermostBundle? suffix [] path.components).map (·.1)

/-- The innermost bundle among some components under a suffix as it is set; the empty suffix
makes no bundles. -/
def bundleUnder? (bundleSuffix : String) (components : List FilePath.Component) :
    Option (String × List FilePath.Component) :=
  if (Text.lower bundleSuffix).isEmpty then none
  else bundleAmong? (Text.lower bundleSuffix) components

/-- **The innermost bundle of two stretches of a path**, under a suffix as it is set. -/
theorem bundleUnder?_append (bundleSuffix : String) (front components : List FilePath.Component) :
    bundleUnder? bundleSuffix (front ++ components) =
      ((bundleUnder? bundleSuffix components).map fun bundle => (bundle.1, front ++ bundle.2)).or
        (bundleUnder? bundleSuffix front) := by
  rw [bundleUnder?, bundleUnder?, bundleUnder?, bundleAmong?_append]
  split <;> rfl

/-- **The name of an image** is that of the innermost bundle, and where there is none the name
of the file without its extension. -/
theorem imageName?_eq (path : FilePath) (bundleSuffix : String) :
    imageName? path bundleSuffix =
      ((bundleUnder? bundleSuffix path.components).map fun bundle =>
        (bundle.1, some (FilePath.ofComponents bundle.2))).or (path.stem?.map (·, none)) := by
  have hstem : (path.stem?.bind fun stem => if stem.isEmpty then none else some (stem, none)) =
      path.stem?.map fun stem => (stem, (none : Option FilePath)) := by
    cases hname : path.stem? with
    | none => rfl
    | some stem => simp [FilePath.ne_empty_of_stem? hname]
  rw [imageName?, hstem, innermostBundle?_eq, bundleUnder?]
  dsimp only [List.nil_append]
  by_cases hsuffix : (Text.lower bundleSuffix).isEmpty = true
  · rw [if_pos hsuffix, if_pos hsuffix]
    rfl
  · rw [if_neg hsuffix, if_neg hsuffix]
    cases bundleAmong? (Text.lower bundleSuffix) path.components <;> rfl

theorem FilePath.enclosingBundle?_eq (path : FilePath) (bundleSuffix : String) :
    path.enclosingBundle? bundleSuffix =
      (bundleUnder? bundleSuffix path.components).map (·.1) := by
  rw [enclosingBundle?, bundleUnder?, innermostBundle?_eq]
  split
  · rfl
  · rw [Option.map_map]
    rfl

section BelowRoot

variable (root : FilePath) (bundleSuffix : String) {names : List String}
  (hnames : ∀ name ∈ names, isEntryName name = true) (hne : names ≠ [])

include hnames hne

/-- **The name of an image below a root** comes from a bundle below the root, or else from
the bundle that the root lies in, or else from the file itself. -/
theorem imageName?_joinAll :
    imageName? (names.foldl .join root) bundleSuffix =
      ((bundleUnder? bundleSuffix (names.map .name)).map fun bundle =>
        (bundle.1, some (FilePath.ofComponents (root.components ++ bundle.2)))).or
      (((bundleUnder? bundleSuffix root.components).map fun bundle =>
        (bundle.1, some (FilePath.ofComponents bundle.2))).or
      (names.getLast?.map fun name => (String.ofList (FilePath.splitName name.toList).1, none))) := by
  rw [imageName?_eq, FilePath.stem?, FilePath.fileName?_joinAll root hnames hne,
    FilePath.components_joinAll root hnames, bundleUnder?_append, Option.map_or, Option.map_map,
    Option.map_map, Option.or_assoc]
  rfl

/-- **Roots that lie in bundles of one name, or in none, give an image the same name.** -/
theorem map_fst_imageName?_joinAll {root' : FilePath}
    (hroots : root.enclosingBundle? bundleSuffix = root'.enclosingBundle? bundleSuffix) :
    (imageName? (names.foldl .join root) bundleSuffix).map (·.1) =
      (imageName? (names.foldl .join root') bundleSuffix).map (·.1) := by
  rw [FilePath.enclosingBundle?_eq, FilePath.enclosingBundle?_eq] at hroots
  rw [imageName?_joinAll root bundleSuffix hnames hne,
    imageName?_joinAll root' bundleSuffix hnames hne]
  simp only [Option.map_or, Option.map_map, Function.comp_def]
  rw [hroots]

/-- **Below a root that lies in no bundle** an image has the name, and as seen from the root
the bundle, that its path below the root gives. -/
theorem imageName?_joinAll_of_enclosingBundle? (hroot : root.enclosingBundle? bundleSuffix = none) :
    (imageName? (names.foldl .join root) bundleSuffix).map
        (fun found => (found.1, found.2.map (·.shownFrom root))) =
      ((bundleUnder? bundleSuffix (names.map .name)).map fun bundle =>
        (bundle.1, some (FilePath.ofComponents bundle.2).text)).or
      (names.getLast?.map fun name =>
        (String.ofList (FilePath.splitName name.toList).1, none)) := by
  rw [FilePath.enclosingBundle?_eq, Option.map_eq_none_iff] at hroot
  have hshown : ∀ bundle, bundleUnder? bundleSuffix (names.map .name) = some bundle →
      (FilePath.ofComponents (root.components ++ bundle.2)).shownFrom root =
        (FilePath.ofComponents bundle.2).text := by
    intro bundle hbundle
    rw [bundleUnder?] at hbundle
    split at hbundle
    · cases hbundle
    · -- The components up to a bundle below the root are names too.
      obtain ⟨rest, hrest⟩ := prefix_of_bundleAmong? hbundle
      obtain ⟨front, back, rfl, hfront, -⟩ := List.map_eq_append_iff.1 hrest.symm
      have hlawful : ∀ name ∈ front, isEntryName name = true :=
        fun name hmem => hnames name (List.mem_append_left _ hmem)
      rw [← hfront, FilePath.shownFrom_ofComponents_append root hlawful,
        FilePath.ofComponents_map_name hlawful]
  rw [imageName?_joinAll root bundleSuffix hnames hne, hroot, Option.map_none, Option.none_or,
    Option.map_or]
  congr 1
  · rw [Option.map_map]
    refine Option.map_congr fun bundle hbundle => ?_
    simp [hshown bundle hbundle]
  · rw [Option.map_map]
    rfl

end BelowRoot

end Unreferenced
