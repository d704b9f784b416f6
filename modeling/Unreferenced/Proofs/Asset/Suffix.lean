import Mathlib.Data.Bool.AllAny
import Unreferenced.Proofs.Asset.Name
import Unreferenced.Proofs.Text.LowerCase

/-!
# What is cut off a bundle

A directory is a bundle when its lower-cased name ends in the lower-cased suffix, and its name
as a bundle is what is left when as many bytes are cut off as the *lower-cased* suffix has
(`Unreferenced.bundleName?_eq_some_iff`). So two things are compared that need not go
together. What is cut off has the lower case of the suffix exactly when it is lower-cased in
place (`Unreferenced.Text.LowersInPlace`): to as many bytes as it has, and to what it becomes
alone. And a directory whose name is written with the suffix at its end loses just the suffix
under the same condition. Both are `Unreferenced.imageName?_cut_off`; a single dotted capital
`I` makes either fail (`Unreferenced.dotted_capital_moves_cut`).

A suffix of ASCII without the letter `k` leaves no room for this: whatever becomes such a text
is itself ASCII. There the bundles of a path are what their description says
(`Unreferenced.imageName?_of_plain_suffix`), for directory names in any script.
-/

namespace Unreferenced

variable {suffix text name : String}

/-! ### The name of one bundle -/

/-- **The name of a bundle** is what stands before as many bytes as the suffix has. -/
theorem bundleName?_eq_some_iff :
    bundleName? suffix text = some name ↔
      name ≠ "" ∧ ∃ tail, text = name ++ tail ∧ tail.utf8ByteSize = suffix.utf8ByteSize ∧
        Text.endsWith (Text.lower text) suffix = true := by
  rw [bundleName?]
  constructor
  · intro h
    split at h
    · next hcond =>
      rw [Bool.and_eq_true, decide_eq_true_eq] at hcond
      obtain ⟨front, hfront, rfl⟩ := Option.map_eq_some_iff.1 h
      obtain ⟨hcount, tail, hsplit⟩ := Text.takeBytes?_eq_some_iff.1 hfront
      have htext : text = String.ofList front ++ String.ofList tail := by
        rw [← String.ofList_append, hsplit, String.ofList_toList]
      have hbytes : text.utf8ByteSize =
          (String.ofList front).utf8ByteSize + (String.ofList tail).utf8ByteSize := by
        rw [htext, String.utf8ByteSize_append]
      rw [← Text.utf8ByteSize_ofList] at hcount
      refine ⟨fun hempty => ?_, String.ofList tail, htext, by omega, hcond.2⟩
      rw [hempty, String.utf8ByteSize_empty] at hcount
      omega
    · cases h
  · rintro ⟨hne, tail, rfl, hbytes, hends⟩
    have hpos : 0 < name.utf8ByteSize := by
      rw [Nat.pos_iff_ne_zero, Ne, String.utf8ByteSize_eq_zero_iff]
      exact hne
    have htake : Text.takeBytes? ((name ++ tail).utf8ByteSize - suffix.utf8ByteSize)
        (name ++ tail).toList = some name.toList := by
      refine Text.takeBytes?_eq_some_iff.2 ⟨?_, ?_⟩
      · rw [Text.byteCount_toList, String.utf8ByteSize_append]
        omega
      · rw [String.toList_append]
        exact List.prefix_append _ _
    have hlonger : suffix.utf8ByteSize < (name ++ tail).utf8ByteSize := by
      rw [String.utf8ByteSize_append]
      omega
    rw [if_pos (by rw [hends, Bool.and_true, decide_eq_true hlonger]), htake, Option.map_some,
      String.ofList_toList]

/-- What is cut off has the lower case of the suffix when it is lower-cased in place. -/
theorem lower_tail_eq_iff {tail : String}
    (hbytes : tail.utf8ByteSize = (Text.lower suffix).utf8ByteSize)
    (hends : Text.endsWith (Text.lower (name ++ tail)) (Text.lower suffix) = true) :
    Text.lower tail = Text.lower suffix ↔ Text.LowersInPlace name tail := by
  constructor
  · intro h
    rw [Text.LowersInPlace, h]
    exact ⟨hbytes.symm, hends⟩
  · rintro ⟨hkeeps, hplace⟩
    -- Two ends of one text, with as many bytes.
    refine String.toList_inj.1 (Text.eq_of_suffix_of_byteCount (Text.endsWith_iff.1 hplace)
      (Text.endsWith_iff.1 hends) ?_)
    rw [Text.byteCount_toList, Text.byteCount_toList, hkeeps, hbytes]

/-- A text with a suffix behind it is a bundle of its name when what is behind it is
lower-cased in place to the lower case of the suffix. -/
theorem bundleName?_of_lowersInPlace {tail : String} (hne : name ≠ "")
    (hlower : Text.lower tail = Text.lower suffix) (hplace : Text.LowersInPlace name tail) :
    bundleName? (Text.lower suffix) (name ++ tail) = some name := by
  refine bundleName?_eq_some_iff.2 ⟨hne, tail, rfl, ?_, ?_⟩
  · rw [← hlower, hplace.1]
  · rw [← hlower]
    exact hplace.2

/-! ### The innermost bundle -/

/-- There is no bundle when no component is one. -/
theorem bundleAmong?_eq_none_iff {components : List FilePath.Component} :
    bundleAmong? suffix components = none ↔
      ∀ component ∈ components, bundleName? suffix component.text = none := by
  induction components with
  | nil => simp [bundleAmong?]
  | cons component rest ih =>
    rw [bundleAmong?, List.forall_mem_cons, ← ih]
    cases bundleAmong? suffix rest with
    | none => simp
    | some bundle => simp

/-- **The innermost bundle** is the last component that is one, and the components up to it. -/
theorem bundleAmong?_eq_some_iff {components : List FilePath.Component}
    {upTo : List FilePath.Component} :
    bundleAmong? suffix components = some (name, upTo) ↔
      ∃ before component after, components = before ++ component :: after ∧
        upTo = before ++ [component] ∧ bundleName? suffix component.text = some name ∧
        ∀ later ∈ after, bundleName? suffix later.text = none := by
  constructor
  · intro h
    induction components generalizing upTo with
    | nil => cases h
    | cons first rest ih =>
      rw [bundleAmong?] at h
      split at h
      · next name' upTo' hrest =>
        obtain ⟨rfl, rfl⟩ := Prod.mk.inj (Option.some.inj h)
        obtain ⟨before, component, after, rfl, rfl, hname, hlater⟩ := ih hrest
        exact ⟨first :: before, component, after, rfl, rfl, hname, hlater⟩
      · next hnone =>
        obtain ⟨name', hname, heq⟩ := Option.map_eq_some_iff.1 h
        obtain ⟨rfl, rfl⟩ := Prod.mk.inj heq
        exact ⟨[], first, rest, rfl, rfl, hname, bundleAmong?_eq_none_iff.1 hnone⟩
  · rintro ⟨before, component, after, rfl, rfl, hname, hlater⟩
    rw [bundleAmong?_append, bundleAmong?, bundleAmong?_eq_none_iff.2 hlater, hname]
    rfl

/-- A suffix that is not empty makes bundles of the components that end in it. -/
theorem bundleUnder?_of_ne_empty (h : suffix ≠ "") (components : List FilePath.Component) :
    bundleUnder? suffix components = bundleAmong? (Text.lower suffix) components := by
  rw [bundleUnder?, if_neg]
  rwa [String.isEmpty_iff, Text.lower_eq_empty_iff]

/-- **The bundle of an image** is the last component that is one, and the components of its
path are those up to it. -/
theorem imageName?_eq_some_bundle_iff (path : FilePath) (hsuffix : suffix ≠ "")
    {bundle : FilePath} :
    imageName? path suffix = some (name, some bundle) ↔
      ∃ before component after, path.components = before ++ component :: after ∧
        bundle = FilePath.ofComponents (before ++ [component]) ∧
        bundleName? (Text.lower suffix) component.text = some name ∧
        ∀ later ∈ after, bundleName? (Text.lower suffix) later.text = none := by
  have hbundle : imageName? path suffix = some (name, some bundle) ↔
      ∃ upTo, bundleAmong? (Text.lower suffix) path.components = some (name, upTo) ∧
        bundle = FilePath.ofComponents upTo := by
    rw [imageName?_eq, bundleUnder?_of_ne_empty hsuffix]
    cases bundleAmong? (Text.lower suffix) path.components with
    | none => simp
    | some found => simp [Prod.ext_iff, eq_comm]
  rw [hbundle]
  constructor
  · rintro ⟨upTo, hfound, rfl⟩
    obtain ⟨before, component, after, hsplit, rfl, hrest⟩ := bundleAmong?_eq_some_iff.1 hfound
    exact ⟨before, component, after, hsplit, rfl, hrest⟩
  · rintro ⟨before, component, after, hsplit, rfl, hrest⟩
    exact ⟨_, bundleAmong?_eq_some_iff.2 ⟨before, component, after, hsplit, rfl, hrest⟩, rfl⟩

/-- An image has a bundle when one of the components of its path is one. -/
theorem exists_bundle_of_mem {path : FilePath} (hsuffix : suffix ≠ "")
    {component : FilePath.Component} (hmem : component ∈ path.components)
    (hname : bundleName? (Text.lower suffix) component.text = some name) :
    ∃ name bundle, imageName? path suffix = some (name, some bundle) := by
  have hfound : bundleAmong? (Text.lower suffix) path.components ≠ none := fun hnone => by
    rw [bundleAmong?_eq_none_iff.1 hnone component hmem] at hname
    cases hname
  obtain ⟨⟨found, upTo⟩, hfound⟩ := Option.ne_none_iff_exists'.1 hfound
  refine ⟨found, FilePath.ofComponents upTo, ?_⟩
  rw [imageName?_eq, bundleUnder?_of_ne_empty hsuffix, hfound]
  rfl

/-- The components up to the last bundle are the first ones of the path. -/
theorem components_bundle {path : FilePath} {before after : List FilePath.Component}
    {component : FilePath.Component} (h : path.components = before ++ component :: after) :
    (FilePath.ofComponents (before ++ [component])).components = before ++ [component] :=
  FilePath.components_ofComponents_of_prefix ⟨after, by rw [h, List.append_assoc]; rfl⟩

/-! ### Any suffix -/

/-- **What is cut off a bundle.** The bundle of an image ends in a component that is its name
with something behind it, which has as many bytes as the lower-cased suffix; that has the
lower case of the suffix exactly when it is lower-cased in place. And a component that is a
text with the suffix itself behind it makes the image one of a bundle when the suffix is
lower-cased in place there. -/
theorem imageName?_cut_off (path : FilePath) {suffix : String} (hsuffix : suffix ≠ "") :
    (∀ name bundle, imageName? path suffix = some (name, some bundle) →
      ∃ before component tail, bundle.components = before ++ [component] ∧
        bundle.components <+: path.components ∧ name ≠ "" ∧ component.text = name ++ tail ∧
        tail.utf8ByteSize = (Text.lower suffix).utf8ByteSize ∧
        (Text.lower tail = Text.lower suffix ↔ Text.LowersInPlace name tail)) ∧
    ∀ component ∈ path.components, ∀ front, front ≠ "" → component.text = front ++ suffix →
      Text.LowersInPlace front suffix →
        ∃ name bundle, imageName? path suffix = some (name, some bundle) := by
  constructor
  · intro name bundle h
    obtain ⟨before, component, after, hsplit, rfl, hname, -⟩ :=
      (imageName?_eq_some_bundle_iff path hsuffix).1 h
    obtain ⟨hne, tail, htext, hbytes, hends⟩ := bundleName?_eq_some_iff.1 hname
    have hcomponents := components_bundle hsplit
    refine ⟨before, component, tail, hcomponents, ?_, hne, htext, hbytes, ?_⟩
    · rw [hcomponents, hsplit]
      exact ⟨after, by simp⟩
    · exact lower_tail_eq_iff hbytes (htext ▸ hends)
  · intro component hmem front hne htext hplace
    have hname : bundleName? (Text.lower suffix) component.text = some front := by
      rw [htext]
      exact bundleName?_of_lowersInPlace hne rfl hplace
    exact exists_bundle_of_mem hsuffix hmem hname

/-- A suffix with letters outside ASCII that keep their length: it is cut off in capital
letters, and found as it is written. -/
theorem street_cut_off :
    ".Größe" ≠ "" ∧
      (∃ tail, "ΟΔΟΣ.GRÖßE" = "ΟΔΟΣ" ++ tail ∧ Text.lower tail = Text.lower ".Größe") ∧
      ∃ name bundle, imageName? ⟨"App/ΟΔΟΣ.Größe/x.png"⟩ ".Größe" = some (name, some bundle) := by
  have hsuffix : ".Größe" ≠ "" := by decide
  have hcapital : ∀ c ∈ ".GRÖßE".toList, Text.IsSteady c :=
    List.all_iff_forall_prop.1 (by decide +kernel)
  have hwritten : ∀ c ∈ ".Größe".toList, Text.IsSteady c :=
    List.all_iff_forall_prop.1 (by decide +kernel)
  refine ⟨hsuffix, ?_, ?_⟩
  · have hfound : imageName? ⟨"App/ΟΔΟΣ.GRÖßE/x.png"⟩ ".Größe" =
        some ("ΟΔΟΣ", some ⟨"App/ΟΔΟΣ.GRÖßE"⟩) := by
      decide +kernel
    obtain ⟨before, component, tail, hcomponents, -, -, htext, -, hiff⟩ :=
      (imageName?_cut_off ⟨"App/ΟΔΟΣ.GRÖßE/x.png"⟩ hsuffix).1 _ _ hfound
    have hlast : some component = some (.name "ΟΔΟΣ.GRÖßE") := by
      rw [← List.getLast?_concat (l := before), ← hcomponents]
      decide
    obtain rfl := Option.some.inj hlast
    obtain rfl : ".GRÖßE" = tail := (String.append_right_inj "ΟΔΟΣ").1 htext
    exact ⟨_, htext, hiff.2 (Text.lowersInPlace_of_isSteady hcapital _)⟩
  · refine (imageName?_cut_off ⟨"App/ΟΔΟΣ.Größe/x.png"⟩ hsuffix).2 (.name "ΟΔΟΣ.Größe")
      (by decide) "ΟΔΟΣ" (by decide) rfl ?_
    exact Text.lowersInPlace_of_isSteady hwritten _

/-- **A dotted capital `I` moves the cut.** Its lower case has one byte more than it has
itself. As a suffix it is not found behind a single letter; and behind two letters the second
one is cut off with it, though the first alone is left. -/
theorem dotted_capital_moves_cut :
    (∃ component ∈ (⟨"aİ/x.png"⟩ : FilePath).components, component.text = "a" ++ "İ") ∧
      imageName? ⟨"aİ/x.png"⟩ "İ" = some ("x", none) ∧
      imageName? ⟨"abİ/x.png"⟩ "İ" = some ("a", some ⟨"abİ"⟩) ∧
      ∀ tail, "abİ" = "a" ++ tail → Text.lower tail ≠ Text.lower "İ" := by
  refine ⟨⟨.name "aİ", by decide, rfl⟩, by decide +kernel, by decide +kernel, fun tail htail => ?_⟩
  have hcut : tail = "bİ" := by
    have hsplit : "a" ++ "bİ" = "a" ++ tail := htail
    exact (String.append_right_inj "a").1 hsplit.symm
  rw [hcut]
  decide +kernel

/-! ### A suffix of ASCII -/

/-- The text is a name that is not empty, with the suffix behind it in capital or small letters
of ASCII. -/
def NamesBundle (suffix text name : String) : Prop :=
  name ≠ "" ∧ ∃ tail, text = name ++ tail ∧
    tail.toList.map Char.toLower = suffix.toList.map Char.toLower

/-- **Under a plain suffix** a component is a bundle when it ends in the suffix up to the case
of its letters. -/
theorem bundleName?_eq_some_iff_namesBundle (hplain : ∀ c ∈ suffix.toList, Text.IsPlain c) :
    bundleName? (Text.lower suffix) text = some name ↔ NamesBundle suffix text name := by
  have hsuffix : (Text.lower suffix).toList = suffix.toList.map Char.toLower := by
    rw [Text.toList_lower, Text.lowerWithin_of_ascii fun c hc => (hplain c hc).1]
  have hlowered : ∀ y ∈ suffix.toList.map Char.toLower, Text.IsPlain y := by
    intro y hy
    obtain ⟨c, hc, rfl⟩ := List.mem_map.1 hy
    exact (hplain c hc).toLower
  constructor
  · intro h
    obtain ⟨hne, tail, rfl, hbytes, hends⟩ := bundleName?_eq_some_iff.1 h
    refine ⟨hne, tail, rfl, ?_⟩
    rw [Text.endsWith_iff, hsuffix, Text.toList_lower] at hends
    obtain ⟨front, rest, hsplit, hascii, hrest⟩ :=
      Text.exists_tail_of_suffix_lowerWithin hlowered hends
    -- What is ASCII keeps its length, so it is what was cut off.
    have hkept := Text.byteCount_lowerWithin_of_isSteady
      (fun c hc => Text.isSteady_of_ascii (hascii c hc)) [] []
    rw [Text.lowerWithin_of_ascii hascii, hrest, ← hsuffix, Text.byteCount_toList, ← hbytes,
      ← Text.byteCount_toList] at hkept
    have htail : tail.toList <:+ (name ++ tail).toList := by
      rw [String.toList_append]
      exact List.suffix_append _ _
    rw [Text.eq_of_suffix_of_byteCount htail ⟨front, hsplit.symm⟩ hkept, hrest]
  · rintro ⟨hne, tail, rfl, hletters⟩
    have hascii : ∀ c ∈ tail.toList, c.toNat < 0x80 := fun c hc =>
      Text.ascii_of_toLower (hlowered _ (hletters ▸ List.mem_map_of_mem hc)).1
    refine bundleName?_of_lowersInPlace hne ?_
      (Text.lowersInPlace_of_isSteady (fun c hc => Text.isSteady_of_ascii (hascii c hc)) name)
    rw [← String.toList_inj, hsuffix, ← hletters, Text.toList_lower,
      Text.lowerWithin_of_ascii hascii]

/-- Under a plain suffix a component is no bundle when it does not end in the suffix. -/
theorem bundleName?_eq_none_iff_namesBundle (hplain : ∀ c ∈ suffix.toList, Text.IsPlain c) :
    bundleName? (Text.lower suffix) text = none ↔ ∀ name, ¬NamesBundle suffix text name := by
  rw [Option.eq_none_iff_forall_ne_some]
  exact forall_congr' fun name => not_congr (bundleName?_eq_some_iff_namesBundle hplain)

/-- **The logical name of an image, under a suffix of ASCII without the letter `k`.** The last
component that is a name with the suffix behind it, in capital or small letters, gives the
image that name, and the bundle is the path up to it. Where the suffix is empty, or no
component is of that form, the image has the name of its file without the extension, and none
when the path does not end in a name. A name is never empty, and where the path has an
extension there is one. -/
theorem imageName?_of_plain_suffix (path : FilePath) {suffix : String}
    (hplain : ∀ c ∈ suffix.toList, c.toNat < 0x80 ∧ c ≠ 'k' ∧ c ≠ 'K') :
    (suffix ≠ "" → ∀ before component after name,
      path.components = before ++ component :: after →
      NamesBundle suffix component.text name →
      (∀ later ∈ after, ∀ other, ¬NamesBundle suffix later.text other) →
        ∃ bundle, imageName? path suffix = some (name, some bundle) ∧
          bundle.components = before ++ [component]) ∧
    ((suffix = "" ∨ ∀ component ∈ path.components, ∀ name,
        ¬NamesBundle suffix component.text name) →
      imageName? path suffix = path.stem?.map (·, none) ∧
        (imageName? path suffix = none ↔ path.fileName? = none)) ∧
    (∀ name bundle?, imageName? path suffix = some (name, bundle?) → name ≠ "") ∧
    ∀ extension, path.extension? = some extension → (imageName? path suffix).isSome = true := by
  refine ⟨fun hsuffix before component after name hsplit hnames hlater => ?_, fun hnone => ?_,
    fun name bundle? h => ?_, fun extension h => isSome_imageName? h suffix⟩
  · refine ⟨_, (imageName?_eq_some_bundle_iff path hsuffix).2 ⟨before, component, after, hsplit,
      rfl, (bundleName?_eq_some_iff_namesBundle hplain).2 hnames, fun later hmem => ?_⟩,
      components_bundle hsplit⟩
    exact (bundleName?_eq_none_iff_namesBundle hplain).2 (hlater later hmem)
  · have hbundle : bundleUnder? suffix path.components = none := by
      rcases hnone with rfl | hnone
      · rfl
      · rw [bundleUnder?]
        split
        · rfl
        · exact bundleAmong?_eq_none_iff.2 fun component hmem =>
            (bundleName?_eq_none_iff_namesBundle hplain).2 (hnone component hmem)
    rw [imageName?_eq, hbundle]
    refine ⟨rfl, ?_⟩
    simp [FilePath.stem?]
  · rw [imageName?_eq] at h
    rcases Option.or_eq_some_iff.1 h with hbundle | ⟨-, hstem⟩
    · obtain ⟨⟨found, upTo⟩, hfound, heq⟩ := Option.map_eq_some_iff.1 hbundle
      obtain ⟨rfl, -⟩ := Prod.mk.inj heq
      rw [bundleUnder?] at hfound
      split at hfound
      · cases hfound
      · obtain ⟨-, component, -, -, -, hname, -⟩ := bundleAmong?_eq_some_iff.1 hfound
        exact (bundleName?_eq_some_iff.1 hname).1
    · obtain ⟨found, hfile, heq⟩ := Option.map_eq_some_iff.1 hstem
      obtain ⟨rfl, -⟩ := Prod.mk.inj heq
      exact FilePath.ne_empty_of_stem? hfile

/-- The inner of two bundles on a path gives the name; it is written in Greek and capital
letters, and the final sigma stands right before the suffix. -/
theorem street_innermost_bundle :
    (∀ c ∈ ".imageset".toList, c.toNat < 0x80 ∧ c ≠ 'k' ∧ c ≠ 'K') ∧
      ∃ bundle, imageName? ⟨"App/Größe.imageset/ΟΔΟΣ.ImageSet/x@2x.png"⟩ ".imageset" =
          some ("ΟΔΟΣ", some bundle) ∧
        bundle.components = [.name "App", .name "Größe.imageset", .name "ΟΔΟΣ.ImageSet"] := by
  have hplain : ∀ c ∈ ".imageset".toList, c.toNat < 0x80 ∧ c ≠ 'k' ∧ c ≠ 'K' :=
    List.all_iff_forall_prop.1 (by decide)
  refine ⟨hplain, ?_⟩
  refine (imageName?_of_plain_suffix ⟨"App/Größe.imageset/ΟΔΟΣ.ImageSet/x@2x.png"⟩ hplain).1
    (by decide) [.name "App", .name "Größe.imageset"] (.name "ΟΔΟΣ.ImageSet")
    [.name "x@2x.png"] "ΟΔΟΣ" (by decide) ⟨by decide, ".ImageSet", rfl, by decide⟩ ?_
  intro later hmem
  obtain rfl := List.mem_singleton.1 hmem
  exact (bundleName?_eq_none_iff_namesBundle hplain).1 (by decide +kernel)

end Unreferenced
