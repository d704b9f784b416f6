import Unreferenced.Proofs.Settings.FirstEntry
import Unreferenced.Settings.File

/-!
# Settings files without an extension of their own

A file whose extension tells nothing is read as YAML first and as TOML second, so that what YAML
makes of the text counts, if it makes anything of it. Texts that are both exist, and since unknown
keys are passed over and every setting has a default, such a text can lose all that it sets
without an error. `FileTree.settingsAt_of_toml` tells when that happens, and
`Settings.eq_of_ofYaml?_of_ofToml?` names a condition on the line of the first entry under which
it does not: without a colon that makes a key there, the text is no mapping in YAML.
-/

namespace Unreferenced

open Yaml Toml

variable {text : String} {settings read : Settings}

/-- **Both notations agree** on a text in TOML when no colon makes a key on the line of its first
entry: either there is no entry, or the text is no mapping in YAML. -/
theorem Settings.eq_of_ofYaml?_of_ofToml? (hbreaks : HasPlainBreaks text.toList)
    (hcolon : ¬HasKeyColon (contentLine text)) (htoml : Settings.ofToml? text = some settings)
    (hyaml : Settings.ofYaml? text = some read) : read = settings := by
  obtain ⟨members, hmembers, hread⟩ := Option.bind_eq_some_iff.1 htoml
  obtain ⟨hcontent, rfl⟩ | hroot := startsRoot_of_document? hbreaks hmembers
  · rw [Settings.eq_of_content_eq_nil hcontent hyaml]
    exact Option.some.inj hread
  · rw [Settings.ofYaml?_of_startsRoot hroot hcolon] at hyaml
    cases hyaml

namespace FileTree

variable {tree tree' : FileTree} {path path' : FilePath}

theorem settingsAt_of_extension_toml (htext : tree.text? path = some text)
    (hextension : path.extension? = some "toml") (hread : tree.settingsAt path = .ok settings) :
    Settings.ofToml? text = some settings := by
  rw [settingsAt, htext] at hread
  dsimp only at hread
  rw [Settings.ofText, hextension, if_neg (by decide), if_pos rfl] at hread
  cases htoml : Settings.ofToml? text with
  | none =>
    rw [htoml] at hread
    cases hread
  | some settings' =>
    rw [htoml] at hread
    cases hread
    rfl

/-- **A text that is accepted as TOML is never refused without an extension**, but what it is as
YAML comes first. The settings are those of a file with the extension of TOML just when YAML does
not accept other settings, and this is so for every text whose lines end in line feeds or carriage
returns alone and have no colon that makes a key where the first entry stands. -/
theorem settingsAt_of_toml (htext : tree.text? path = some text)
    (htext' : tree'.text? path' = some text)
    (hextension : path.extension? ∉ [some "yml", some "yaml", some "toml"])
    (hextension' : path'.extension? = some "toml")
    (haccepted : tree'.settingsAt path' = .ok settings) :
    tree.settingsAt path = .ok ((Settings.ofYaml? text).getD settings) ∧
      (tree.settingsAt path = tree'.settingsAt path' ↔
        ∀ read, Settings.ofYaml? text = some read → read = settings) ∧
      (HasPlainBreaks text.toList → ¬HasKeyColon (contentLine text) →
        tree.settingsAt path = tree'.settingsAt path') := by
  have htoml := settingsAt_of_extension_toml htext' hextension' haccepted
  have hread : tree.settingsAt path = .ok ((Settings.ofYaml? text).getD settings) := by
    simp only [List.mem_cons, List.not_mem_nil, or_false, not_or] at hextension
    rw [settingsAt, htext]
    dsimp only
    rw [Settings.ofText, if_neg (by simp [hextension.1, hextension.2.1]),
      if_neg hextension.2.2, htoml]
    cases Settings.ofYaml? text <;> rfl
  have hsame : tree.settingsAt path = tree'.settingsAt path' ↔
      ∀ read, Settings.ofYaml? text = some read → read = settings := by
    rw [hread, haccepted, Except.ok.injEq]
    cases Settings.ofYaml? text <;> simp
  refine ⟨hread, hsame, fun hbreaks hcolon => hsame.2 fun read hyaml => ?_⟩
  exact Settings.eq_of_ofYaml?_of_ofToml? hbreaks hcolon htoml hyaml

/-- A directory with one text in two files, of which only the second has the extension of
TOML. -/
def twice (text : String) : FileTree where
  entries := [.file "conf" text.toUTF8, .file "conf.toml" text.toUTF8]
  workingDirectory := []

/-- A text that starts with a header, behind a comment. -/
def headerText : String :=
  "# Names: all of RX\n\n[symbols]\nframework_prefixes = [\"RX\"]\n"

/-- A header is no key of a mapping, so that the settings under one are not lost. -/
theorem header_read_without_extension :
    (twice headerText).settingsAt ⟨"conf.toml"⟩ =
        .ok { symbols := { frameworkPrefixes := ["RX"] } } ∧
      (twice headerText).settingsAt ⟨"conf"⟩ =
        .ok { symbols := { frameworkPrefixes := ["RX"] } } ∧
      HasPlainBreaks headerText.toList ∧ ¬HasKeyColon (contentLine headerText) := by
  have htext : (twice headerText).text? ⟨"conf"⟩ = some headerText := by decide +kernel
  have htext' : (twice headerText).text? ⟨"conf.toml"⟩ = some headerText := by decide +kernel
  have haccepted : (twice headerText).settingsAt ⟨"conf.toml"⟩ =
      .ok { symbols := { frameworkPrefixes := ["RX"] } } := by
    decide +kernel
  have hbreaks : HasPlainBreaks headerText.toList := by decide +kernel
  have hcolon : ¬HasKeyColon (contentLine headerText) := by decide +kernel
  obtain ⟨-, -, hsame⟩ := settingsAt_of_toml htext htext' (by decide) (by decide) haccepted
  exact ⟨haccepted, (hsame hbreaks hcolon).trans haccepted, hbreaks, hcolon⟩

/-- With a colon and a space in a text of the list, YAML takes what stands before them for the
key of a mapping, which sets nothing. -/
theorem vendor_lost_without_extension :
    (twice "exclude = [\"Vendor: old\"]\n").text? ⟨"conf"⟩ =
        (twice "exclude = [\"Vendor: old\"]\n").text? ⟨"conf.toml"⟩ ∧
      (⟨"conf"⟩ : FilePath).extension? = none ∧
      (⟨"conf.toml"⟩ : FilePath).extension? = some "toml" ∧
      (twice "exclude = [\"Vendor: old\"]\n").settingsAt ⟨"conf.toml"⟩ =
        .ok { exclude := ["Vendor: old"] } ∧
      (twice "exclude = [\"Vendor: old\"]\n").settingsAt ⟨"conf"⟩ = .ok {} ∧
      (twice "exclude = [\"Vendor: old\"]\n").settingsAt ⟨"conf"⟩ ≠
        (twice "exclude = [\"Vendor: old\"]\n").settingsAt ⟨"conf.toml"⟩ := by
  decide +kernel

end FileTree

end Unreferenced
