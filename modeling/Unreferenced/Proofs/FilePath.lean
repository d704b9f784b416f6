import Mathlib.Data.List.Basic
import Unreferenced.FileTree.Lawful

/-!
# Joining names to a path

The walk reaches a file by joining names to the root, one at a time, and every later step
takes the joined path apart again: to tell files apart, to find an extension, to show a
path as seen from the root. What makes these steps fit together is that a lawful name,
joined to *any* path, becomes one more component
(`Unreferenced.FilePath.components_join_step`), whatever separators and dots the path is
written with. So the components of a joined path are those of the root followed by the
names (`Unreferenced.FilePath.components_joinAll`), and taking the root off leaves the
names with single separators between them
(`Unreferenced.FilePath.relativeTo?_joinAll`).
-/

namespace Unreferenced

/-! ### Lawful names -/

/-- A lawful name is not cut by a separator. -/
theorem slash_not_mem_of_isEntryName {name : String} (h : isEntryName name = true) :
    '/' ∉ name.toList := by
  simp only [isEntryName, Bool.and_eq_true, Bool.not_eq_true', List.contains_eq_mem,
    decide_eq_false_iff_not] at h
  exact h.2

/-- A lawful name is a component of its own. -/
theorem component?_of_isEntryName {name : String} (h : isEntryName name = true) :
    FilePath.component? name.toList = some (.name name) := by
  have hslash := slash_not_mem_of_isEntryName h
  simp only [isEntryName, Bool.and_eq_true, beq_iff_eq] at h
  have hcomponents := h.1
  have hhead : name.toList.head? ≠ some '/' := fun hc => hslash (List.mem_of_head? hc)
  simp only [FilePath.components, FilePath.componentsOf, Text.pieces_of_not_mem hslash, hhead,
    if_false, List.head?_cons, Option.some.injEq] at hcomponents
  split at hcomponents
  · -- The name would be the step `.`, which is no name.
    simp at hcomponents
  · cases hc : FilePath.component? name.toList with
    | none => simp [hc] at hcomponents
    | some component => simpa [hc] using hcomponents

theorem ne_empty_of_isEntryName {name : String} (h : isEntryName name = true) :
    name ≠ "" := by
  rintro rfl
  exact absurd h (by decide)

theorem toList_ne_nil_of_isEntryName {name : String} (h : isEntryName name = true) :
    name.toList ≠ [] := by
  simpa using ne_empty_of_isEntryName h

/-! ### Components of a joined path -/

namespace FilePath

/-- A component that stands between two separators: a name or `..`. -/
def IsStep (c : Component) : Prop :=
  '/' ∉ c.text.toList ∧ component? c.text.toList = some c

theorem isStep_name {name : String} (h : isEntryName name = true) : IsStep (.name name) :=
  ⟨slash_not_mem_of_isEntryName h, component?_of_isEntryName h⟩

variable {c : Component}

/-- The text of a step has the step as its only component. -/
theorem componentsOf_step (hc : IsStep c) : componentsOf c.text.toList = [c] := by
  have hslash : c.text.toList.head? ≠ some '/' := fun h => hc.1 (List.mem_of_head? h)
  have hdot : c.text.toList ≠ ['.'] := by
    intro h
    have hnone : component? ['.'] = none := rfl
    rw [← h, hc.2] at hnone
    cases hnone
  simp [componentsOf, Text.pieces_of_not_mem hc.1, hslash, hdot, hc.2]

/-- A path text whose last piece is a step has that step as its last component. -/
theorem componentsOf_append_step {cs : List Char} (hc : IsStep c) (hcs : cs ≠ []) :
    componentsOf (cs ++ '/' :: c.text.toList) = componentsOf cs ++ [c] := by
  have hpieces : Text.pieces '/' (cs ++ '/' :: c.text.toList) =
      Text.pieces '/' cs ++ [c.text.toList] := by
    rw [Text.pieces_append, Text.pieces_of_not_mem hc.1]
  have hhead : (cs ++ '/' :: c.text.toList).head? = cs.head? := List.head?_append_of_ne_nil cs hcs
  have hfirst : (Text.pieces '/' cs ++ [c.text.toList]).head? = (Text.pieces '/' cs).head? :=
    List.head?_append_of_ne_nil _ (Text.pieces_ne_nil '/' cs)
  simp only [componentsOf, hpieces, hhead, hfirst, List.filterMap_append, List.filterMap_cons,
    hc.2, List.filterMap_nil, List.append_assoc]

/-- A step behind the separator that an absolute path starts with. -/
theorem componentsOf_slash_step (hc : IsStep c) :
    componentsOf ('/' :: c.text.toList) = componentsOf ['/'] ++ [c] := by
  have hpieces : Text.pieces '/' ('/' :: c.text.toList) = [[], c.text.toList] := by
    rw [Text.pieces, if_pos rfl, Text.pieces_of_not_mem hc.1]
  have hempty : component? [] = none := rfl
  simp only [componentsOf, hpieces, List.head?_cons, if_true, List.filterMap_cons, hempty, hc.2,
    List.filterMap_nil]
  rfl

/-- A separator at the end of a path text leaves no component. -/
theorem componentsOf_append_slash {cs : List Char} (hcs : cs ≠ []) :
    componentsOf (cs ++ ['/']) = componentsOf cs := by
  have hpieces : Text.pieces '/' (cs ++ ['/']) = Text.pieces '/' cs ++ [[]] :=
    Text.pieces_append '/' cs []
  have hhead : (cs ++ ['/']).head? = cs.head? := List.head?_append_of_ne_nil cs hcs
  have hfirst : (Text.pieces '/' cs ++ [[]]).head? = (Text.pieces '/' cs).head? :=
    List.head?_append_of_ne_nil _ (Text.pieces_ne_nil '/' cs)
  have hempty : component? [] = none := rfl
  simp only [componentsOf, hpieces, hhead, hfirst, List.filterMap_append, List.filterMap_cons,
    hempty, List.filterMap_nil, List.append_nil]

/-- **Joining a step adds one component**, however the path is written. -/
theorem components_join_step (path : FilePath) (hc : IsStep c) :
    (path.join c.text).components = path.components ++ [c] := by
  have hslash : c.text.toList.head? ≠ some '/' := fun h => hc.1 (List.mem_of_head? h)
  rw [join, if_neg hslash]
  by_cases hempty : path.text = ""
  · rw [if_pos (by simp [hempty]), hempty, String.empty_append, components, components, hempty,
      componentsOf_step hc]
    rfl
  by_cases hlast : path.text.toList.getLast? = some '/'
  · obtain ⟨cs, hcs⟩ := List.getLast?_eq_some_iff.1 hlast
    rw [if_pos (by simp [hlast]), components, components, String.toList_append, hcs,
      List.append_assoc, List.singleton_append]
    by_cases hne : cs = []
    · -- The path is the separator alone, which leaves a component only at the start.
      rw [hne, List.nil_append, List.nil_append]
      exact componentsOf_slash_step hc
    · rw [componentsOf_append_step hc hne, componentsOf_append_slash hne]
  · rw [if_neg (by simp [hempty, hlast]), components, components, String.toList_append,
      String.toList_append, List.append_assoc]
    exact componentsOf_append_step hc (by simpa using hempty)

/-- Joining steps adds them to the components. -/
theorem components_joinSteps (path : FilePath) {steps : List Component}
    (hsteps : ∀ c ∈ steps, IsStep c) :
    (steps.foldl (fun path c => path.join c.text) path).components = path.components ++ steps := by
  induction steps generalizing path with
  | nil => simp
  | cons c rest ih =>
    rw [List.foldl_cons, ih _ fun d hd => hsteps d (List.mem_cons_of_mem _ hd),
      components_join_step path (hsteps c List.mem_cons_self), List.append_assoc,
      List.singleton_append]

/-- **The components of a joined path** are those of the path, then the names. -/
theorem components_joinAll (path : FilePath) {names : List String}
    (hnames : ∀ name ∈ names, isEntryName name = true) :
    (names.foldl join path).components = path.components ++ names.map .name := by
  have hsteps : ∀ c ∈ names.map Component.name, IsStep c := by
    intro c hc
    obtain ⟨name, hmem, rfl⟩ := List.mem_map.1 hc
    exact isStep_name (hnames name hmem)
  rw [← components_joinSteps path hsteps, List.foldl_map]
  rfl

/-- Paths that join different names to one root differ. -/
theorem joinAll_same_iff (path : FilePath) {names names' : List String}
    (hnames : ∀ name ∈ names, isEntryName name = true)
    (hnames' : ∀ name ∈ names', isEntryName name = true) :
    (names.foldl join path).Same (names'.foldl join path) ↔ names = names' := by
  rw [Same, components_joinAll path hnames, components_joinAll path hnames',
    List.append_cancel_left_eq]
  exact List.map_inj_right fun _ _ h => Component.name.inj h

/-! ### The path made of components -/

/-- A stretch between separators is the text of the component that it leaves. -/
theorem text_of_component? {piece : List Char} (h : component? piece = some c) :
    c.text.toList = piece := by
  rw [component?] at h
  split at h
  · cases h
  · split at h
    · next hparent =>
      rw [← Option.some.inj h, eq_of_beq hparent]
      rfl
    · rw [← Option.some.inj h]
      exact String.toList_ofList

/-- A path has steps for components, but for the separator or dot that it may start with. -/
theorem exists_components_eq (path : FilePath) :
    ∃ start steps, path.components = start ++ steps ∧
      (start = [] ∨ start = [.root] ∨ start = [.current]) ∧ ∀ c ∈ steps, IsStep c := by
  refine ⟨_, _, rfl, ?_, fun c hc => ?_⟩
  · split
    · exact .inr (.inl rfl)
    · split
      · exact .inr (.inr rfl)
      · exact .inl rfl
  · obtain ⟨piece, hpiece, hcomponent⟩ := List.mem_filterMap.1 hc
    have htext := text_of_component? hcomponent
    exact ⟨htext ▸ Text.not_mem_of_mem_pieces hpiece, htext ▸ hcomponent⟩

/-- **The first components of a path make up a path of their own.** -/
theorem components_ofComponents_of_prefix {path : FilePath} {upTo : List Component}
    (h : upTo <+: path.components) : (ofComponents upTo).components = upTo := by
  obtain ⟨start, steps, hcomponents, hstart, hsteps⟩ := path.exists_components_eq
  rw [hcomponents] at h
  obtain ⟨rest, hsplit⟩ := h
  rcases List.append_eq_append_iff.1 hsplit with ⟨more, hmore, -⟩ | ⟨more, rfl, hmore⟩
  · -- The start is at most one component, so its beginnings are nothing and itself.
    rw [hmore] at hstart
    have hupTo : upTo = [] ∨ upTo = [.root] ∨ upTo = [.current] := by
      simp only [List.append_eq_nil_iff, List.append_eq_singleton_iff] at hstart
      tauto
    rcases hupTo with rfl | rfl | rfl <;> rfl
  · have hpart : ∀ c ∈ more, IsStep c := fun c hc => hsteps c (hmore ▸ List.mem_append_left _ hc)
    rw [ofComponents, List.foldl_append, components_joinSteps _ hpart]
    rcases hstart with rfl | rfl | rfl <;> rfl

/-- **The path made of the components of a path is the same path.** -/
theorem components_ofComponents (path : FilePath) :
    (ofComponents path.components).components = path.components :=
  components_ofComponents_of_prefix List.prefix_rfl

/-- The path made of the components of a path and of names behind them. -/
theorem components_ofComponents_append (path : FilePath) {names : List String}
    (hnames : ∀ name ∈ names, isEntryName name = true) :
    (ofComponents (path.components ++ names.map .name)).components =
      path.components ++ names.map .name := by
  rw [← components_joinAll path hnames, components_ofComponents]

/-! ### The names as a text -/

/-- A path that already has a text, and does not end in a separator, grows by a separator
and a name. -/
theorem text_joinAll_of_closed {names : List String}
    (hnames : ∀ name ∈ names, isEntryName name = true) {text : String}
    (hne : text ≠ "") (hlast : text.toList.getLast? ≠ some '/') :
    (names.foldl join ⟨text⟩).text = "/".intercalate (text :: names) := by
  induction names generalizing text with
  | nil => simp
  | cons name rest ih =>
    have hname := hnames name List.mem_cons_self
    have hslash := slash_not_mem_of_isEntryName hname
    have hstep : join ⟨text⟩ name = ⟨text ++ "/" ++ name⟩ := by
      rw [join, if_neg fun hc => hslash (List.mem_of_head? hc), if_neg (by simp [hne, hlast])]
    have hlast' : (text ++ "/" ++ name).toList.getLast? ≠ some '/' := by
      rw [String.toList_append, List.getLast?_append_of_ne_nil _ (toList_ne_nil_of_isEntryName hname)]
      exact fun hc => hslash (List.mem_of_getLast? hc)
    rw [List.foldl_cons, hstep, ih (fun n hn => hnames n (List.mem_cons_of_mem _ hn))
      (by simp [hne]) hlast']
    cases rest with
    | nil => simp [String.append_assoc]
    | cons next more => simp [String.append_assoc]

/-- The path made of names alone has single separators between them. -/
theorem ofComponents_map_name {names : List String}
    (hnames : ∀ name ∈ names, isEntryName name = true) :
    ofComponents (names.map .name) = ⟨"/".intercalate names⟩ := by
  rw [ofComponents, List.foldl_map]
  cases names with
  | nil => simp
  | cons name rest =>
    have hname := hnames name List.mem_cons_self
    have hslash := slash_not_mem_of_isEntryName hname
    have hstep : join ⟨""⟩ name = ⟨name⟩ := by
      rw [join, if_neg fun hc => hslash (List.mem_of_head? hc), if_pos (by simp)]
      simp
    have htext := text_joinAll_of_closed (fun n hn => hnames n (List.mem_cons_of_mem _ hn))
      (ne_empty_of_isEntryName hname) fun hc => hslash (List.mem_of_getLast? hc)
    rw [List.foldl_cons, Component.text, hstep]
    exact congrArg FilePath.mk htext

/-- **Taking the root off a joined path leaves the names.** -/
theorem relativeTo?_joinAll (path : FilePath) {names : List String}
    (hnames : ∀ name ∈ names, isEntryName name = true) :
    (names.foldl join path).relativeTo? path = some ⟨"/".intercalate names⟩ := by
  rw [relativeTo?, components_joinAll path hnames, if_pos (by simp), List.drop_left,
    ofComponents_map_name hnames]

/-- A path made of the components of the root and of names is shown by the names. -/
theorem shownFrom_ofComponents_append (root : FilePath) {names : List String}
    (hnames : ∀ name ∈ names, isEntryName name = true) :
    (ofComponents (root.components ++ names.map .name)).shownFrom root =
      "/".intercalate names := by
  rw [shownFrom, relativeTo?, components_ofComponents_append root hnames, if_pos (by simp),
    List.drop_left, ofComponents_map_name hnames, Option.getD_some]

/-! ### The last name -/

/-- Of a path that names were joined to, the last name is that of the names alone. -/
theorem fileName?_joinAll (path : FilePath) {names : List String}
    (hnames : ∀ name ∈ names, isEntryName name = true) (hne : names ≠ []) :
    (names.foldl join path).fileName? = names.getLast? := by
  rw [fileName?, components_joinAll path hnames,
    List.getLast?_append_of_ne_nil _ (by simpa using hne), List.getLast?_map]
  cases names.getLast? <;> rfl

/-- The extension of a joined path does not depend on what the names were joined to. -/
theorem extension?_joinAll (path : FilePath) {names : List String}
    (hnames : ∀ name ∈ names, isEntryName name = true) (hne : names ≠ []) :
    (names.foldl join path).extension? = (⟨"/".intercalate names⟩ : FilePath).extension? := by
  have hrelative : (⟨"/".intercalate names⟩ : FilePath) = names.foldl join ⟨""⟩ := by
    rw [← ofComponents_map_name hnames, ofComponents, List.foldl_map]
    rfl
  rw [hrelative, extension?, extension?, fileName?_joinAll path hnames hne,
    fileName?_joinAll ⟨""⟩ hnames hne]

end FilePath

end Unreferenced
