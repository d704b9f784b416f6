import Unreferenced.FileTree.Change
import Unreferenced.Proofs.FileTree

/-!
# What a written file changes

A file is written at one name of one directory, and a look-up sees a tree only through the
names that it comes by (`Unreferenced.sight?`). So a look-up takes the same steps before and
after, and what it arrives at differs only where it arrives at that name
(`Unreferenced.FileTree.find?_of_puts`): the file can be read back under the path that it was
written to, and under every other path that leads there, and every other file is as it was.
Nothing is assumed of the tree, which may hold links and even entries that share a name.
-/

namespace Unreferenced

/-! ### What a look-up sees -/

/-- What a look-up sees of an entry. -/
inductive Sight where
  /-- There is none. -/
  | vacant
  /-- A directory. -/
  | directory
  /-- A regular file with its bytes. -/
  | file (contents : ByteArray)
  /-- A link with its target. -/
  | link (target : String)

/-- What a look-up sees of an entry that it may have found. -/
def Sight.of : Option Entry → Sight
  | none => .vacant
  | some (.directory ..) => .directory
  | some (.file _ contents) => .file contents
  | some (.link _ target) => .link target

/-- What a look-up sees of a name in the directory at a position, if there is a directory. -/
def sight? (entries : List Entry) (position : List String) (name : String) : Option Sight :=
  (entriesAt? entries position).map fun inner => .of (entryNamed? name inner)

variable {entries entries' inner : List Entry} {position : List String} {name : String}
  {contents : ByteArray}

theorem sight?_nil : sight? entries [] name = some (.of (entryNamed? name entries)) :=
  rfl

theorem sight?_cons {step : String} :
    sight? entries (step :: position) name =
      match entryNamed? step entries with
      | some (.directory _ inner) => sight? inner position name
      | _ => none := by
  rw [sight?, entriesAt?]
  cases entryNamed? step entries with
  | none => rfl
  | some entry => cases entry <;> rfl

/-- Behind a name that is none of a directory nothing is seen. -/
theorem sight?_cons_eq_none {step : String} (h : .of (entryNamed? step entries) ≠ Sight.directory) :
    sight? entries (step :: position) name = none := by
  rw [sight?_cons]
  split
  · next hfound => exact absurd (by rw [hfound]; rfl) h
  · rfl

theorem isSome_sight? (entries : List Entry) (position : List String) (name : String) :
    (sight? entries position name).isSome = (entriesAt? entries position).isSome :=
  Option.isSome_map ..

theorem FileTree.advance_name (tree : FileTree) (position : List String) (name : String)
    (rest : List FilePath.Component) :
    tree.advance position (.name name :: rest) =
      match sight? tree.entries position name with
      | none => .lost
      | some .vacant => if rest.isEmpty then .arrived (.vacant position name) else .lost
      | some .directory => tree.advance (position ++ [name]) rest
      | some (.file contents) =>
        if rest.isEmpty then .arrived (.file position name contents) else .lost
      | some (.link target) => .redirected position target rest := by
  rw [advance, sight?]
  cases entriesAt? tree.entries position with
  | none => rfl
  | some inner =>
    dsimp only [Option.map_some]
    cases entryNamed? name inner with
    | none => rfl
    | some entry => cases entry <;> rfl

/-! ### One file put at a name -/

/-- The second directory holds a file at a name of the directory at a position, where the
first has a file or nothing, and otherwise they look the same. -/
structure Puts (entries entries' : List Entry) (position : List String) (name : String)
    (contents : ByteArray) : Prop where
  /-- The file is there now. -/
  here : sight? entries' position name = some (.file contents)
  /-- There was a file before, or nothing. -/
  before : sight? entries position name = some .vacant ∨
    ∃ old, sight? entries position name = some (.file old)
  /-- Under every other name there is what was there before. -/
  elsewhere : ∀ p n, ¬(p = position ∧ n = name) → sight? entries' p n = sight? entries p n

/-- No directory has come or gone. -/
theorem Puts.isSome_entriesAt? (h : Puts entries entries' position name contents)
    (p : List String) : (entriesAt? entries' p).isSome = (entriesAt? entries p).isSome := by
  rw [← isSome_sight? entries' p name, ← isSome_sight? entries p name]
  by_cases hp : p = position
  · rcases h.before with hbefore | ⟨old, hbefore⟩ <;> rw [hp, h.here, hbefore] <;> rfl
  · rw [h.elsewhere p name fun hboth => hp hboth.1]

/-- What a look-up arrives at once the file is there. -/
def Place.put (entries' : List Entry) (position : List String) (name : String)
    (contents : ByteArray) : Place → Place
  | .directory p _ => .directory p ((entriesAt? entries' p).getD [])
  | .file p n old => .file p n (if p = position ∧ n = name then contents else old)
  | .vacant p n => if p = position ∧ n = name then .file p n contents else .vacant p n

namespace FileTree

/-- How far steps lead once the file is there. -/
def Progress.put (entries' : List Entry) (position : List String) (name : String)
    (contents : ByteArray) : Progress → Progress
  | .arrived place => .arrived (place.put entries' position name contents)
  | .lost => .lost
  | .redirected p target rest => .redirected p target rest

variable {tree tree' : FileTree} {path : FilePath}

section Puts

variable (h : Puts tree.entries tree'.entries position name contents)

include h

/-- Steps lead as far as before. -/
theorem advance_of_puts (p : List String) (steps : List FilePath.Component) :
    tree'.advance p steps =
      (tree.advance p steps).put tree'.entries position name contents := by
  induction steps generalizing p with
  | nil =>
    have hsome := h.isSome_entriesAt? p
    rw [advance, advance]
    cases hat : entriesAt? tree.entries p with
    | none =>
      rw [hat, Option.isSome_none, Option.isSome_eq_false_iff, Option.isNone_iff_eq_none] at hsome
      rw [hsome]
      rfl
    | some found =>
      rw [hat, Option.isSome_some, Option.isSome_iff_exists] at hsome
      obtain ⟨found', hat'⟩ := hsome
      simp only [hat', Progress.put, Place.put, Option.getD_some]
  | cons step rest ih =>
    cases step with
    | root => exact ih []
    | current => exact ih p
    | parent => exact ih p.dropLast
    | name n =>
      rw [advance_name, advance_name]
      by_cases hhere : p = position ∧ n = name
      · obtain ⟨rfl, rfl⟩ := hhere
        rw [h.here]
        rcases h.before with hbefore | ⟨old, hbefore⟩ <;> rw [hbefore] <;> dsimp only <;>
          split <;> simp [Progress.put, Place.put]
      · rw [h.elsewhere p n hhere]
        cases sight? tree.entries p n with
        | none => rfl
        | some sight =>
          cases sight with
          | directory => exact ih (p ++ [n])
          | link target => rfl
          | vacant =>
            dsimp only
            split <;> simp [Progress.put, Place.put, hhere]
          | file old =>
            dsimp only
            split <;> simp [Progress.put, Place.put, hhere]

/-- Following links, too. -/
theorem follow_of_puts (links : Nat) (p : List String) (steps : List FilePath.Component) :
    tree'.follow links p steps =
      (tree.follow links p steps).map (·.put tree'.entries position name contents) := by
  induction links generalizing p steps with
  | zero =>
    rw [follow, follow, advance_of_puts h]
    cases tree.advance p steps <;> rfl
  | succ links ih =>
    rw [follow, follow, advance_of_puts h]
    cases tree.advance p steps with
    | arrived place => rfl
    | lost => rfl
    | redirected q target rest => exact ih q _

/-- **A path leads where it led**, and the file is found where it leads to the file. -/
theorem find?_of_puts (hworking : tree'.workingDirectory = tree.workingDirectory)
    (path : FilePath) :
    tree'.find? path = (tree.find? path).map (·.put tree'.entries position name contents) := by
  rw [find?, find?, hworking]
  split
  · exact follow_of_puts h _ _ _
  · rfl

end Puts

end FileTree

/-! ### Changing the entries of one directory -/

/-- A name finds an entry at the end when it finds none before. -/
theorem entryNamed?_append {entry : Entry} :
    entryNamed? name (entries ++ [entry]) =
      (entryNamed? name entries).or (if entry.name = name then some entry else none) := by
  rw [entryNamed?, List.find?_append, ← entryNamed?]
  by_cases h : entry.name = name <;> simp [h]

/-- A change of entries that keeps their names is seen in what a name finds. -/
theorem entryNamed?_map {change : Entry → Entry} (h : ∀ entry, (change entry).name = entry.name) :
    entryNamed? name (entries.map change) = (entryNamed? name entries).map change := by
  rw [entryNamed?, List.find?_map, entryNamed?]
  congr 2
  funext entry
  rw [Function.comp_apply, h]

/-- An entry with the change made further down, when it is the directory on the way. -/
def Entry.adjusted (change : List Entry → List Entry) (step : String) (rest : List String) :
    Entry → Entry
  | .directory name inner =>
    if name = step then .directory name (adjustAt change rest inner) else .directory name inner
  | entry => entry

theorem adjustAt_cons {change : List Entry → List Entry} {step : String} {rest : List String} :
    adjustAt change (step :: rest) entries = entries.map (Entry.adjusted change step rest) := by
  rw [adjustAt]
  congr 1

theorem Entry.name_adjusted {change : List Entry → List Entry} {step : String}
    {rest : List String} (entry : Entry) : (entry.adjusted change step rest).name = entry.name := by
  cases entry with
  | file | link => rfl
  | directory n inner =>
    rw [adjusted]
    split <;> rfl

theorem Sight.of_adjusted {change : List Entry → List Entry} {step : String}
    {rest : List String} (found? : Option Entry) :
    of (found?.map (Entry.adjusted change step rest)) = of found? := by
  rcases found? with _ | ⟨n, old⟩ | ⟨n, inner⟩ | ⟨n, target⟩
  · rfl
  · rfl
  · rw [Option.map_some, Entry.adjusted]
    split <;> rfl
  · rfl

/-- A change that makes a name find a file, where it has found a file or nothing, and every
other name find what it has found. -/
structure PutsAmong (change : List Entry → List Entry) (inner : List Entry) (name : String)
    (contents : ByteArray) : Prop where
  /-- The name finds the file. -/
  here : .of (entryNamed? name (change inner)) = Sight.file contents
  /-- It has found a file or nothing. -/
  before : .of (entryNamed? name inner) = Sight.vacant ∨
    ∃ old, .of (entryNamed? name inner) = Sight.file old
  /-- Other names find what they have found. -/
  elsewhere : ∀ n, n ≠ name → entryNamed? n (change inner) = entryNamed? n inner

/-- The change puts a file into the directory that it is made in. -/
theorem PutsAmong.puts {change : List Entry → List Entry}
    (h : PutsAmong change entries name contents) :
    Puts entries (change entries) [] name contents := by
  refine ⟨congrArg some h.here,
    h.before.imp (congrArg some ·) (.imp fun _ => (congrArg some ·)), fun p n hne => ?_⟩
  cases p with
  | nil => rw [sight?_nil, sight?_nil, h.elsewhere n fun hn => hne ⟨rfl, hn⟩]
  | cons step p =>
    by_cases hstep : step = name
    · -- the name leads to no directory, neither before nor now
      subst hstep
      rw [sight?_cons_eq_none, sight?_cons_eq_none]
      · rcases h.before with hbefore | ⟨old, hbefore⟩ <;> simp [hbefore]
      · simp [h.here]
    · rw [sight?_cons, sight?_cons, h.elsewhere step hstep]

/-- What is put into an inner directory is put there for the outer one. -/
theorem Puts.outward {change : List Entry → List Entry} {step : String} {rest : List String}
    {found : List Entry} (hfound : entryNamed? step entries = some (.directory step found))
    (h : Puts found (adjustAt change rest found) rest name contents) :
    Puts entries (adjustAt change (step :: rest) entries) (step :: rest) name contents := by
  have hfound' : entryNamed? step (adjustAt change (step :: rest) entries) =
      some (.directory step (adjustAt change rest found)) := by
    rw [adjustAt_cons, entryNamed?_map Entry.name_adjusted, hfound, Option.map_some,
      Entry.adjusted, if_pos rfl]
  refine ⟨?_, ?_, fun p n hne => ?_⟩
  · rw [sight?_cons, hfound']
    exact h.here
  · rw [sight?_cons, hfound]
    exact h.before
  · cases p with
    | nil =>
      rw [adjustAt_cons, sight?_nil, sight?_nil, entryNamed?_map Entry.name_adjusted,
        Sight.of_adjusted]
    | cons s p =>
      by_cases hs : s = step
      · subst hs
        rw [sight?_cons, sight?_cons, hfound', hfound]
        exact h.elsewhere p n fun hboth => hne ⟨hboth.1 ▸ rfl, hboth.2⟩
      · -- another name may lead to a directory, but the change is not made in that one
        rw [sight?_cons, sight?_cons, adjustAt_cons, entryNamed?_map Entry.name_adjusted]
        cases hother : entryNamed? s entries with
        | none => rfl
        | some entry =>
          cases entry with
          | file | link => rfl
          | directory d other =>
            have hd : d ≠ step := fun hd => hs ((mem_of_entryNamed? hother).2.symm.trans hd)
            rw [Option.map_some, Entry.adjusted, if_neg hd]

/-- **A change in one directory puts a file there** when it does so among the entries of that
directory. -/
theorem puts_adjustAt {change : List Entry → List Entry}
    (hat : entriesAt? entries position = some inner)
    (h : PutsAmong change inner name contents) :
    Puts entries (adjustAt change position entries) position name contents := by
  induction position generalizing entries with
  | nil =>
    obtain rfl := Option.some.inj hat
    exact h.puts
  | cons step rest ih =>
    rw [entriesAt?] at hat
    split at hat
    · next n found hfound =>
      obtain rfl : n = step := (mem_of_entryNamed? hfound).2
      exact .outward hfound (ih hat)
    · cases hat

/-! ### Writing -/

namespace FileTree

variable {tree tree' : FileTree} {path : FilePath}

/-- Where a look-up arrives, the name that it arrives at is seen. -/
theorem sight?_of_advance (tree : FileTree) (position : List String) (name : String)
    (p : List String) (steps : List FilePath.Component) :
    (∀ old, tree.advance p steps = .arrived (.file position name old) →
        sight? tree.entries position name = some (.file old)) ∧
      (tree.advance p steps = .arrived (.vacant position name) →
        sight? tree.entries position name = some .vacant) := by
  induction steps generalizing p with
  | nil =>
    rw [advance]
    split <;> simp
  | cons step rest ih =>
    cases step with
    | root => exact ih []
    | current => exact ih p
    | parent => exact ih p.dropLast
    | name n =>
      rw [advance_name]
      split
      · simp
      · next hsight =>
        split
        · simp only [Progress.arrived.injEq, reduceCtorEq, false_implies, implies_true,
            Place.vacant.injEq, true_and]
          rintro ⟨rfl, rfl⟩
          exact hsight
        · simp
      · exact ih (p ++ [n])
      · next hsight =>
        split
        · simp only [Progress.arrived.injEq, reduceCtorEq, false_implies, and_true,
            Place.file.injEq]
          rintro old ⟨rfl, rfl, rfl⟩
          exact hsight
        · simp
      · simp

theorem sight?_of_follow {links : Nat} {p : List String} {steps : List FilePath.Component} :
    (∀ old, tree.follow links p steps = some (.file position name old) →
        sight? tree.entries position name = some (.file old)) ∧
      (tree.follow links p steps = some (.vacant position name) →
        sight? tree.entries position name = some .vacant) := by
  fun_induction follow tree links p steps with
  | case1 _ p steps place hplace =>
    obtain ⟨hfile, hvacant⟩ := sight?_of_advance tree position name p steps
    exact ⟨fun old h => hfile old (Option.some.inj h ▸ hplace),
      fun h => hvacant (Option.some.inj h ▸ hplace)⟩
  | case2 => simp
  | case3 => simp
  | case4 _ _ _ _ _ _ _ ih => exact ih

theorem sight?_of_find? :
    (∀ old, tree.find? path = some (.file position name old) →
        sight? tree.entries position name = some (.file old)) ∧
      (tree.find? path = some (.vacant position name) →
        sight? tree.entries position name = some .vacant) := by
  rw [find?]
  split
  · exact sight?_of_follow
  · simp

end FileTree

/-- The directory and the name of a file or of a vacant place. -/
def Place.target? : Place → Option (List String × String)
  | .directory .. => none
  | .file position name _ => some (position, name)
  | .vacant position name => some (position, name)

theorem Place.target?_put (place : Place) :
    (place.put entries' position name contents).target? = place.target? := by
  cases place with
  | directory | file => rfl
  | vacant p n =>
    rw [put]
    split <;> rfl

namespace FileTree

/-- The directory and the name that a file has when it is written to the path. Two paths lead
to the same file when these are the same. -/
def target? (tree : FileTree) (path : FilePath) : Option (List String × String) :=
  (tree.find? path).bind Place.target?

variable {tree tree' : FileTree} {path : FilePath}

/-- Where a file is overwritten it is put. -/
theorem puts_of_overwritten {old : ByteArray}
    (h : sight? tree.entries position name = some (.file old)) :
    Puts tree.entries (adjustAt (·.map fun entry =>
      if entry.name = name then .file name contents else entry) position tree.entries)
      position name contents := by
  rw [sight?, Option.map_eq_some_iff] at h
  obtain ⟨inner, hat, hfile⟩ := h
  have hnames : ∀ entry : Entry,
      (if entry.name = name then .file name contents else entry : Entry).name = entry.name := by
    intro entry
    split
    · next hname => exact hname.symm
    · rfl
  refine puts_adjustAt hat ⟨?_, .inr ⟨old, hfile⟩, fun n hn => ?_⟩
  · rw [entryNamed?_map hnames]
    cases hfound : entryNamed? name inner with
    | none => simp [hfound, Sight.of] at hfile
    | some entry => rw [Option.map_some, if_pos (mem_of_entryNamed? hfound).2, Sight.of]
  · rw [entryNamed?_map hnames]
    cases hfound : entryNamed? n inner with
    | none => rfl
    | some entry => rw [Option.map_some, (mem_of_entryNamed? hfound).2, if_neg hn]

/-- Where a file is created it is put. -/
theorem puts_of_created (h : sight? tree.entries position name = some .vacant) :
    Puts tree.entries (adjustAt (· ++ [.file name contents]) position tree.entries)
      position name contents := by
  rw [sight?, Option.map_eq_some_iff] at h
  obtain ⟨inner, hat, hvacant⟩ := h
  have hnone : entryNamed? name inner = none := by
    rcases hfound : entryNamed? name inner with _ | ⟨⟩ | ⟨⟩ | ⟨⟩ <;>
      simp [hfound, Sight.of] at hvacant ⊢
  refine puts_adjustAt hat ⟨?_, .inl hvacant, fun n hn => ?_⟩
  · simp only [entryNamed?_append, hnone, Entry.name, Option.none_or, if_true, Sight.of]
  · have hname : ¬(Entry.file name contents).name = n := Ne.symm hn
    rw [entryNamed?_append, if_neg hname, Option.or_none]

/-- **Writing puts the file where the path leads**, and nothing else changes. -/
theorem puts_of_write (h : tree.write path contents = some tree') :
    ∃ position name, tree.target? path = some (position, name) ∧
      Puts tree.entries tree'.entries position name contents ∧
      tree'.workingDirectory = tree.workingDirectory := by
  rw [write] at h
  split at h
  · next position name old hplace =>
    obtain rfl := Option.some.inj h
    exact ⟨position, name, by rw [target?, hplace]; rfl,
      puts_of_overwritten (sight?_of_find?.1 old hplace), rfl⟩
  · next position name hplace =>
    rw [add] at h
    split at h
    · obtain rfl := Option.some.inj h
      exact ⟨position, name, by rw [target?, hplace]; rfl,
        puts_of_created (sight?_of_find?.2 hplace), rfl⟩
    · cases h
  · cases h

/-- No path leads to another file than before. -/
theorem target?_of_write (h : tree.write path contents = some tree') (other : FilePath) :
    tree'.target? other = tree.target? other := by
  obtain ⟨position, name, -, hputs, hworking⟩ := puts_of_write h
  rw [target?, find?_of_puts hputs hworking, target?, Option.bind_map]
  exact congrArg _ (funext fun place => place.target?_put)

/-- **A written file is read back** under every path that leads to it, and every other file
is as it was. -/
theorem bytes?_of_write (h : tree.write path contents = some tree') (other : FilePath) :
    tree'.bytes? other =
      if tree.target? other = tree.target? path then some contents else tree.bytes? other := by
  obtain ⟨position, name, htarget, hputs, hworking⟩ := puts_of_write h
  rw [bytes?, find?_of_puts hputs hworking, htarget, target?, bytes?]
  rcases tree.find? other with _ | ⟨⟩ | ⟨p, n, old⟩ | ⟨p, n⟩
  · rfl
  · rfl
  · by_cases hhere : p = position ∧ n = name <;> simp [Place.put, Place.target?, hhere]
  · by_cases hhere : p = position ∧ n = name <;> simp [Place.put, Place.target?, hhere]

end FileTree

end Unreferenced
