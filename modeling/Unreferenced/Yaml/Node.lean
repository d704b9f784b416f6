import Unreferenced.Yaml.Token

/-!
# Documents of YAML text

A document is a tree of scalars, sequences and mappings, in which a node can be anchored
and referred to from elsewhere. Anchors are numbered: a new name takes the number of names
in use, and so does a name that is used again. Two anchors can so share a number, and a
reference leads to the last anchored node, in order of their starts, that has its number.

`documents?` reads a whole text and answers with its document, if it has one; a text of
more than one document is refused, like a malformed one.
-/

namespace Unreferenced.Yaml

/-- A node of a document. -/
inductive Node where
  /-- A scalar. -/
  | scalar (anchor? : Option Nat) (tag? : Option String) (style : ScalarStyle) (text : String)
  /-- A list of nodes. -/
  | sequence (anchor? : Option Nat) (items : List Node)
  /-- A list of keys and values. -/
  | mapping (anchor? : Option Nat) (members : List (Node × Node))
  /-- A reference to an anchor. -/
  | reference (anchor : Nat)
deriving Inhabited

/-- The node that stands where nothing is written. -/
def Node.blank : Node :=
  .scalar none none .plain ""

/-! ### From tokens to nodes -/

/-- What is left to read, with the anchors met so far. -/
structure Reading where
  /-- The tokens that are left. -/
  tokens : List Token
  /-- The numbers of the anchors. -/
  anchors : List (String × Nat) := []
deriving Inhabited

namespace Reading

/-- Passes over a token. -/
def next (reading : Reading) : Reading :=
  { reading with tokens := reading.tokens.drop 1 }

/-- The next token. -/
def token? (reading : Reading) : Option Token :=
  reading.tokens.head?

/-- Whether the next token is one of those given. -/
def isAt (reading : Reading) (tokens : List Token) : Bool :=
  reading.token?.any tokens.contains

/-- Numbers an anchor. -/
def enter (reading : Reading) (name : String) : Nat × Reading :=
  let others := reading.anchors.filter (·.1 ≠ name)
  (reading.anchors.length, { reading with anchors := (name, reading.anchors.length) :: others })

end Reading

/-- The expansions of tag handles. -/
abbrev TagHandles := List (String × String)

/-- The tag that a handle and a suffix make. -/
def expandTag (handles : TagHandles) (handle suffix : String) : Option String :=
  if handle.isEmpty then some suffix
  else (handles.lookup handle).map (· ++ suffix)

/-- Reads an anchor, if one comes next. -/
def readAnchorName (reading : Reading) : Option String × Reading :=
  match reading.token? with
  | some (.anchor name) => (some name, reading.next)
  | _ => (none, reading)

/-- Reads a tag, if one comes next. -/
def readTagName (reading : Reading) : Option (String × String) × Reading :=
  match reading.token? with
  | some (.tag handle suffix) => (some (handle, suffix), reading.next)
  | _ => (none, reading)

/-- Reads the anchor and the tag of a node, in either order, and numbers the anchor. -/
def readProperties (handles : TagHandles) (reading : Reading) :
    Option (Option Nat × Option String × Reading) := do
  let (before?, reading) := readAnchorName reading
  let (tag?, reading) := readTagName reading
  let (after?, reading) :=
    if before?.isNone && tag?.isSome then readAnchorName reading else (none, reading)
  let tag? ← match tag? with
    | some (handle, suffix) => (expandTag handles handle suffix).map some
    | none => some none
  match before?.or after? with
  | some name =>
    let (number, reading) := reading.enter name
    some (some number, tag?, reading)
  | none => some (none, tag?, reading)

mutual

/-- Reads a node. Blocks are nodes only where `inBlock` says so, and a list without an
indentation of its own only where `asValue` does. -/
def readNode (handles : TagHandles) (inBlock asValue : Bool) :
    Nat → Reading → Option (Node × Reading)
  | 0, _ => none
  | fuel + 1, reading =>
    match reading.token? with
    | some (.alias name) =>
      (reading.anchors.lookup name).map fun number => (.reference number, reading.next)
    | _ => do
      let (anchor?, tag?, reading) ← readProperties handles reading
      match reading.token?, inBlock, asValue with
      | some (.scalar style text), _, _ => some (.scalar anchor? tag? style text, reading.next)
      | some .flowSequence, _, _ =>
        let (items, reading) ← readFlowItems handles fuel true reading.next
        some (.sequence anchor? items, reading)
      | some .flowMapping, _, _ =>
        let (members, reading) ← readFlowMembers handles fuel true reading.next
        some (.mapping anchor? members, reading)
      | some .blockEntry, _, true =>
        let (items, reading) ← readIndentlessItems handles fuel reading
        some (.sequence anchor? items, reading)
      | some .blockSequence, true, _ =>
        let (items, reading) ← readBlockItems handles fuel reading.next
        some (.sequence anchor? items, reading)
      | some .blockMapping, true, _ =>
        let (members, reading) ← readBlockMembers handles fuel reading.next
        some (.mapping anchor? members, reading)
      | _, _, _ =>
        if anchor?.isSome || tag?.isSome then some (.scalar anchor? tag? .plain "", reading)
        else none

/-- Reads a node unless one of the given tokens comes next, where nothing is written. -/
def readNodeUnless (handles : TagHandles) (inBlock asValue : Bool) (stops : List Token) :
    Nat → Reading → Option (Node × Reading)
  | 0, _ => none
  | fuel + 1, reading =>
    if reading.isAt stops then some (.blank, reading)
    else readNode handles inBlock asValue fuel reading

/-- Reads the items of a list that is a block of its own. -/
def readBlockItems (handles : TagHandles) : Nat → Reading → Option (List Node × Reading)
  | 0, _ => none
  | fuel + 1, reading =>
    match reading.token? with
    | some .blockEntry => do
      let (item, reading) ←
        readNodeUnless handles true false [.blockEntry, .blockEnd] fuel reading.next
      let (items, reading) ← readBlockItems handles fuel reading
      some (item :: items, reading)
    | some .blockEnd => some ([], reading.next)
    | _ => none

/-- Reads the items of a list at the indentation of the key that it is the value of. -/
def readIndentlessItems (handles : TagHandles) : Nat → Reading → Option (List Node × Reading)
  | 0, _ => none
  | fuel + 1, reading =>
    match reading.token? with
    | some .blockEntry => do
      let (item, reading) ←
        readNodeUnless handles true false [.blockEntry, .key, .value, .blockEnd] fuel reading.next
      let (items, reading) ← readIndentlessItems handles fuel reading
      some (item :: items, reading)
    | _ => some ([], reading)

/-- Reads the keys and values of a block. -/
def readBlockMembers (handles : TagHandles) :
    Nat → Reading → Option (List (Node × Node) × Reading)
  | 0, _ => none
  | fuel + 1, reading =>
    match reading.token? with
    | some .key => do
      let (key, reading) ←
        readNodeUnless handles true true [.key, .value, .blockEnd] fuel reading.next
      let (value, reading) ← readBlockValue handles fuel reading
      let (members, reading) ← readBlockMembers handles fuel reading
      some ((key, value) :: members, reading)
    | some .blockEnd => some ([], reading.next)
    | _ => none

/-- Reads the value of a key in a block. -/
def readBlockValue (handles : TagHandles) : Nat → Reading → Option (Node × Reading)
  | 0, _ => none
  | fuel + 1, reading =>
    if reading.isAt [.value] then
      readNodeUnless handles true true [.key, .value, .blockEnd] fuel reading.next
    else some (.blank, reading)

/-- Reads the items of a list in brackets. An item that starts as a key is a mapping with
one member. -/
def readFlowItems (handles : TagHandles) : Nat → Bool → Reading → Option (List Node × Reading)
  | 0, _, _ => none
  | fuel + 1, first, reading =>
    if reading.isAt [.flowSequenceEnd] then some ([], reading.next)
    else do
      let reading ←
        if first then some reading
        else if reading.isAt [.flowEntry] then some reading.next
        else none
      if reading.isAt [.flowSequenceEnd] then some ([], reading.next)
      else
        let (item, reading) ←
          if reading.isAt [.key] then readFlowPair handles fuel reading.next
          else readNode handles false false fuel reading
        let (items, reading) ← readFlowItems handles fuel false reading
        some (item :: items, reading)

/-- Reads a mapping with one member, from behind the indicator of its key. Where the key
is missing, the token that comes in its place is passed over. -/
def readFlowPair (handles : TagHandles) : Nat → Reading → Option (Node × Reading)
  | 0, _ => none
  | fuel + 1, reading => do
    let (key, reading) ←
      if reading.isAt [.value, .flowEntry, .flowSequenceEnd] then some (.blank, reading.next)
      else readNode handles false false fuel reading
    let (value, reading) ←
      if reading.isAt [.value] then
        readNodeUnless handles false false [.flowEntry, .flowSequenceEnd] fuel reading.next
      else some (.blank, reading)
    some (.mapping none [(key, value)], reading)

/-- Reads the keys and values of a mapping in braces. -/
def readFlowMembers (handles : TagHandles) :
    Nat → Bool → Reading → Option (List (Node × Node) × Reading)
  | 0, _, _ => none
  | fuel + 1, first, reading =>
    if reading.isAt [.flowMappingEnd] then some ([], reading.next)
    else do
      let reading ←
        if first then some reading
        else if reading.isAt [.flowEntry] then some reading.next
        else none
      if reading.isAt [.flowMappingEnd] then some ([], reading.next)
      else
        let (member, reading) ←
          if reading.isAt [.key] then readFlowMember handles fuel reading.next
          else
            (readNode handles false false fuel reading).map fun (key, reading) =>
              ((key, Node.blank), reading)
        let (members, reading) ← readFlowMembers handles fuel false reading
        some (member :: members, reading)

/-- Reads a key and a value in braces, from behind the indicator of the key. -/
def readFlowMember (handles : TagHandles) : Nat → Reading → Option ((Node × Node) × Reading)
  | 0, _ => none
  | fuel + 1, reading => do
    let (key, reading) ←
      readNodeUnless handles false false [.value, .flowEntry, .flowMappingEnd] fuel reading
    let (value, reading) ←
      if reading.isAt [.value] then
        readNodeUnless handles false false [.flowEntry, .flowMappingEnd] fuel reading.next
      else some (.blank, reading)
    some ((key, value), reading)

end

/-! ### From tokens to documents -/

/-- The expansions that hold without a directive. -/
def standardHandles : TagHandles :=
  [("!", "!"), ("!!", "tag:yaml.org,2002:")]

/-- Reads the directives in front of a document: at most one version, which has to be 1.1
or 1.2, and at most one expansion of each handle. -/
def readDirectives : List Token → Bool → TagHandles → Option (TagHandles × List Token)
  | .version major minor :: rest, versioned, handles =>
    if !versioned && major = 1 && (minor = 1 || minor = 2) then
      readDirectives rest true handles
    else none
  | .tagHandle handle expansion :: rest, versioned, handles =>
    if (handles.lookup handle).isSome then none
    else readDirectives rest versioned (handles ++ [(handle, expansion)])
  | rest, _, handles => some (handles ++ standardHandles, rest)

/-- Whether a token belongs to what stands around documents. -/
def Token.isOutside : Token → Bool
  | .version _ _ => true
  | .tagHandle _ _ => true
  | .documentStart => true
  | .documentEnd => true
  | _ => false

/-- The fuel that suffices to read so many tokens: no part of a node calls for more than
four readers without passing over a token. -/
def readingFuel (tokens : List Token) : Nat :=
  4 * tokens.length + 4

/-- Reads the content of a document, which may be missing only behind a mark. -/
def readContent (handles : TagHandles) (marked : Bool) (tokens : List Token) :
    Option (Node × Reading) :=
  if marked && tokens.head?.all Token.isOutside then some (.blank, { tokens })
  else readNode handles true false (readingFuel tokens) { tokens }

/-- Reads the document of a list of tokens, if there is one, and checks that there is no
other. -/
def readDocument (tokens : List Token) : Option (Option Node) :=
  if tokens.isEmpty then some none
  else do
    let (node, reading) ←
      if tokens.head?.any fun token => token.isOutside && token != .documentEnd then do
        let (handles, rest) ← readDirectives tokens false []
        match rest with
        | .documentStart :: content => readContent handles true content
        | _ => none
      else readContent standardHandles false tokens
    if (reading.tokens.dropWhile (· == .documentEnd)).isEmpty then some (some node) else none

/-! ### References -/

mutual

/-- The anchored nodes in a node, in order of their starts. -/
def Node.anchored (node : Node) : List (Nat × Node) :=
  match node with
  | .scalar anchor? _ _ _ => (anchor?.map (·, node)).toList
  | .sequence anchor? items => (anchor?.map (·, node)).toList ++ anchoredItems items
  | .mapping anchor? members => (anchor?.map (·, node)).toList ++ anchoredMembers members
  | .reference _ => []

/-- The anchored nodes in several nodes. -/
def anchoredItems : List Node → List (Nat × Node)
  | [] => []
  | item :: items => item.anchored ++ anchoredItems items

/-- The anchored nodes in several keys and values. -/
def anchoredMembers : List (Node × Node) → List (Nat × Node)
  | [] => []
  | (key, value) :: members => key.anchored ++ value.anchored ++ anchoredMembers members

end

/-- A document: its root, absent in an empty text, and its anchored nodes. -/
structure Document where
  /-- The root of the document. -/
  root? : Option Node
  /-- The anchored nodes, last first. -/
  anchored : List (Nat × Node)
deriving Inhabited

/-- The node that a node stands for: itself, or the one that it refers to. -/
def Document.resolve (document : Document) (node : Node) : Node :=
  match node with
  | .reference anchor => (document.anchored.lookup anchor).getD node
  | _ => node

/-- The document of a text. -/
def document? (text : String) : Option Document := do
  let root? ← readDocument (← tokens? text.toList)
  some ⟨root?, ((root?.map Node.anchored).getD []).reverse⟩

end Unreferenced.Yaml
