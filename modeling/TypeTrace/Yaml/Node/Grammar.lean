import TypeTrace.Yaml.Node
import TypeTrace.Yaml.Token.Lexer

/-!
# From YAML tokens to a tree

A reader of tokens knows the nodes that have anchors and the handles of tags. Within block and flow
collections what is missing is an empty scalar. A text may hold one document, or none.
-/

namespace TypeTrace.Yaml

/-- What a reader of tokens has before it, and what it knows: the nodes with anchors, each with the
place where it began, and what the handles of tags stand for. -/
structure NodeReader where
  input : TokenRun
  anchors : List (String × Node)
  handles : List (String × String)

namespace NodeReader

abbrev Step := StateT NodeReader (Except Fault)

def fail {α : Type} (context : Option (Context × Option Mark)) (problem : Problem) (mark : Mark) :
    Step α :=
  throw (.malformed (.wrong context problem mark))

def peek : Step Token := do
  let r ← get
  match r.input.tokens, r.input.fault with
  | token :: _, _ => return token
  | [], some fault => throw fault
  | [], none => return ⟨.streamEnd, Mark.start⟩

def take : Step Token := do
  let token ← peek
  modify fun r => { r with input := { r.input with tokens := r.input.tokens.tail } }
  return token

def sees (p : TokenSort → Bool) : Step Bool := return p (← peek).sort

/-- A key, a value, or the end of a block collection: behind a key or a value, they show that a node
is missing. -/
def endsEntry : TokenSort → Bool
  | .key _ | .value | .blockEnd => true
  | _ => false

/-- What ends an item of a block sequence that is not there. -/
def endsItem : TokenSort → Bool
  | .blockEntry | .blockEnd => true
  | _ => false

/-- What ends an item of a sequence that is indented no more than its mapping. -/
def endsBareItem (s : TokenSort) : Bool := s == .blockEntry || endsEntry s

def isKey : TokenSort → Bool
  | .key _ => true
  | _ => false

def empty (mark : Mark) : Node := .scalar .null mark ""

def standardHandles : List (String × String) := [("!", "!"), ("!!", Tag.stem)]

/-- What stands in front of a node: an anchor and a tag, in any order, and where the first of them and
the tag begin. -/
structure Properties where
  anchor : Option String
  tag : Option (Option String × String)
  start : Option Mark
  tagMark : Option Mark

def anchor? : Step (Option (String × Mark)) := do
  let token ← peek
  match token.sort with
  | .anchor name => do
    let _ ← take
    return some (name, token.mark)
  | _ => return none

def tag? : Step (Option ((Option String × String) × Mark)) := do
  let token ← peek
  match token.sort with
  | .tag handle suffix => do
    let _ ← take
    return some ((handle, suffix), token.mark)
  | _ => return none

def properties : Step Properties := do
  match ← anchor? with
  | some (name, start) =>
    let tag ← tag?
    return ⟨some name, tag.map (·.1), some start, tag.map (·.2)⟩
  | none =>
    match ← tag? with
    | some (tag, start) =>
      let anchor ← anchor?
      return ⟨anchor.map (·.1), some tag, some start, some start⟩
    | none => return ⟨none, none, none, none⟩

/-- The name of a tag, with its handle replaced by what that stands for. -/
def tagName (p : Properties) : Step (Option String) := do
  match p.tag with
  | none => return none
  | some (none, suffix) => return some suffix
  | some (some handle, suffix) =>
    match (← get).handles.lookup handle with
    | some stem => return some (stem ++ suffix)
    | none =>
      fail (some (.node, p.start)) (.unknownHandle handle) (p.tagMark.getD Mark.start)

/-- The tag of a node: the one that is written unless it is a lone exclamation mark, or else one by its
form. -/
def tagOr (name : Option String) (form : Tag) : Tag :=
  match name with
  | some name => if name = "!" then form else Tag.ofName name
  | none => form

/-- The tag of a scalar. Its form decides if it has no quotes and no tag, or a lone exclamation
mark. -/
def scalarTag (name : Option String) (plain : Bool) (text : String) : Tag :=
  if name = some "!" ∨ (name = none ∧ plain) then Tag.implicit text
  else tagOr name .str

def checkAnchor (anchor : Option String) (start : Mark) : Step Unit := do
  match anchor with
  | none => pure ()
  | some name =>
    match (← get).anchors.lookup name with
    | some first => fail (some (.firstAnchor name, some first.mark)) .secondAnchor start
    | none => pure ()

def bind (anchor : Option String) (node : Node) : Step Unit :=
  match anchor with
  | some name => modify fun r => { r with anchors := (name, node) :: r.anchors }
  | none => pure ()

def simple (anchor : Option String) (node : Node) : Step Node := do
  checkAnchor anchor node.mark
  bind anchor node
  return node

def aliased (name : String) (mark : Mark) : Step Node := do
  match (← get).anchors.lookup name with
  | some node => return node
  | none => fail none (.unknownAlias name) mark

/-- A collection. While it is read, its anchor stands for a loop. -/
def collection (anchor : Option String) (sort : NodeSort) (tag : Tag) (start : Mark) (inside : Step Node) :
    Step Node := do
  checkAnchor anchor start
  bind anchor (.loop sort tag start)
  let node ← inside
  bind anchor node
  return node

mutual

/-- Reads a node. Block collections are admitted by `block`, and by `bare` sequences that have no
indentation of their own. -/
def node (block bare : Bool) : (fuel : Nat) → Step Node
  | 0 => do fail none .endOfText (← peek).mark
  | fuel + 1 => do
    let token ← peek
    match token.sort with
    | .alias name =>
      let _ ← take
      aliased name token.mark
    | _ =>
      let p ← properties
      let name ← tagName p
      let token ← peek
      let start := p.start.getD token.mark
      let sequence (inside : Step (List Node)) : Step Node :=
        let tag := tagOr name .seq
        collection p.anchor .sequence tag start (do return .sequence tag start (← inside))
      let mapping (inside : Step (List (Node × Node))) : Step Node :=
        let tag := tagOr name .map
        collection p.anchor .mapping tag start (do return .mapping tag start (← inside))
      match token.sort, block, bare with
      | .blockEntry, _, true => sequence (bareItems [] fuel)
      | .scalar plain text, _, _ =>
        let _ ← take
        simple p.anchor (.scalar (scalarTag name plain text) start text)
      | .flowSequenceStart, _, _ => sequence (do let t ← take; flowItems t.mark true [] fuel)
      | .flowMappingStart, _, _ => mapping (do let t ← take; flowEntries t.mark true [] fuel)
      | .blockSequenceStart, true, _ => sequence (do let t ← take; blockItems t.mark [] fuel)
      | .blockMappingStart, true, _ => mapping (do let t ← take; blockEntries t.mark [] fuel)
      | sort, _, _ =>
        if p.start.isSome then simple p.anchor (.scalar (scalarTag name true "") start "")
        else
          fail (some (if block then .blockNode else .flowNode, some start)) (.noContent sort.text)
            token.mark

/-- Reads the items of a block sequence that began at `start`; `read` holds, last first, those read
already. -/
def blockItems (start : Mark) (read : List Node) : (fuel : Nat) → Step (List Node)
  | 0 => do fail none .endOfText (← peek).mark
  | fuel + 1 => do
    let token ← peek
    if token.sort = .blockEntry then
      let _ ← take
      let item ← if ← sees endsItem then pure (empty token.behind) else node true false fuel
      blockItems start (item :: read) fuel
    else if token.sort = .blockEnd then
      let _ ← take
      return read.reverse
    else fail (some (.blockCollection, some start)) (.noBlockEnd token.sort.text) token.mark

def bareItems (read : List Node) : (fuel : Nat) → Step (List Node)
  | 0 => do fail none .endOfText (← peek).mark
  | fuel + 1 => do
    let token ← peek
    if token.sort = .blockEntry then
      let _ ← take
      let item ← if ← sees endsBareItem then pure (empty token.behind) else node true false fuel
      bareItems (item :: read) fuel
    else return read.reverse

def blockEntries (start : Mark) (read : List (Node × Node)) :
    (fuel : Nat) → Step (List (Node × Node))
  | 0 => do fail none .endOfText (← peek).mark
  | fuel + 1 => do
    let token ← peek
    if isKey token.sort then
      let _ ← take
      let key ← if ← sees endsEntry then pure (empty token.behind) else node true true fuel
      let value ← blockValue fuel
      blockEntries start ((key, value) :: read) fuel
    else if token.sort = .blockEnd then
      let _ ← take
      return read.reverse
    else fail (some (.blockMapping, some start)) (.noBlockEnd token.sort.text) token.mark

def blockValue : (fuel : Nat) → Step Node
  | 0 => do fail none .endOfText (← peek).mark
  | fuel + 1 => do
    let token ← peek
    if token.sort = .value then
      let _ ← take
      if ← sees endsEntry then return empty token.behind else node true true fuel
    else return empty token.mark

/-- Reads the items of a flow sequence that began at `start`. An item that is a key, with or without a
value, is a mapping of one entry. -/
def flowItems (start : Mark) (first : Bool) (read : List Node) : (fuel : Nat) → Step (List Node)
  | 0 => do fail none .endOfText (← peek).mark
  | fuel + 1 => do
    if (← peek).sort = .flowSequenceEnd then
      let _ ← take
      return read.reverse
    if !first then
      let token ← peek
      if token.sort = .flowEntry then
        let _ ← take
      else fail (some (.flowSequence, some start)) (.noSequenceEnd token.sort.text) token.mark
    let token ← peek
    if isKey token.sort then
      let _ ← take
      let stops (s : TokenSort) : Bool := s == .flowEntry || s == .flowSequenceEnd
      let key ← if ← sees fun s => s == .value || stops s then pure (empty token.behind)
        else node false false fuel
      let value ← flowValue stops fuel
      flowItems start false (.mapping .map token.mark [(key, value)] :: read) fuel
    else if token.sort = .flowSequenceEnd then
      let _ ← take
      return read.reverse
    else
      let item ← node false false fuel
      flowItems start false (item :: read) fuel

/-- Reads the value of a key within a flow collection, of which `stops` are the next tokens. -/
def flowValue (stops : TokenSort → Bool) : (fuel : Nat) → Step Node
  | 0 => do fail none .endOfText (← peek).mark
  | fuel + 1 => do
    let token ← peek
    if token.sort = .value then
      let _ ← take
      if ← sees stops then return empty token.behind else node false false fuel
    else return empty token.mark

def flowEntries (start : Mark) (first : Bool) (read : List (Node × Node)) :
    (fuel : Nat) → Step (List (Node × Node))
  | 0 => do fail none .endOfText (← peek).mark
  | fuel + 1 => do
    if (← peek).sort = .flowMappingEnd then
      let _ ← take
      return read.reverse
    if !first then
      let token ← peek
      if token.sort = .flowEntry then
        let _ ← take
      else fail (some (.flowMapping, some start)) (.noMappingEnd token.sort.text) token.mark
    let token ← peek
    let stops (s : TokenSort) : Bool := s == .flowEntry || s == .flowMappingEnd
    if isKey token.sort then
      let _ ← take
      let key ← if ← sees fun s => s == .value || stops s then pure (empty token.behind)
        else node false false fuel
      let value ← flowValue stops fuel
      flowEntries start false ((key, value) :: read) fuel
    else if token.sort = .flowMappingEnd then
      let _ ← take
      return read.reverse
    else
      let key ← node false false fuel
      let value := empty (← peek).mark
      flowEntries start false ((key, value) :: read) fuel

end

/-! ### Documents -/

/-- Takes a directive in. `version` says whether the version has been given already. -/
def declare (directive : Directive) (mark : Mark) (version : Bool) : Step Bool := do
  match directive with
  | .version major _ =>
    if version then fail none .repeatedVersion mark
    if major ≠ 1 then fail none .otherVersion mark
    return true
  | .tag handle stem =>
    if ((← get).handles.lookup handle).isSome then fail none (.repeatedHandle handle) mark
    modify fun r => { r with handles := (handle, stem) :: r.handles }
    return version
  | .other _ => return version

def directives (version : Bool) : (fuel : Nat) → Step Unit
  | 0 => pure ()
  | fuel + 1 => do
    let token ← peek
    match token.sort with
    | .directive directive =>
      let _ ← take
      directives (← declare directive token.mark version) fuel
    | _ => pure ()

def skipEnds : (fuel : Nat) → Step Unit
  | 0 => pure ()
  | fuel + 1 => do
    if (← peek).sort = .documentEnd then
      let _ ← take
      skipEnds fuel

/-- Reads the beginning of a document that has one, and says where it is. -/
def explicitStart (fuel : Nat) : Step (Option Mark) := do
  skipEnds fuel
  let first ← peek
  if first.sort = .streamEnd then return none
  modify fun r => { r with handles := [] }
  directives false fuel
  modify fun r =>
    { r with handles := r.handles ++ standardHandles.filter fun (h, _) => (r.handles.lookup h).isNone }
  let token ← peek
  if token.sort ≠ .documentStart then fail none (.noDocumentStart token.sort.text) token.mark
  let _ ← take
  return some first.mark

def endsDocument : TokenSort → Bool
  | .directive _ | .documentStart | .documentEnd | .streamEnd => true
  | _ => false

def needsStart : TokenSort → Bool
  | .directive _ | .documentStart | .streamEnd => true
  | _ => false

def document (fuel : Nat) : Step (Option Node) := do
  let root ← do
    if ← sees needsStart then
      match ← explicitStart fuel with
      | none => pure none
      | some _ =>
        let token ← peek
        if endsDocument token.sort then pure (some (empty token.mark))
        else some <$> node true false fuel
    else some <$> node true false fuel
  match root with
  | none => return none
  | some root =>
    if (← peek).sort = .documentEnd then
      let _ ← take
    match ← explicitStart fuel with
    | none => return some root
    | some second => fail (some (.singleDocument, some root.mark)) .secondDocument second

end NodeReader

def Node.ofText? (text : String) : Except Fault (Option Node) := do
  let run := TokenRun.ofText text
  let reader : NodeReader := ⟨run, [], NodeReader.standardHandles⟩
  return (← (NodeReader.document (4 * run.tokens.length + 8)) reader).1

end TypeTrace.Yaml
