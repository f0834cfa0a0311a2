import TypeTrace.Yaml.Node.Grammar
import TypeTrace.Yaml.Value.Scalar

/-!
# From trees to values

Every node gets its value. A tree can be wrong in several places; then the fault that counts is the
first of those that lie in the fewest collections.
-/

namespace TypeTrace.Yaml

/-- A value, and all faults met on the way with the number of collections that each of them lies in. The
value means something if there are no faults. -/
structure Built (α : Type) where
  value : α
  faults : List (Nat × Fault)

namespace Built

variable {α β γ : Type}

def pure (a : α) : Built α := ⟨a, []⟩

def fault (a : α) (level : Nat) (context : Option (Context × Option Mark)) (problem : Problem)
    (mark : Mark) : Built α :=
  ⟨a, [(level, .malformed (.wrong context problem mark))]⟩

def map (f : α → β) (a : Built α) : Built β := ⟨f a.value, a.faults⟩

def both (f : α → β → γ) (a : Built α) (b : Built β) : Built γ :=
  ⟨f a.value b.value, a.faults ++ b.faults⟩

/-- The value, or the fault that counts: the first of those in the fewest collections. -/
def result (a : Built α) : Except Fault α :=
  match (a.faults.map (·.1)).min? with
  | none => .ok a.value
  | some level =>
    match a.faults.find? fun (l, _) => l = level with
    | some (_, fault) => .error fault
    | none => .ok a.value

end Built

namespace Node

def otherSort (node : Node) (wanted : NodeSort) (level : Nat) : Built Value :=
  .fault .null level none (.otherSort wanted.text node.sort.text) node.mark

/-- The text under a tag for scalars: the node's own, or in a mapping that of the entry for the
mapping's own value. -/
def scalarText? : Node → Option String
  | scalar _ _ text => some text
  | mapping _ _ entries => ofEntries entries
  | _ => none
where
  /-- The text of the first entry for a mapping's own value. -/
  ofEntries : List (Node × Node) → Option String
    | [] => none
    | (key, value) :: entries => if key.tag = .value then scalarText? value else ofEntries entries

def builtScalar (level : Nat) (tag : Tag) (node : Node) : Built Value :=
  match tag with
  | .null | .bool | .int | .float | .timestamp | .binary | .str =>
    match node.scalarText? with
    | none => node.otherSort .scalar level
    | some text =>
      match Value.scalarOf tag node.mark text with
      | .ok value => .pure value
      | .error fault => ⟨.null, [(level, fault)]⟩
  | other => .fault .null level none (.unknownTag other.name) node.mark

def isCollection : Tag → Bool
  | .seq | .map | .set | .omap | .pairs => true
  | _ => false

def builtEntry (level : Nat) (start : Mark) (key : Node) (keyValue value : Built Value) :
    Built (List (Value × Value)) :=
  if isCollection key.tag then
    .fault [] level (some (.mapping, some start)) .unhashableKey key.mark
  else .both (fun k v => [(k, v)]) keyValue value

/-- The entries of a mapping: those that are merged into it and its own, and what is wrong with the
merging itself, which is noticed before anything else. -/
structure BuiltEntries where
  mergeFaults : List (Nat × Fault)
  merged : Built (List (Value × Value))
  own : Built (List (Value × Value))

namespace BuiltEntries

def none : BuiltEntries := ⟨[], .pure [], .pure []⟩

/-- The entries all together. Merged ones come first, so that all others win over them. -/
def all (e : BuiltEntries) : Built (List (Value × Value)) :=
  ⟨e.merged.value ++ e.own.value, e.mergeFaults ++ e.merged.faults ++ e.own.faults⟩

def ownBefore (entry : Built (List (Value × Value))) (e : BuiltEntries) : BuiltEntries :=
  { e with own := .both (· ++ ·) entry e.own }

def mergeBefore (other e : BuiltEntries) : BuiltEntries :=
  { e with
    mergeFaults := other.mergeFaults ++ e.mergeFaults
    merged := .both (· ++ ·) (.both (· ++ ·) other.merged other.own) e.merged }

def mergeBehind (other e : BuiltEntries) : BuiltEntries :=
  { e with
    mergeFaults := other.mergeFaults ++ e.mergeFaults
    merged := .both (· ++ ·) e.merged (.both (· ++ ·) other.merged other.own) }

def fault (level : Nat) (start : Mark) (problem : Problem) (mark : Mark) : BuiltEntries :=
  { none with mergeFaults := [(level, .malformed (.wrong (some (.mapping, some start)) problem mark))] }

end BuiltEntries

mutual

/-- The value of a node that lies in `level` collections. -/
def built (level : Nat) (node : Node) : Built Value :=
  match node with
  | .sequence tag mark items =>
    match tag with
    | .seq => (builtItems (level + 1) items).map .list
    | .omap => (builtPairs (level + 1) .orderedMap mark items).map .pairs
    | .pairs => (builtPairs (level + 1) .pairs mark items).map .pairs
    | .map | .set => otherSort (.sequence tag mark []) .mapping (level + 1)
    | tag => builtScalar level tag (.sequence tag mark [])
  | .mapping tag mark entries =>
    match tag with
    | .map => (builtEntries (level + 1) mark mark entries).all.map fun es => .mapping (Value.ofEntries es)
    | .set =>
      (builtEntries (level + 1) mark mark entries).all.map fun es => .set ((Value.ofEntries es).map (·.1))
    | .seq => otherSort (.mapping tag mark []) .sequence (level + 1)
    | .omap =>
      .fault .null (level + 1) (some (.orderedMap, some mark)) (.noSequence NodeSort.mapping.text) mark
    | .pairs =>
      .fault .null (level + 1) (some (.pairs, some mark)) (.noSequence NodeSort.mapping.text) mark
    | tag => builtScalar level tag (.mapping tag mark entries)
  | .scalar tag mark text =>
    match tag with
    | .seq => otherSort (.scalar tag mark text) .sequence (level + 1)
    | .map | .set => otherSort (.scalar tag mark text) .mapping (level + 1)
    | .omap =>
      .fault .null (level + 1) (some (.orderedMap, some mark)) (.noSequence NodeSort.scalar.text) mark
    | .pairs =>
      .fault .null (level + 1) (some (.pairs, some mark)) (.noSequence NodeSort.scalar.text) mark
    | tag => builtScalar level tag (.scalar tag mark text)
  | .loop .. => .pure .loop

def builtItems (level : Nat) : List Node → Built (List Value)
  | [] => .pure []
  | item :: items => .both (· :: ·) (built level item) (builtItems level items)

def builtPairs (level : Nat) (context : Context) (start : Mark) :
    List Node → Built (List (Value × Value))
  | [] => .pure []
  | item :: items =>
    let first : Built (List (Value × Value)) := match item with
      | .mapping _ _ [(key, value)] =>
        .both (fun k v => [(k, v)]) (built level key) (built level value)
      | .mapping _ mark entries =>
        .fault [] level (some (context, some start)) (.itemCount entries.length) mark
      | other =>
        .fault [] level (some (context, some start)) (.noSingleItem other.sort.text) other.mark
    .both (· ++ ·) first (builtPairs level context start items)

/-- The entries of a mapping that begins at `start`, as entries of the mapping that begins at `owner`:
of itself or of one that it is merged into. -/
def builtEntries (level : Nat) (owner start : Mark) : List (Node × Node) → BuiltEntries
  | [] => .none
  | (key, value) :: entries =>
    let others := builtEntries level owner start entries
    if key.tag = .merge then (merged level owner start value).mergeBefore others
    else
      let keyValue := if key.tag = .value then builtScalar level .str key else built level key
      others.ownBefore (builtEntry level owner key keyValue (built level value))

/-- The entries that a node merges into a mapping that begins at `start`: those of a mapping, or those
of the mappings of a sequence. -/
def merged (level : Nat) (owner start : Mark) : Node → BuiltEntries
  | .mapping _ mark entries => builtEntries level owner mark entries
  | .sequence _ _ items => mergedItems level owner start items
  | .loop .mapping .. => .none
  | .loop .sequence .. => .none
  | other => .fault level start (.mergedValue other.sort.text) other.mark

/-- The entries of the mappings of a sequence, the last mapping first, so that the first wins. -/
def mergedItems (level : Nat) (owner start : Mark) : List Node → BuiltEntries
  | [] => .none
  | item :: items =>
    let first : BuiltEntries := match item with
      | .mapping _ mark entries => builtEntries level owner mark entries
      | .loop .mapping .. => .none
      | other => .fault level start (.mergedItem other.sort.text) other.mark
    first.mergeBehind (mergedItems level owner start items)

end

end Node

/-- The value that a text means; a text without a document means nothing. -/
def Value.ofText (text : String) : Except Fault Value := do
  match ← Node.ofText? text with
  | none => return .null
  | some node => (node.built 0).result

end TypeTrace.Yaml
