import TypeTrace.Node

/-!
# Walking through a document

A walk goes through a tree depth first and asks a visitor at the beginning and at the end of every
node. The visitor may prune, edit, replace or stop. A node that is replaced at its beginning is
walked through in its new form, and the new form may be replaced below in turn: since a visitor can
go on like that for ever, a walk has a limit on how deep replacements may nest.
-/

namespace TypeTrace

inductive Event where
  | enter | leave
deriving DecidableEq, Inhabited

def Event.text : Event → String
  | .enter => "enter"
  | .leave => "leave"

/-- What a visitor answers: nothing in particular, to pass over what is below, to remove the node,
to stop the walk, or to put another node in its place. -/
inductive Reply where
  | proceed | skip | remove | stop
  | replace (node : Node)

/-- A visitor with a state. What it is asked at the end of a node is the node as edited. -/
structure Visitor (ε σ : Type) where
  enter : Node → EStateM ε σ Reply
  leave : Node → EStateM ε σ Reply

namespace Walk

/-- What has become of a node once the walk has passed it. -/
inductive Passage where
  | present (node : Node)
  | removed
  | stopped
  | unfinished

inductive Below where
  | done (children : Forest)
  | stopped
  | unfinished

/-- What has become of the document: an edited document, which is absent if its root was removed
at its end; or the walk was stopped; or the visitor refused the root at its beginning, where there
is nothing to go on with; or replacements nested too deep. -/
inductive Outcome where
  | finished (document : Option Node)
  | stopped
  | refused
  | unfinished

variable {ε σ : Type}

/-- The end of a node whose children have been walked through. To skip at the end means to forget
the edits made below. -/
def finish (visitor : Visitor ε σ) (node : Node) : Below → EStateM ε σ Passage
  | .stopped => return .stopped
  | .unfinished => return .unfinished
  | .done children => do
    let edited : Node := ⟨node.head, children⟩
    match ← visitor.leave edited with
    | .proceed => return .present edited
    | .skip => return .present node
    | .remove => return .removed
    | .stop => return .stopped
    | .replace other => return .present other

/-- Walks through trees in order. `into` walks through what is below a replacement. -/
def below (visitor : Visitor ε σ) (into : Node → EStateM ε σ Below) : Forest → EStateM ε σ Below
  | .nil => return .done .nil
  | .cons role head children rest => do
    let node : Node := ⟨head, children⟩
    let passage ← do
      match ← visitor.enter node with
      | .proceed => finish visitor node (← below visitor into children)
      | .skip => pure (Passage.present node)
      | .remove => pure Passage.removed
      | .stop => pure Passage.stopped
      | .replace other => finish visitor other (← into other)
    match passage with
    | .stopped => return .stopped
    | .unfinished => return .unfinished
    | .removed => below visitor into rest
    | .present node =>
      match ← below visitor into rest with
      | .done rest => return .done (rest.push role node)
      | other => return other

/-- Walks through what is below a node, with replacements nested up to a limit. -/
def inside (visitor : Visitor ε σ) : (limit : Nat) → Node → EStateM ε σ Below
  | 0, _ => return .unfinished
  | limit + 1, node => below visitor (inside visitor limit) node.children

def run (visitor : Visitor ε σ) (limit : Nat) (document : Node) : EStateM ε σ Outcome := do
  match ← visitor.enter document with
  | .proceed =>
    conclude (← finish visitor document (← below visitor (inside visitor limit) document.children))
  | .replace other => conclude (← finish visitor other (← inside visitor limit other))
  | .skip | .remove => return .refused
  | .stop => return .stopped
where
  /-- What has become of the document, from what has become of its root. -/
  conclude : Passage → EStateM ε σ Outcome
    | .present node => return .finished (some node)
    | .removed => return .finished none
    | .stopped => return .stopped
    | .unfinished => return .unfinished

end Walk

end TypeTrace
