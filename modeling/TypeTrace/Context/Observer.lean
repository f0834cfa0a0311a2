import TypeTrace.Context
import TypeTrace.Walk

/-!
# Observing a walk in its type context

An observer is a visitor that also sees the type context. The context is brought up to date before
the observer is asked at a node's beginning and after it is asked at the node's end. Where the
observer prunes, stops or replaces at the beginning, the context leaves the node at once, and
enters the replacement if there is one, so that it stays in step with the walk.
-/

namespace TypeTrace

/-- A visitor with a state of its own that sees the type context. -/
structure Observer (σ : Type) where
  enter : Node → TypeContext → σ → Reply × σ
  leave : Node → TypeContext → σ → Reply × σ

namespace Observer

variable {σ : Type}

abbrev State (σ : Type) := TypeContext × σ

def onContext (change : TypeContext.Change Unit) : EStateM Underflow (State σ) Unit :=
  fun (c, s) =>
    match change c with
    | .ok _ c => .ok () (c, s)
    | .error fault c => .error fault (c, s)

def ask (hook : Node → TypeContext → σ → Reply × σ) (node : Node) :
    EStateM Underflow (State σ) Reply :=
  fun (c, s) =>
    let (reply, s) := hook node c s
    .ok reply (c, s)

def visitor (observer : Observer σ) (schema : Schema) (lookup : FieldLookup) :
    Visitor Underflow (State σ) where
  enter node := do
    onContext (modify (TypeContext.enter schema lookup node))
    let reply ← ask observer.enter node
    match reply with
    | .proceed => pure ()
    | .replace other =>
      onContext (TypeContext.leave node.kind)
      onContext (modify (TypeContext.enter schema lookup other))
    | _ => onContext (TypeContext.leave node.kind)
    return reply
  leave node := do
    let reply ← ask observer.leave node
    onContext (TypeContext.leave node.kind)
    return reply

/-- Walks through a document with an observer, from an empty context. -/
def run (observer : Observer σ) (schema : Schema) (lookup : FieldLookup) (limit : Nat)
    (document : Node) (s : σ) : EStateM.Result Underflow (State σ) Walk.Outcome :=
  Walk.run (observer.visitor schema lookup) limit document (TypeContext.empty, s)

end Observer

end TypeTrace
