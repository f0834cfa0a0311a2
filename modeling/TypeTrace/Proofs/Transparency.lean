import TypeTrace.Proofs.Balance
import TypeTrace.Proofs.Stateful

/-! # Hooks that do not look at the context

A visitor is given by its hooks, some for all nodes and some for nodes of one kind. A walk may call
them itself, or an observer may call them within a type context. As long as they do not look at the
context the two are the same walk: each makes the same calls in the same order, gets the same
answers, comes to the same document or the same refusal, and hands back the same when it is stopped.
-/

namespace TypeTrace

variable {σ : Type}

/-- A hook of a visitor that does not look at the context. -/
abbrev Hook (σ : Type) := Node → σ → Reply × σ

/-- The hooks of a visitor: for a moment, and for a moment at nodes of one kind. -/
structure Hooks (σ : Type) where
  general : Event → Option (Hook σ)
  special : Event → Kind → Option (Hook σ)

namespace Hooks

/-- The hook for a moment at nodes of a kind. One for the kind takes the place of a general one. -/
def hook? (hooks : Hooks σ) (event : Event) (kind : Kind) : Option (Hook σ) :=
  (hooks.special event kind).or (hooks.general event)

/-- Calls the hook for a node. Where there is none the walk proceeds. -/
def call (hooks : Hooks σ) (event : Event) (node : Node) (s : σ) : Reply × σ :=
  match hooks.hook? event node.kind with
  | some hook => hook node s
  | none => (.proceed, s)

def ask {ε : Type} (hooks : Hooks σ) (event : Event) (node : Node) : EStateM ε σ Reply := fun s =>
  let (reply, t) := hooks.call event node s
  .ok reply t

/-- The visitor that has the hooks. -/
def visitor {ε : Type} (hooks : Hooks σ) : Visitor ε σ where
  enter := hooks.ask .enter
  leave := hooks.ask .leave

/-- The observer that calls the hooks. -/
def observer (hooks : Hooks σ) : Observer σ where
  enter node _ := hooks.call .enter node
  leave node _ := hooks.call .leave node

/-- A call of a hook, with its answer. -/
structure Called where
  event : Event
  node : Node
  reply : Reply

def record (event : Event) (hook : Hook σ) : Hook (σ × List Called) := fun node (s, calls) =>
  let (reply, t) := hook node s
  (reply, t, calls ++ [⟨event, node, reply⟩])

/-- The same hooks, which keep a record of their calls. -/
def recorded (hooks : Hooks σ) : Hooks (σ × List Called) where
  general event := (hooks.general event).map (record event)
  special event kind := (hooks.special event kind).map (record event)

/-- What a visit hands back to its caller. -/
inductive Returned (β : Type) where
  | document (edited : Option Node)
  | early (value : β)
  | refused
  | unfinished

/-- What is handed back for an outcome. A visit that is stopped on the way hands back something of what
it has by then. Which part of it is left to `rule`, but all that there is to go by are the document
and the answers so far. -/
def Returned.ofOutcome {β : Type} (rule : Node → List Called → β) (document : Node)
    (calls : List Called) : Walk.Outcome → Returned β
  | .finished edited => .document edited
  | .stopped => .early (rule document calls)
  | .refused => .refused
  | .unfinished => .unfinished

/-- What the visit hands back that calls the hooks itself. -/
def returned {β : Type} (hooks : Hooks σ) (rule : Node → List Called → β) (limit : Nat)
    (document : Node) (s : σ) : Option (Returned β) :=
  match Walk.run (hooks.recorded.visitor (ε := Underflow)) limit document (s, []) with
  | .ok outcome (_, calls) => some (.ofOutcome rule document calls outcome)
  | .error .. => none

/-- What the visit hands back that calls the hooks within a type context. -/
def returnedWithin {β : Type} (hooks : Hooks σ) (schema : Schema) (lookup : FieldLookup)
    (rule : Node → List Called → β) (limit : Nat) (document : Node) (s : σ) : Option (Returned β) :=
  match hooks.recorded.observer.run schema lookup limit document (s, []) with
  | .ok outcome (_, _, calls) => some (.ofOutcome rule document calls outcome)
  | .error .. => none

/-! ## With a context and without -/

/-- What comes of a computation within a context comes of the other one without. -/
def Sheds (α : Type) (x : EStateM Underflow (Observer.State σ) α) (y : EStateM Underflow σ α) :
    Prop :=
  ∀ c s a d t, x (c, s) = .ok a (d, t) → y s = .ok a t

theorem parametric_sheds : Walk.Parametric (Sheds (σ := σ)) where
  pure a := by
    intro c s b d t h
    cases h
    rfl
  bind := by
    intro α β x y f g hxy hnext c s b d t h
    obtain ⟨a, ⟨c', s'⟩, hx, hf⟩ := Stateful.exists_of_bind_eq_ok h
    rw [Stateful.bind_ok (hxy c s a c' s' hx)]
    exact hnext a c' s' b d t hf

variable {schema : Schema} {lookup : FieldLookup}

theorem sheds_enter (hooks : Hooks σ) (node : Node) :
    Sheds Reply ((hooks.observer.visitor schema lookup).enter node)
      (hooks.visitor.enter node) := by
  intro c s reply d t h
  have hcall : hooks.observer.answer ⟨.enter, node, c.enter schema lookup node⟩ s =
      ((hooks.call .enter node s).1, (hooks.call .enter node s).2) := rfl
  rw [Observer.visitor_enter hcall] at h
  cases h
  rfl

theorem sheds_leave (hooks : Hooks σ) (node : Node) :
    Sheds Reply ((hooks.observer.visitor schema lookup).leave node)
      (hooks.visitor.leave node) := by
  intro c s reply d t h
  rw [Observer.visitor_leave_eq] at h
  split at h
  · cases h
    rfl
  · cases h

/-- What comes of a walk within a context comes of the walk that calls the hooks itself. -/
theorem run_visitor {hooks : Hooks σ} {limit : Nat} {document : Node} {s t : σ}
    {outcome : Walk.Outcome} {c : TypeContext}
    (h : hooks.observer.run schema lookup limit document s = .ok outcome (c, t)) :
    Walk.run (hooks.visitor (ε := Underflow)) limit document s = .ok outcome t :=
  parametric_sheds.run (sheds_enter hooks) (sheds_leave hooks) limit document _ _ _ _ _ h

/-! ## With a record and without -/

theorem call_recorded (hooks : Hooks σ) (event : Event) (node : Node) (s : σ)
    (calls : List Called) :
    ∃ more, hooks.recorded.call event node (s, calls) =
      ((hooks.call event node s).1, (hooks.call event node s).2, calls ++ more) := by
  have hhook : hooks.recorded.hook? event node.kind =
      (hooks.hook? event node.kind).map (record event) :=
    Option.map_or.symm
  unfold call
  rw [hhook]
  cases hooks.hook? event node.kind with
  | none => exact ⟨[], by simp⟩
  | some hook => exact ⟨[⟨event, node, (hook node s).1⟩], rfl⟩

/-- To keep a record of the calls changes nothing about a walk. -/
theorem alike_recorded (hooks : Hooks σ) :
    Walk.AlikeVisitors (fun s t => t.1 = s) (hooks.visitor (ε := Underflow))
      hooks.recorded.visitor := by
  have hask (event : Event) (node : Node) :
      Walk.Alike (ε := Underflow) (fun s t => t.1 = s) (hooks.ask event node)
        (hooks.recorded.ask event node) := by
    rintro _ ⟨s, calls⟩ rfl
    obtain ⟨more, hmore⟩ := call_recorded hooks event node s calls
    unfold ask
    rw [hmore]
    exact .ok _ rfl
  exact ⟨hask .enter, hask .leave⟩

theorem run_of_recorded {hooks : Hooks σ} {limit : Nat} {document : Node} {s t : σ}
    {outcome : Walk.Outcome} {calls calls' : List Called}
    (h : Walk.run (hooks.recorded.visitor (ε := Underflow)) limit document (s, calls) =
      .ok outcome (t, calls')) :
    Walk.run (hooks.visitor (ε := Underflow)) limit document s = .ok outcome t := by
  have halike := (alike_recorded hooks).run limit document s (s, calls) rfl
  rw [h] at halike
  generalize Walk.run (hooks.visitor (ε := Underflow)) limit document s = result at halike ⊢
  cases halike with
  | ok _ hstate => rw [← hstate]

end Hooks

/-- A walk within a context never finds a stack empty. -/
theorem Observer.exists_run (observer : Observer σ) (schema : Schema) (lookup : FieldLookup)
    (limit : Nat) (document : Node) (s : σ) :
    ∃ outcome c t, observer.run schema lookup limit document s = .ok outcome (c, t) := by
  have hsteady : Steady [] .empty [] .empty Walk.Outcome.ending
      (Walk.run (observer.watched schema lookup) limit document) :=
    .run limit document .empty
  obtain ⟨outcome, c, t, log, hwatched, -⟩ := hsteady s []
  exact ⟨outcome, c, t, observer.run_of_watched hwatched⟩

/-- Whatever hooks there are and whatever they answer, a walk that calls them itself and a walk within
a context make the same calls on the same nodes in the same order and come to the same outcome: the
document as edited, the refusal of its root, a stop, or replacements that nest too deep. They hand back
the same too, by whatever rule a visit that is stopped picks what it hands back. -/
theorem Hooks.observed_alike (hooks : Hooks σ) (schema : Schema) (lookup : FieldLookup)
    (limit : Nat) (document : Node) (s : σ) :
    ∃ outcome t calls c,
      Walk.run (hooks.recorded.visitor (ε := Underflow)) limit document (s, []) =
        .ok outcome (t, calls) ∧
      hooks.recorded.observer.run schema lookup limit document (s, []) =
        .ok outcome (c, t, calls) ∧
      Walk.run (hooks.visitor (ε := Underflow)) limit document s = .ok outcome t ∧
      (∃ c', hooks.observer.run schema lookup limit document s = .ok outcome (c', t)) ∧
      ∀ (β : Type) (rule : Node → List Called → β),
        hooks.returned rule limit document s =
          some (.ofOutcome rule document calls outcome) ∧
        hooks.returnedWithin schema lookup rule limit document s =
          hooks.returned rule limit document s := by
  obtain ⟨outcome, c, ⟨t, calls⟩, hobserved⟩ :=
    hooks.recorded.observer.exists_run schema lookup limit document (s, [])
  obtain ⟨outcome', c', t', hplain⟩ :=
    hooks.observer.exists_run schema lookup limit document s
  have hrecorded := run_visitor hobserved
  have hdirect := run_of_recorded hrecorded
  have hsame := (run_visitor hplain).symm.trans hdirect
  cases hsame
  refine ⟨outcome, t, calls, c, hrecorded, hobserved, hdirect, ⟨c', hplain⟩, fun β rule => ?_⟩
  rw [returnedWithin, returned, hrecorded, hobserved]
  exact ⟨rfl, rfl⟩

end TypeTrace
