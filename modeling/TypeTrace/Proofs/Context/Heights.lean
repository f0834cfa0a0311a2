import TypeTrace.Proofs.Context.Nesting

/-! # How high the stacks stand

How many entries the stacks hold depends on the events and on the kinds of the nodes alone. What a
schema, a look-up of fields or the nodes themselves say only decides what the entries are. So two
contexts that are told of the same events and kinds run out of entries at the same step or not at all,
and that step is an end that takes an entry from an empty stack.
-/

namespace TypeTrace.TypeContext

/-- The stacks of a context. -/
inductive Stack where
  | types | parents | inputs | fields
deriving DecidableEq

/-- The number of entries that a stack holds. -/
def height (c : TypeContext) : Stack → Nat
  | .types => c.types.length
  | .parents => c.parents.length
  | .inputs => c.inputs.length
  | .fields => c.fields.length

/-- The stacks that hold an entry of a node of a kind, from its beginning to its end. -/
def stacksOf : Kind → List Stack
  | .selectionSet => [.parents]
  | .field => [.fields, .types]
  | .operationDefinition | .inlineFragment | .fragmentDefinition => [.types]
  | .variableDefinition | .argument | .listValue | .objectField => [.inputs]
  | _ => []

/-- What of an action is not up to the node. -/
def Action.shape (action : Action) : Event × Kind := (action.event, action.node.kind)

/-- Two contexts whose stacks hold as many entries. -/
def Level (c d : TypeContext) : Prop := ∀ stack, c.height stack = d.height stack

variable {schema schema' : Schema} {lookup lookup' : FieldLookup} {actions actions' : List Action}
  {action action' : Action} {c d : TypeContext} {kind : Kind}

/-! ## Beginnings -/

/-- A beginning puts one entry on each stack of its kind. -/
theorem Entered.height_eq (h : Entered c kind d) (stack : Stack) :
    d.height stack = c.height stack + (stacksOf kind).count stack := by
  cases h with
  | parent => cases stack <;> rfl
  | field => cases stack <;> rfl
  | directive => cases stack <;> rfl
  | argument => cases stack <;> rfl
  | type hkind =>
      simp only [List.mem_cons, List.not_mem_nil, or_false] at hkind
      rcases hkind with rfl | rfl | rfl <;> cases stack <;> rfl
  | input hkind =>
      simp only [List.mem_cons, List.not_mem_nil, or_false] at hkind
      rcases hkind with rfl | rfl | rfl <;> cases stack <;> rfl
  | other hkind =>
      have hnone : stacksOf kind = [] := by
        unfold stacksOf
        split <;> simp at hkind ⊢
      rw [hnone]
      rfl

theorem alike_enter (schema schema' : Schema) (lookup lookup' : FieldLookup) {node node' : Node}
    (hkind : node.kind = node'.kind) :
    Walk.Alike (ε := Underflow) Level (modify (enter schema lookup node))
      (modify (enter schema' lookup' node')) := by
  intro c d h
  refine .ok () fun stack => ?_
  rw [(entered schema lookup node c).height_eq, (entered schema' lookup' node' d).height_eq,
    hkind, h stack]

/-! ## Ends -/

/-- Takes an entry from a stack. -/
def pop : Stack → Change Unit
  | .types => popType
  | .parents => popParent
  | .inputs => popInput
  | .fields => popField

/-- Takes an entry from each of some stacks, in order. -/
def popAll : List Stack → Change Unit
  | [] => pure ()
  | stack :: rest => do
    pop stack
    popAll rest

/-- What comes of taking an entry from a stack: a fault if it is empty, or else one entry less. -/
inductive Popped (c : TypeContext) (stack : Stack) :
    EStateM.Result Underflow TypeContext Unit → Prop where
  | empty (hempty : c.height stack = 0) : Popped c stack (.error .emptyStack c)
  | taken (d : TypeContext) (h : ∀ other, c.height other = d.height other + [stack].count other) :
      Popped c stack (.ok () d)

theorem popped (c : TypeContext) (stack : Stack) : Popped c stack (pop stack c) := by
  obtain ⟨types, parents, inputs, fields, directive, argument⟩ := c
  cases stack with
  | types =>
      cases types with
      | nil => exact .empty rfl
      | cons => exact .taken _ fun other => by cases other <;> rfl
  | parents =>
      cases parents with
      | nil => exact .empty rfl
      | cons => exact .taken _ fun other => by cases other <;> rfl
  | inputs =>
      cases inputs with
      | nil => exact .empty rfl
      | cons => exact .taken _ fun other => by cases other <;> rfl
  | fields =>
      cases fields with
      | nil => exact .empty rfl
      | cons => exact .taken _ fun other => by cases other <;> rfl

theorem alike_pop (stack : Stack) : Walk.Alike Level (pop stack) (pop stack) := by
  intro c d h
  have hc := popped c stack
  have hd := popped d stack
  have hheight := h stack
  generalize pop stack c = result at hc ⊢
  generalize pop stack d = result' at hd ⊢
  cases hc with
  | empty hempty =>
      cases hd with
      | empty => exact .error _ h
      | taken d' htaken =>
          have hone := htaken stack
          rw [List.count_singleton_self] at hone
          omega
  | taken c' htaken =>
      cases hd with
      | empty hempty =>
          have hone := htaken stack
          rw [List.count_singleton_self] at hone
          omega
      | taken d' htaken' =>
          refine .ok () fun other => ?_
          have hother := h other
          rw [htaken, htaken'] at hother
          omega

theorem alike_popAll (asked : List Stack) : Walk.Alike Level (popAll asked) (popAll asked) := by
  induction asked with
  | nil => exact .pure ()
  | cons stack rest ih => exact (alike_pop stack).bind fun _ => ih

/-- Entries are there to be taken if no stack is asked for more than it holds. -/
theorem exists_of_popAll_eq_error {asked : List Stack} {fault : Underflow}
    (h : popAll asked c = .error fault d) : ∃ stack, c.height stack < asked.count stack := by
  induction asked generalizing c with
  | nil => cases h
  | cons stack rest ih =>
      have hpopped := popped c stack
      rcases Stateful.of_bind_eq_error h with h | ⟨_, middle, hstack, h⟩
      · rw [h] at hpopped
        cases hpopped with
        | empty hempty =>
            refine ⟨stack, ?_⟩
            rw [hempty, List.count_cons_self]
            omega
      · rw [hstack] at hpopped
        cases hpopped with
        | taken _ htaken =>
            obtain ⟨other, hless⟩ := ih h
            have hother := htaken other
            refine ⟨other, ?_⟩
            rw [← List.singleton_append, List.count_append]
            omega

/-- A context at the end of a node of a kind, before entries are taken from its stacks. -/
def withoutSlot (c : TypeContext) : Kind → TypeContext
  | .directive => { c with directive := none }
  | .argument => { c with argument := none }
  | _ => c

theorem height_withoutSlot (c : TypeContext) (kind : Kind) (stack : Stack) :
    (c.withoutSlot kind).height stack = c.height stack := by
  unfold withoutSlot
  split <;> cases stack <;> rfl

/-- An end takes one entry from each stack of its kind, and clears a slot at most. -/
theorem leave_eq (kind : Kind) (c : TypeContext) :
    leave kind c = popAll (stacksOf kind) (c.withoutSlot kind) := by
  cases kind
  all_goals
    simp only [stacksOf, popAll, bind_pure_unit]
    rfl

theorem alike_leave (kind : Kind) : Walk.Alike Level (leave kind) (leave kind) := by
  intro c d h
  rw [leave_eq, leave_eq]
  refine alike_popAll _ _ _ fun stack => ?_
  rw [height_withoutSlot, height_withoutSlot, h stack]

theorem count_stacksOf_le (kind : Kind) (stack : Stack) : (stacksOf kind).count stack ≤ 1 := by
  cases kind <;> cases stack <;> decide

/-- An end fails at a stack of its kind that is empty. -/
theorem exists_of_leave_eq_error {fault : Underflow} (h : leave kind c = .error fault d) :
    ∃ stack ∈ stacksOf kind, c.height stack = 0 := by
  rw [leave_eq] at h
  obtain ⟨stack, hless⟩ := exists_of_popAll_eq_error h
  rw [height_withoutSlot] at hless
  have hone := count_stacksOf_le kind stack
  exact ⟨stack, List.count_pos_iff.mp (by omega), by omega⟩

/-! ## Sequences -/

theorem alike_act (h : action.shape = action'.shape) :
    Walk.Alike Level (act schema lookup action) (act schema' lookup' action') := by
  obtain ⟨event, node⟩ := action
  obtain ⟨event', node'⟩ := action'
  obtain ⟨rfl, hkind⟩ := Prod.mk.inj h
  cases event with
  | enter => exact alike_enter schema schema' lookup lookup' hkind
  | leave =>
      change Walk.Alike Level (leave node.kind) (leave node'.kind)
      dsimp only at hkind
      rw [hkind]
      exact alike_leave _

theorem alike_perform (h : actions.map Action.shape = actions'.map Action.shape) :
    Walk.Alike Level (perform schema lookup actions) (perform schema' lookup' actions') := by
  induction actions generalizing actions' with
  | nil =>
      rw [List.map_nil, eq_comm, List.map_eq_nil_iff] at h
      rw [h]
      exact .pure ()
  | cons action actions ih =>
      cases actions' with
      | nil => cases h
      | cons action' actions' =>
          obtain ⟨haction, hrest⟩ := List.cons.inj h
          exact (alike_act haction).bind fun _ => ih hrest

/-- A sequence that goes wrong with its next action does so at an end, and at an empty stack. -/
theorem exists_of_perform_concat {fault : Underflow} {start : TypeContext}
    (hok : perform schema lookup actions start = .ok () c)
    (h : perform schema lookup (actions ++ [action]) start = .error fault d) :
    action.event = .leave ∧ ∃ stack ∈ stacksOf action.node.kind, c.height stack = 0 := by
  rw [perform_append hok] at h
  rcases Stateful.of_bind_eq_error h with h | ⟨_, _, -, h⟩
  · obtain ⟨event, node⟩ := action
    cases event with
    | enter => cases h
    | leave => exact ⟨rfl, exists_of_leave_eq_error h⟩
  · cases h

/-- Two contexts that begin empty and are told of the same events and kinds, whatever the schemas, the
look-ups and the nodes are, fail at the same step or not at all, and their stacks hold as many entries
after each step. What fails is an end that finds a stack of its kind empty. -/
theorem heights_go_by_shape (schema schema' : Schema) (lookup lookup' : FieldLookup)
    (h : actions.map Action.shape = actions'.map Action.shape) :
    (∀ k, Walk.SameResult Level (perform schema lookup (actions.take k) empty)
      (perform schema' lookup' (actions'.take k) empty)) ∧
    ∀ k c fault d, perform schema lookup (actions.take k) empty = .ok () c →
      perform schema lookup (actions.take (k + 1)) empty = .error fault d →
      ∃ node, actions[k]? = some ⟨.leave, node⟩ ∧
        ∃ stack ∈ stacksOf node.kind, c.height stack = 0 := by
  constructor
  · intro k
    refine alike_perform ?_ empty empty fun _ => rfl
    rw [List.map_take, List.map_take, h]
  · intro k c fault d hok herror
    cases hnext : actions[k]? with
    | none =>
        -- Behind the last action there is nothing left that could fail.
        have hall := List.take_of_length_le (List.getElem?_eq_none_iff.mp hnext)
        rw [List.take_of_length_le (by simp at hnext; omega), ← hall, hok] at herror
        cases herror
    | some action =>
        rw [List.take_add_one, hnext] at herror
        obtain ⟨hevent, hempty⟩ := exists_of_perform_concat hok herror
        obtain ⟨event, node⟩ := action
        cases hevent
        exact ⟨node, rfl, hempty⟩

/-- A field that an operation's end cuts off from its type, with nodes of given names. -/
def crossed (name other : String) : List Action :=
  [⟨.enter, nodeNamed .field name⟩, ⟨.leave, nodeNamed .operationDefinition other⟩,
    ⟨.leave, nodeNamed .field other⟩]

/-- A schema that knows the field and one that knows nothing leave their contexts with the same fault at
the same step. -/
theorem heights_go_by_shape_on_ring :
    (crossed "a" "b").map Action.shape = (crossed "x" "y").map Action.shape ∧
    ∃ fault c d, perform .ring .standard (crossed "a" "b") empty = .error fault c ∧
      perform ⟨[], none, none, none, []⟩ (fun _ _ _ => none) (crossed "x" "y") empty =
        .error fault d ∧ Level c d := by
  have hshape : (crossed "a" "b").map Action.shape = (crossed "x" "y").map Action.shape := rfl
  obtain ⟨hsame, -⟩ := heights_go_by_shape .ring ⟨[], none, none, none, []⟩ .standard
    (fun _ _ _ => none) hshape
  have hthree := hsame 3
  have hfault : perform .ring .standard ((crossed "a" "b").take 3) empty =
      .error .emptyStack empty := rfl
  rw [hfault] at hthree
  cases hother : perform ⟨[], none, none, none, []⟩ (fun _ _ _ => none)
      ((crossed "x" "y").take 3) empty with
  | ok _ d =>
      rw [hother] at hthree
      cases hthree
  | error fault d =>
      rw [hother] at hthree
      cases hthree with
      | error _ hlevel => exact ⟨hshape, .emptyStack, empty, d, hfault, hother, hlevel⟩

end TypeTrace.TypeContext
