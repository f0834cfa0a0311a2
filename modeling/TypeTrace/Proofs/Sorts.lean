import TypeTrace.Proofs.Balance
import TypeTrace.Proofs.Refinement
import TypeTrace.Proofs.Schema.Sorts

/-! # The sorts of types on the stacks

What is looked up in a schema has the sort that its place asks for: a field has an output type, an
argument or an input field has an input type, and what fields are selected on is composite. A
document can name any type of the schema as a type condition or as the type of a variable, and a
schema can name any of its types as the one that operations start from. So a type of another sort
stands on a stack only while a node is open that names it.
-/

namespace TypeTrace

/-! ## Types that nodes name -/

/-- The node brings a type into play by its name: as the type that an operation starts from, or as
the type condition of a fragment. -/
inductive Node.NamesOutput (schema : Schema) (node : Node) (type : TypeRef) : Prop where
  | root (hkind : node.kind = .operationDefinition) (h : schema.rootType? node = some type)
  | condition (hkind : node.kind = .inlineFragment ∨ node.kind = .fragmentDefinition)
      (condition : Node) (hcondition : node.child? .typeCondition = some condition)
      (h : schema.typeOf? condition = some type)

/-- The node names a type as that of a variable. -/
structure Node.NamesInput (schema : Schema) (node : Node) (type : TypeRef) : Prop where
  kind : node.kind = .variableDefinition
  type : (node.child? .type).bind schema.typeOf? = some type

/-- What can stand as an output type under some open nodes: an output type, or what one of these
nodes names. -/
def Schema.OutputUnder (schema : Schema) (opens : List Node) (type : TypeRef) : Prop :=
  schema.isOutput type ∨ ∃ node ∈ opens, node.NamesOutput schema type

/-- What can stand as an input type under some open nodes: an input type, or a type within one that
a variable has. -/
def Schema.InputUnder (schema : Schema) (opens : List Node) (type : TypeRef) : Prop :=
  schema.isInput type ∨ ∃ node ∈ opens, ∃ named, node.NamesInput schema named ∧
    type.base = named.base

theorem TypeRef.base_of_item? {type item : TypeRef} (h : type.item? = some item) :
    item.base = type.base := by
  cases type with
  | named name => cases h
  | list element =>
      cases h
      rfl
  | nonNull inner =>
      cases inner with
      | list element =>
          cases h
          rfl
      | _ => cases h

namespace TypeContext

/-- Each stack holds types of its sort, and otherwise only what an open node names or what is within
that. Fields that are known have an output type and arguments of input types. -/
structure Stacks.Sorted (schema : Schema) (opens : List Node) (held : Stacks) : Prop where
  types : ∀ type, some type ∈ held.types → schema.OutputUnder opens type
  parents : ∀ name, some name ∈ held.parents → schema.isComposite name
  inputs : ∀ type, some type ∈ held.inputs → schema.InputUnder opens type
  fields : ∀ field, some field ∈ held.fields →
    field.Refers (schema.isOutput ·) (schema.isInput ·)

structure Sorted (schema : Schema) (opens : List Node) (c : TypeContext) : Prop where
  stacked : c.stacked.Sorted schema opens
  directive : ∀ directive, c.directive = some directive →
    ∀ argument ∈ directive.arguments, schema.isInput argument.type

end TypeContext

/-- What applies is of its sort, as far as no open node names another type. -/
structure Scope.Sorted (schema : Schema) (opens : List Node) (scope : Scope) : Prop where
  type : ∀ type, scope.type = some type → schema.OutputUnder opens type
  parent : ∀ name, scope.parent = some name → schema.isComposite name
  input : ∀ type, scope.input = some type → schema.InputUnder opens type
  field : ∀ field, scope.field = some field → field.Refers (schema.isOutput ·) (schema.isInput ·)

namespace TypeContext

variable {schema : Schema} {opens : List Node} {c : TypeContext}

theorem mem_of_top {α : Type} {stack : List (Option α)} {a : α} (h : top stack = some a) :
    some a ∈ stack := by
  cases stack with
  | nil => cases h
  | cons first rest =>
      have hfirst : first = some a := h
      rw [hfirst]
      exact List.mem_cons_self

/-! ## What is pushed -/

theorem Stacks.Sorted.under {held : Stacks} (h : held.Sorted schema opens) (node : Node) :
    held.Sorted schema (node :: opens) where
  types type htype := (h.types type htype).imp_right fun ⟨other, hother, hnames⟩ =>
    ⟨other, List.mem_cons_of_mem _ hother, hnames⟩
  parents := h.parents
  inputs type htype := (h.inputs type htype).imp_right fun ⟨other, hother, hnames⟩ =>
    ⟨other, List.mem_cons_of_mem _ hother, hnames⟩
  fields := h.fields

namespace Sorted

theorem empty : TypeContext.empty.Sorted schema [] where
  stacked := ⟨fun _ => nofun, fun _ => nofun, fun _ => nofun, fun _ => nofun⟩
  directive _ := nofun

/-- What the accessors answer is of its sort if what the stacks hold is. -/
theorem scope (h : c.Sorted schema opens) : c.scope.Sorted schema opens where
  type type htype := h.stacked.types type (mem_of_top htype)
  parent name hname := h.stacked.parents name (mem_of_top hname)
  input type htype := h.stacked.inputs type (mem_of_top htype)
  field field hfield := h.stacked.fields field (mem_of_top hfield)

theorem under (h : c.Sorted schema opens) (node : Node) : c.Sorted schema (node :: opens) :=
  ⟨h.stacked.under node, h.directive⟩

theorem pushType (h : c.Sorted schema opens) {pushed : Option TypeRef}
    (hpushed : ∀ type, pushed = some type → schema.OutputUnder opens type) :
    (c.pushType pushed).Sorted schema opens := by
  refine ⟨{ h.stacked with types := ?_ }, h.directive⟩
  intro type htype
  rcases List.mem_cons.mp htype with hfirst | hrest
  · exact hpushed type hfirst.symm
  · exact h.stacked.types type hrest

theorem pushParent (h : c.Sorted schema opens) {pushed : Option String}
    (hpushed : ∀ name, pushed = some name → schema.isComposite name) :
    (c.pushParent pushed).Sorted schema opens := by
  refine ⟨{ h.stacked with parents := ?_ }, h.directive⟩
  intro name hname
  rcases List.mem_cons.mp hname with hfirst | hrest
  · exact hpushed name hfirst.symm
  · exact h.stacked.parents name hrest

theorem pushInput (h : c.Sorted schema opens) {pushed : Option TypeRef}
    (hpushed : ∀ type, pushed = some type → schema.InputUnder opens type) :
    (c.pushInput pushed).Sorted schema opens := by
  refine ⟨{ h.stacked with inputs := ?_ }, h.directive⟩
  intro type htype
  rcases List.mem_cons.mp htype with hfirst | hrest
  · exact hpushed type hfirst.symm
  · exact h.stacked.inputs type hrest

theorem pushField (h : c.Sorted schema opens) {pushed : Option FieldDef}
    (hpushed : ∀ field, pushed = some field →
      field.Refers (schema.isOutput ·) (schema.isInput ·)) :
    (c.pushField pushed).Sorted schema opens := by
  refine ⟨{ h.stacked with fields := ?_ }, h.directive⟩
  intro field hfield
  rcases List.mem_cons.mp hfield with hfirst | hrest
  · exact hpushed field hfirst.symm
  · exact h.stacked.fields field hrest

/-- Whatever can be given as an argument at the moment has an input type. -/
theorem openArguments (h : c.Sorted schema opens) :
    ∀ argument ∈ TypeContext.openArguments c.scope, schema.isInput argument.type := by
  unfold TypeContext.openArguments
  split
  · next directive hdirective => exact h.directive directive hdirective
  · split
    · next field hfield => exact (h.scope.field field hfield).2
    · exact List.forall_mem_nil _

/-! ## Steps -/

theorem enter (hschema : schema.Refers (schema.isOutput ·) (schema.isInput ·))
    (h : c.Sorted schema opens) (node : Node) :
    (c.enter schema .standard node).Sorted schema (node :: opens) := by
  have hunder := h.under node
  have hcondition (hkind : node.kind = .inlineFragment ∨ node.kind = .fragmentDefinition)
      (condition : Node) (hcondition : node.child? .typeCondition = some condition) :
      (c.pushType (schema.typeOf? condition)).Sorted schema (node :: opens) :=
    hunder.pushType fun type htype =>
      Or.inr ⟨node, List.mem_cons_self, .condition hkind condition hcondition htype⟩
  unfold TypeContext.enter
  dsimp only
  cases hkind : node.kind with
  | selectionSet =>
      refine hunder.pushParent fun name hname => ?_
      obtain ⟨type, -, hname⟩ := Option.bind_eq_some_iff.mp hname
      split at hname
      · next hcomposite =>
          cases hname
          exact hcomposite
      · cases hname
  | field =>
      have hfield (field : FieldDef) (hfound : (c.scope.parent.bind fun parent =>
          FieldLookup.standard schema parent node) = some field) :
          field.Refers (schema.isOutput ·) (schema.isInput ·) := by
        obtain ⟨parent, -, hfound⟩ := Option.bind_eq_some_iff.mp hfound
        exact hschema.field? hfound
      refine (hunder.pushField hfield).pushType fun type htype => ?_
      obtain ⟨field, hfound, rfl⟩ := Option.map_eq_some_iff.mp htype
      exact Or.inl (hfield field hfound).1
  | directive =>
      exact ⟨hunder.stacked, fun directive hdirective => hschema.directive? hdirective⟩
  | operationDefinition =>
      dsimp only
      split
      · next operation hdatum =>
          refine hunder.pushType fun type htype => Or.inr ⟨node, List.mem_cons_self, ?_⟩
          refine .root hkind ?_
          unfold Schema.rootType?
          rw [hdatum]
          exact htype
      · exact hunder.pushType fun type htype => by cases htype
  | inlineFragment =>
      cases hchild : node.child? .typeCondition with
      | some condition => exact hcondition (Or.inl hkind) condition hchild
      | none => exact hunder.pushType hunder.scope.type
  | fragmentDefinition =>
      cases hchild : node.child? .typeCondition with
      | some condition => exact hcondition (Or.inr hkind) condition hchild
      | none => exact hunder.pushType hunder.scope.type
  | variableDefinition =>
      refine hunder.pushInput fun type htype => Or.inr ?_
      exact ⟨node, List.mem_cons_self, type, ⟨hkind, htype⟩, rfl⟩
  | argument =>
      have hslot (argument : Option InputDef) :
          ({ c with argument := argument } : TypeContext).Sorted schema (node :: opens) :=
        ⟨hunder.stacked, hunder.directive⟩
      refine (hslot _).pushInput fun type htype => Or.inl ?_
      obtain ⟨argument, hfound, rfl⟩ := Option.map_eq_some_iff.mp htype
      exact h.openArguments argument (InputDef.mem_of_find? hfound)
  | listValue =>
      -- An item is of the sort of its list, and what names the list also names the item's base.
      refine hunder.pushInput fun item hitem => ?_
      obtain ⟨type, htype, hitem⟩ := Option.bind_eq_some_iff.mp hitem
      have hsorted := hunder.scope.input type htype
      unfold Schema.InputUnder Schema.isInput at hsorted ⊢
      rwa [← TypeRef.base_of_item? hitem] at hsorted
  | objectField =>
      refine hunder.pushInput fun type htype => Or.inl ?_
      obtain ⟨field, hfield, rfl⟩ := Option.map_eq_some_iff.mp htype
      have hmem := InputDef.mem_of_find? hfield
      cases hdefinition : c.scope.input.bind fun type => schema.type? type.base with
      | none =>
          rw [hdefinition] at hmem
          cases hmem
      | some definition =>
          rw [hdefinition] at hmem
          obtain ⟨around, -, hfound⟩ := Option.bind_eq_some_iff.mp hdefinition
          exact (hschema.type? hfound).2 field hmem
  | _ => exact hunder

theorem of_leave {opens' : List Node} {d : TypeContext} {kind : Kind}
    (h : c.Sorted schema opens') (hstacks : d.stacked.Sorted schema opens)
    (hleave : TypeContext.leave kind c = .ok () d) : d.Sorted schema opens where
  stacked := hstacks
  directive directive hdirective := by
    rcases directive_of_leave hleave with heq | hnone
    · exact h.directive directive (heq.symm.trans hdirective)
    · rw [hnone] at hdirective
      cases hdirective

/-- A node that is passed over leaves what was sorted in front of it. -/
theorem behind (hschema : schema.Refers (schema.isOutput ·) (schema.isInput ·))
    (h : c.Sorted schema opens) (node : Node) :
    (c.behind node.kind (c.enter schema .standard node)).Sorted schema opens :=
  (h.enter hschema node).of_leave h.stacked (leave_of_stacked rfl)

end Sorted

end TypeContext

/-! ## Along a walk -/

namespace Moment

/-- The nodes that are open behind a moment, innermost first. -/
def opened (opens : List Node) (moment : Moment) : List Node :=
  match moment.event, moment.reply with
  | .enter, .proceed => moment.node :: opens
  | .enter, .replace other => other :: opens
  | .enter, _ => opens
  | .leave, _ => opens.tail

/-- The contexts that a moment goes through, each with the nodes that are open then. An observer is
asked once a node is entered; a node that it replaces is left before its replacement is entered. -/
def contexts (schema : Schema) (lookup : FieldLookup) (opens : List Node) (moment : Moment) :
    List (List Node × TypeContext) :=
  let inner := moment.before.enter schema lookup moment.node
  match moment.event, moment.reply with
  | .enter, .replace _ =>
      [(opens, moment.before), (moment.node :: opens, inner),
        (opens, moment.before.behind moment.node.kind inner), (moment.opened opens, moment.after)]
  | .enter, _ =>
      [(opens, moment.before), (moment.node :: opens, inner), (moment.opened opens, moment.after)]
  | .leave, _ => [(opens, moment.before), (moment.opened opens, moment.after)]

variable {schema : Schema} {opens : List Node} {moment : Moment}

theorem sorted_contexts (hschema : schema.Refers (schema.isOutput ·) (schema.isInput ·))
    (hbefore : moment.before.Sorted schema opens)
    (hafter : moment.after.Sorted schema (moment.opened opens)) :
    ∀ state ∈ moment.contexts schema .standard opens, state.2.Sorted schema state.1 := by
  have hinner := hbefore.enter hschema moment.node
  have hbehind := hbefore.behind hschema moment.node
  unfold contexts
  split
  · simp [hbefore, hinner, hbehind, hafter]
  · simp [hbefore, hinner, hafter]
  · simp [hbefore, hafter]

/-- An entrance keeps the sorts, whatever the observer answers. -/
theorem sorted_of_enter (hschema : schema.Refers (schema.isOutput ·) (schema.isInput ·))
    (hevent : moment.event = .enter) (hsteps : moment.Steps schema .standard)
    (hbefore : moment.before.Sorted schema opens) :
    moment.after.Sorted schema (moment.opened opens) := by
  unfold Steps at hsteps
  unfold opened
  rw [hevent] at hsteps ⊢
  dsimp only at hsteps ⊢
  rw [hsteps]
  cases moment.reply with
  | proceed => exact hbefore.enter hschema moment.node
  | replace other => exact (hbefore.behind hschema moment.node).enter hschema other
  | skip => exact hbefore.behind hschema moment.node
  | remove => exact hbefore.behind hschema moment.node
  | stop => exact hbefore.behind hschema moment.node

theorem sorted_of_leave (hevent : moment.event = .leave) (hsteps : moment.Steps schema .standard)
    (hbefore : moment.before.Sorted schema opens)
    (hstacks : moment.after.stacked.Sorted schema opens.tail) :
    moment.after.Sorted schema (moment.opened opens) := by
  unfold Steps at hsteps
  unfold opened
  rw [hevent] at hsteps ⊢
  exact hbefore.of_leave hstacks hsteps

end Moment

/-- The stacks that the ends of open nodes bring back are sorted under the nodes further out. -/
inductive Standing (schema : Schema) : List Frame → List Node → Prop where
  | nil : Standing schema [] []
  | cons {frame : Frame} {frames : List Frame} {opens : List Node} (node : Node)
      (hstacks : frame.stacked.Sorted schema opens) (h : Standing schema frames opens) :
      Standing schema (frame :: frames) (node :: opens)

/-- In every context of every moment the stacks and what applies are sorted under the nodes that are
open by then. -/
def SortedAlong (schema : Schema) (opens : List Node) (log : List Moment) : Prop :=
  ∀ passed moment rest, log = passed ++ moment :: rest →
    ∀ state ∈ moment.contexts schema .standard (passed.foldl Moment.opened opens),
      state.2.Sorted schema state.1 ∧ state.2.scope.Sorted schema state.1

theorem SortedAlong.nil {schema : Schema} {opens : List Node} : SortedAlong schema opens [] := by
  intro passed moment rest hlog
  exact absurd hlog.symm (by simp)

theorem SortedAlong.cons {schema : Schema} {opens : List Node} {first : Moment}
    {log : List Moment}
    (hfirst : ∀ state ∈ first.contexts schema .standard opens, state.2.Sorted schema state.1)
    (hlog : SortedAlong schema (first.opened opens) log) :
    SortedAlong schema opens (first :: log) := by
  intro passed moment rest heq
  cases passed with
  | nil =>
      obtain ⟨rfl, -⟩ := List.cons.inj heq
      exact fun state hstate => ⟨hfirst state hstate, (hfirst state hstate).scope⟩
  | cons earlier passed =>
      obtain ⟨rfl, hrest⟩ := List.cons.inj heq
      exact hlog passed moment rest hrest

/-- The run lemma: from sorted stacks on, the moments of a balanced record keep the sorts. -/
theorem Balanced.sorted {schema : Schema} {frames frames' : List Frame} {c c' : TypeContext}
    {log : List Moment} {opens : List Node}
    (hschema : schema.Refers (schema.isOutput ·) (schema.isInput ·))
    (h : Balanced frames c log frames' c')
    (hsteps : ∀ moment ∈ log, moment.Steps schema .standard)
    (hstanding : Standing schema frames opens) (hc : c.Sorted schema opens) :
    SortedAlong schema opens log ∧ c'.Sorted schema (log.foldl Moment.opened opens) := by
  induction h generalizing opens with
  | nil => exact ⟨.nil, hc⟩
  | opening node _ ih =>
      obtain ⟨hfirst, hrest⟩ := List.forall_mem_cons.mp hsteps
      have hafter := Moment.sorted_of_enter hschema rfl hfirst hc
      obtain ⟨hlog, hend⟩ := ih hrest (.cons node hc.stacked hstanding) hafter
      exact ⟨.cons (Moment.sorted_contexts hschema hc hafter) hlog, hend⟩
  | replacing node other _ ih =>
      obtain ⟨hfirst, hrest⟩ := List.forall_mem_cons.mp hsteps
      have hafter := Moment.sorted_of_enter hschema rfl hfirst hc
      obtain ⟨hlog, hend⟩ := ih hrest (.cons other hc.stacked hstanding) hafter
      exact ⟨.cons (Moment.sorted_contexts hschema hc hafter) hlog, hend⟩
  | @passing frames frames' c d c' log node reply hreply _ _ ih =>
      obtain ⟨hfirst, hrest⟩ := List.forall_mem_cons.mp hsteps
      have hafter := Moment.sorted_of_enter hschema rfl hfirst hc
      have hopened : Standing schema frames (Moment.opened opens ⟨.enter, node, c, reply, d⟩) := by
        rcases hreply with rfl | rfl
        · exact hstanding
        · exact hstanding
      obtain ⟨hlog, hend⟩ := ih hrest hopened hafter
      exact ⟨.cons (Moment.sorted_contexts hschema hc hafter) hlog, hend⟩
  | closing _ _ hstacks _ ih =>
      -- The end brings back the stacks of the innermost frame, which need no node that ends here.
      obtain ⟨hfirst, hrest⟩ := List.forall_mem_cons.mp hsteps
      cases hstanding with
      | cons opener hframe hstanding =>
          have hafter := Moment.sorted_of_leave rfl hfirst hc (hstacks ▸ hframe)
          obtain ⟨hlog, hend⟩ := ih hrest hstanding hafter
          exact ⟨.cons (Moment.sorted_contexts hschema hc hafter) hlog, hend⟩
  | stoppingAtEnter =>
      have hfirst := hsteps _ List.mem_cons_self
      have hafter := Moment.sorted_of_enter hschema rfl hfirst hc
      exact ⟨.cons (Moment.sorted_contexts hschema hc hafter) .nil, hafter⟩
  | stoppingAtLeave _ _ hstacks =>
      have hfirst := hsteps _ List.mem_cons_self
      cases hstanding with
      | cons opener hframe hstanding =>
          have hafter := Moment.sorted_of_leave rfl hfirst hc (hstacks ▸ hframe)
          exact ⟨.cons (Moment.sorted_contexts hschema hc hafter) .nil, hafter⟩

/-- Whatever an observer answers, a walk through a document finds on its stacks only types of their
sort and types that an open node names. -/
theorem Observer.run_sorted {σ : Type} {sdl : String} {schema : Schema}
    (hschema : Schema.ofText sdl = .ok schema) (observer : Observer σ) (limit : Nat)
    (document : Node) (s : σ) :
    ∃ outcome c t log,
      observer.run schema .standard limit document s = .ok outcome (c, t) ∧
      Walk.run (observer.watched schema .standard) limit document ((.empty, s), []) =
        .ok outcome ((c, t), log) ∧
      SortedAlong schema [] log ∧
      c.Sorted schema (log.foldl Moment.opened []) := by
  have hsteady : Steady [] .empty [] .empty Walk.Outcome.ending
      (Walk.run (observer.watched schema .standard) limit document) :=
    .run limit document .empty
  obtain ⟨outcome, c, t, log, hwatched, h⟩ := hsteady s []
  obtain ⟨frames, hbalanced, -⟩ := h.balanced
  have hrun := observer.run_of_watched hwatched
  have hsorted := hbalanced.sorted (Schema.sorts_of_ofText hschema) (steps_of_run hwatched) .nil
    TypeContext.Sorted.empty
  exact ⟨outcome, c, t, log, hrun, hwatched, hsorted.1, hsorted.2⟩

/-- A walk from a root that is an input type, with a condition on the same type. -/
theorem Observer.run_sorted_from_input_root :
    ∃ schema document outcome c t log,
      Schema.ofText "schema { query: In } type T { a: Int } input In { n: Int }" = .ok schema ∧
      Node.parse "query ($x: T) { ... on In { n } }" = .ok document ∧
      counter.run schema .standard 0 document 0 = .ok outcome (c, t) ∧
      Walk.run (counter.watched schema .standard) 0 document ((.empty, 0), []) =
        .ok outcome ((c, t), log) ∧
      SortedAlong schema [] log ∧
      c.Sorted schema (log.foldl Moment.opened []) := by
  have hok : (Schema.ofText
      "schema { query: In } type T { a: Int } input In { n: Int }").isOk = true := by
    decide +kernel
  obtain ⟨schema, hschema⟩ := exists_of_isOk hok
  obtain ⟨document, hparse⟩ :
      ∃ document, Node.parse "query ($x: T) { ... on In { n } }" = .ok document := ⟨_, rfl⟩
  obtain ⟨outcome, c, t, log, h⟩ := Observer.run_sorted hschema counter 0 document 0
  exact ⟨schema, document, outcome, c, t, log, hschema, hparse, h⟩

/-- An input type stands as an output type, by the root of the operation and by a condition, and an
object as the type of a variable. -/
theorem Observer.run_holds_what_is_named :
    ∃ schema document outcome c t log,
      Schema.ofText "schema { query: In } type T { a: Int } input In { n: Int }" = .ok schema ∧
      Node.parse "query ($x: T) { ... on In { n } }" = .ok document ∧
      Walk.run (counter.watched schema .standard) 0 document ((.empty, 0), []) =
        .ok outcome ((c, t), log) ∧
      (∃ moment ∈ log, moment.node.kind = .operationDefinition ∧
        moment.after.scope.type = some (.named "In")) ∧
      (∃ moment ∈ log, moment.node.kind = .inlineFragment ∧
        moment.after.scope.type = some (.named "In")) ∧
      (∃ moment ∈ log, moment.node.kind = .variableDefinition ∧
        moment.after.scope.input = some (.named "T")) ∧
      schema.isOutput (.named "In") = false ∧ schema.isInput (.named "T") = false := by
  have hruns :
      (match Schema.ofText "schema { query: In } type T { a: Int } input In { n: Int }",
        Node.parse "query ($x: T) { ... on In { n } }" with
      | .ok schema, .ok document =>
          match Walk.run (counter.watched schema .standard) 0 document ((.empty, 0), []) with
          | .ok _ (_, log) =>
              decide ((∃ moment ∈ log, moment.node.kind = .operationDefinition ∧
                  moment.after.scope.type = some (.named "In")) ∧
                (∃ moment ∈ log, moment.node.kind = .inlineFragment ∧
                  moment.after.scope.type = some (.named "In")) ∧
                (∃ moment ∈ log, moment.node.kind = .variableDefinition ∧
                  moment.after.scope.input = some (.named "T")) ∧
                schema.isOutput (.named "In") = false ∧ schema.isInput (.named "T") = false)
          | .error _ _ => false
      | _, _ => false) = true := by
    decide +kernel
  split at hruns
  · next schema document hschema hparse =>
      split at hruns
      · next outcome state log hrun =>
          exact ⟨schema, document, outcome, state.1, state.2, log, hschema, hparse, hrun,
            of_decide_eq_true hruns⟩
      · cases hruns
  · cases hruns

end TypeTrace
