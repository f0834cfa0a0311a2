import TypeTrace.Proofs.Schema.Build
import TypeTrace.Proofs.Trace

/-! # What a wider schema still knows

A schema is wider than another if it has all that the other has and is equal to it in the type that
queries start from. Along every path of a document, whatever applies under the narrower schema
applies under the wider one as well, as long as the narrower one knows the directives of the
document: a directive that comes to be known takes the place of the field to which its arguments
fell before.
-/

namespace TypeTrace

/-! ## Wider schemas -/

/-- Inputs among which others are found by their names, each with the same text of its type. -/
def InputDef.Kept (inputs wide : List InputDef) : Prop :=
  ∀ name input, InputDef.find? name inputs = some input →
    ∃ found, InputDef.find? name wide = some found ∧ found.type.text = input.type.text

/-- The kind of definitions of such a type. -/
def TypeDef.kind : TypeDef → Kind
  | .scalar => .scalarTypeDefinition
  | .object .. => .objectTypeDefinition
  | .interface .. => .interfaceTypeDefinition
  | .union .. => .unionTypeDefinition
  | .enum .. => .enumTypeDefinition
  | .inputObject .. => .inputObjectTypeDefinition

structure FieldDef.Extends (wide field : FieldDef) : Prop where
  type : wide.type.text = field.type.text
  arguments : InputDef.Kept field.arguments wide.arguments

structure TypeDef.Extends (wide type : TypeDef) : Prop where
  kind : wide.kind = type.kind
  fields : ∀ name field, FieldDef.find? name type.fields = some field →
    ∃ found, FieldDef.find? name wide.fields = some found ∧ found.Extends field
  inputFields : InputDef.Kept type.inputFields wide.inputFields

/-- The wider schema has every type, field, input field, argument and directive of the other, and
starts its operations from the same types, where the other has such operations; it has queries only
if the other has them. -/
structure Schema.Extends (wide schema : Schema) : Prop where
  query : wide.query = schema.query
  mutation : ∀ name, schema.mutation = some name → wide.mutation = some name
  subscription : ∀ name, schema.subscription = some name → wide.subscription = some name
  types : ∀ name type, schema.type? name = some type →
    ∃ found, wide.type? name = some found ∧ found.Extends type
  directives : ∀ name directive, schema.directive? name = some directive →
    ∃ found, wide.directive? name = some found ∧
      InputDef.Kept directive.arguments found.arguments

/-! ## Checking that a schema is wider -/

def InputDef.isKept (inputs wide : List InputDef) : Bool :=
  inputs.all fun input =>
    (InputDef.find? input.name wide).any fun found => found.type.text == input.type.text

def FieldDef.isKept (fields wide : List FieldDef) : Bool :=
  fields.all fun field =>
    (FieldDef.find? field.name wide).any fun found =>
      found.type.text == field.type.text && InputDef.isKept field.arguments found.arguments

/-- A check that is enough for a schema to be wider. -/
def Schema.isWider (wide schema : Schema) : Bool :=
  wide.query == schema.query && (schema.mutation.isNone || wide.mutation == schema.mutation) &&
    (schema.subscription.isNone || wide.subscription == schema.subscription) &&
    (schema.types.all fun (name, type) => (wide.type? name).any fun found =>
      found.kind == type.kind && FieldDef.isKept type.fields found.fields &&
        InputDef.isKept type.inputFields found.inputFields) &&
    schema.directives.all fun directive => (wide.directive? directive.name).any fun found =>
      InputDef.isKept directive.arguments found.arguments

theorem InputDef.kept_of_isKept {inputs wide : List InputDef} (h : InputDef.isKept inputs wide) :
    InputDef.Kept inputs wide := by
  intro name input hinput
  have hname : input.name = name := by simpa using List.find?_some hinput
  have hkept := List.all_eq_true.mp h input (List.mem_of_find?_eq_some hinput)
  obtain ⟨found, hfound, htext⟩ := (Option.any_eq_true _ _).mp hkept
  rw [hname] at hfound
  exact ⟨found, hfound, beq_iff_eq.mp htext⟩

theorem FieldDef.extends_of_isKept {fields wide : List FieldDef} (h : FieldDef.isKept fields wide) :
    ∀ name field, FieldDef.find? name fields = some field →
      ∃ found, FieldDef.find? name wide = some found ∧ found.Extends field := by
  intro name field hfield
  have hname : field.name = name := by simpa using List.find?_some hfield
  have hkept := List.all_eq_true.mp h field (List.mem_of_find?_eq_some hfield)
  obtain ⟨found, hfound, hkept⟩ := (Option.any_eq_true _ _).mp hkept
  obtain ⟨htext, harguments⟩ := Bool.and_eq_true_iff.mp hkept
  rw [hname] at hfound
  exact ⟨found, hfound, beq_iff_eq.mp htext, InputDef.kept_of_isKept harguments⟩

theorem Schema.extends_of_isWider {schema wide : Schema} (h : wide.isWider schema) :
    wide.Extends schema := by
  simp only [Schema.isWider, Bool.and_eq_true, Bool.or_eq_true, beq_iff_eq] at h
  obtain ⟨⟨⟨⟨hquery, hmutation⟩, hsubscription⟩, htypes⟩, hdirectives⟩ := h
  refine ⟨hquery, ?_, ?_, ?_, ?_⟩
  · intro name hname
    rcases hmutation with hnone | hsame
    · rw [hname] at hnone
      cases hnone
    · exact hsame.trans hname
  · intro name hname
    rcases hsubscription with hnone | hsame
    · rw [hname] at hnone
      cases hnone
    · exact hsame.trans hname
  · intro name type htype
    have hkept := List.all_eq_true.mp htypes (name, type) (mem_of_lookup htype)
    obtain ⟨found, hfound, hkept⟩ := (Option.any_eq_true _ _).mp hkept
    simp only [Bool.and_eq_true, beq_iff_eq] at hkept
    obtain ⟨⟨hkind, hfields⟩, hinputs⟩ := hkept
    exact ⟨found, hfound, hkind, FieldDef.extends_of_isKept hfields,
      InputDef.kept_of_isKept hinputs⟩
  · intro name directive hdirective
    have hname : directive.name = name := by simpa using List.find?_some hdirective
    have hkept := List.all_eq_true.mp hdirectives directive (List.mem_of_find?_eq_some hdirective)
    obtain ⟨found, hfound, hkept⟩ := (Option.any_eq_true _ _).mp hkept
    rw [hname] at hfound
    exact ⟨found, hfound, InputDef.kept_of_isKept hkept⟩

/-! ## What stays -/

/-- What is there stays. Where nothing is, something may come. -/
def Stays {α : Type} (before after : Option α) : Prop := ∀ a, before = some a → after = some a

namespace Stays

variable {α β : Type} {before after : Option α}

theorem same (a : Option α) : Stays a a := fun _ h => h

theorem map (h : Stays before after) (f : α → β) : Stays (before.map f) (after.map f) := by
  intro b hb
  obtain ⟨a, ha, rfl⟩ := Option.map_eq_some_iff.mp hb
  rw [h a ha]
  rfl

theorem bind (h : Stays before after) {f g : α → Option β} (hfg : ∀ a, Stays (f a) (g a)) :
    Stays (before.bind f) (after.bind g) := by
  intro b hb
  obtain ⟨a, ha, hfa⟩ := Option.bind_eq_some_iff.mp hb
  rw [h a ha]
  exact hfg a b hfa

theorem filter (h : Stays before after) {p q : α → Bool} (hpq : ∀ a, p a → q a) :
    Stays (before.filter p) (after.filter q) := by
  intro a ha
  obtain ⟨hbefore, hp⟩ := Option.filter_eq_some_iff.mp ha
  exact Option.filter_eq_some_iff.mpr ⟨h a hbefore, hpq a hp⟩

theorem isSome (h : Stays before after) (hbefore : before.isSome) : after.isSome := by
  obtain ⟨a, ha⟩ := Option.isSome_iff_exists.mp hbefore
  rw [h a ha]
  rfl

end Stays

/-- The type that is found under a name stays under that name. -/
def InputDef.Stay (inputs wide : List InputDef) : Prop :=
  ∀ name, Stays ((InputDef.find? name inputs).map InputDef.type)
    ((InputDef.find? name wide).map InputDef.type)

theorem InputDef.Kept.stay {inputs wide : List InputDef} (h : InputDef.Kept inputs wide)
    (hinputs : ∀ input ∈ inputs, input.type.Legible) (hwide : ∀ input ∈ wide, input.type.Legible) :
    InputDef.Stay inputs wide := by
  intro name type htype
  obtain ⟨input, hinput, rfl⟩ := Option.map_eq_some_iff.mp htype
  obtain ⟨found, hfound, htext⟩ := h name input hinput
  have hlegible := hinputs input (InputDef.mem_of_find? hinput)
  have hfoundLegible := hwide found (InputDef.mem_of_find? hfound)
  rw [hfound, Option.map_some, hfoundLegible.eq_of_text hlegible htext]

theorem InputDef.Stay.isSome {inputs wide : List InputDef} (h : InputDef.Stay inputs wide)
    {name : String} (hfound : (InputDef.find? name inputs).isSome) :
    (InputDef.find? name wide).isSome := by
  simpa using (h name).isSome (by simpa using hfound)

/-! ## Scopes under a wider schema -/

/-- What applies in one scope applies in the other, and both have a directive or neither has. -/
structure Scope.Covers (wide scope : Scope) : Prop where
  type : Stays scope.type wide.type
  parent : Stays scope.parent wide.parent
  input : Stays scope.input wide.input
  field : ∀ field, scope.field = some field →
    ∃ found, wide.field = some found ∧ InputDef.Stay field.arguments found.arguments
  noDirective : scope.directive = none → wide.directive = none
  directive : ∀ directive, scope.directive = some directive →
    ∃ found, wide.directive = some found ∧ InputDef.Stay directive.arguments found.arguments
  argument : scope.argument.isSome → wide.argument.isSome

theorem Scope.Covers.openArguments {wide scope : Scope} (h : wide.Covers scope) :
    InputDef.Stay (TypeContext.openArguments scope) (TypeContext.openArguments wide) := by
  unfold TypeContext.openArguments
  cases hdirective : scope.directive with
  | some directive =>
      obtain ⟨found, hfound, hstay⟩ := h.directive directive hdirective
      rw [hfound]
      exact hstay
  | none =>
      -- A directive that only the wider schema knew would hide the field's arguments here.
      rw [h.noDirective hdirective]
      cases hfield : scope.field with
      | some field =>
          obtain ⟨found, hfound, hstay⟩ := h.field field hfield
          rw [hfound]
          exact hstay
      | none =>
          intro name type htype
          cases htype

theorem TypeDef.isComposite_of_kind {type found : TypeDef} (h : found.kind = type.kind) :
    found.isComposite = type.isComposite := by
  cases type <;> cases found <;> first | rfl | cases h

namespace Schema.Extends

variable {schema wide : Schema}

theorem composite (h : wide.Extends schema) (name : String) (hname : schema.isComposite name) :
    wide.isComposite name := by
  unfold Schema.isComposite at hname ⊢
  cases htype : schema.type? name with
  | none =>
      rw [htype] at hname
      cases hname
  | some type =>
      obtain ⟨found, hfound, hextends⟩ := h.types name type htype
      rw [htype] at hname
      rw [hfound]
      exact (TypeDef.isComposite_of_kind hextends.kind).trans hname

theorem stays_typeOf? (h : wide.Extends schema) (node : Node) :
    Stays (schema.typeOf? node) (wide.typeOf? node) := by
  refine (Stays.same node.typeRef?).bind fun type => ?_
  intro found hfound
  split at hfound
  · next hthere =>
      cases hfound
      obtain ⟨definition, hdefinition⟩ := Option.isSome_iff_exists.mp hthere
      obtain ⟨other, hother, -⟩ := h.types type.base definition hdefinition
      rw [hother]
      rfl
  · cases hfound

theorem stays_rootType? (h : wide.Extends schema) (node : Node) :
    Stays (schema.rootType? node) (wide.rootType? node) := by
  unfold Schema.rootType?
  split
  · next operation _ =>
      refine Stays.map ?_ TypeRef.named
      cases operation with
      | query =>
          intro name hname
          exact h.query.trans hname
      | mutation => exact h.mutation
      | subscription => exact h.subscription
  · exact Stays.same none

section Legible

variable (hlegible : schema.Refers TypeRef.Legible TypeRef.Legible)
  (hwide : wide.Refers TypeRef.Legible TypeRef.Legible)

include hlegible hwide

theorem field_of_types {name parent : String} {type found : TypeDef}
    (htype : schema.type? parent = some type) (hfound : wide.type? parent = some found)
    (hextends : found.Extends type) {field : FieldDef}
    (hfield : FieldDef.find? name type.fields = some field) :
    ∃ other, FieldDef.find? name found.fields = some other ∧ other.type = field.type ∧
      InputDef.Stay field.arguments other.arguments := by
  obtain ⟨other, hother, hkept⟩ := hextends.fields name field hfield
  have hnarrow := (hlegible.type? htype).1 field (List.mem_of_find?_eq_some hfield)
  have hbroad := (hwide.type? hfound).1 other (List.mem_of_find?_eq_some hother)
  exact ⟨other, hother, hbroad.1.eq_of_text hnarrow.1 hkept.type,
    hkept.arguments.stay hnarrow.2 hbroad.2⟩

theorem field? (h : wide.Extends schema) {parent : Option String} {name : String} {field : FieldDef}
    (hfield : schema.field? parent name = some field) :
    ∃ found, wide.field? parent name = some found ∧ found.type = field.type ∧
      InputDef.Stay field.arguments found.arguments := by
  have hsame (field : FieldDef) : InputDef.Stay field.arguments field.arguments :=
    fun name => Stays.same _
  -- The look-up asks the same three questions under both schemas, since the query root is the same.
  unfold Schema.field? at hfield ⊢
  rw [h.query]
  split at hfield
  · next hquery =>
      cases hfield
      rw [if_pos hquery]
      exact ⟨_, rfl, rfl, hsame _⟩
  · next hquery =>
      rw [if_neg hquery]
      split at hfield
      · next hquery =>
          cases hfield
          rw [if_pos hquery]
          exact ⟨_, rfl, rfl, hsame _⟩
      · next hquery =>
          rw [if_neg hquery]
          cases htype : parent.bind schema.type? with
          | none =>
              rw [htype] at hfield
              cases hfield
          | some type =>
              obtain ⟨parent, rfl, htype'⟩ := Option.bind_eq_some_iff.mp htype
              obtain ⟨found, hfound, hextends⟩ := h.types parent type htype'
              rw [htype] at hfield
              rw [Option.bind_some, hfound]
              dsimp only at hfield ⊢
              rw [TypeDef.isComposite_of_kind hextends.kind]
              split at hfield
              · next hname =>
                  cases hfield
                  rw [if_pos hname]
                  exact ⟨_, rfl, rfl, hsame _⟩
              · next hname =>
                  rw [if_neg hname]
                  exact field_of_types hlegible hwide htype' hfound hextends hfield

theorem stays_inputField? (h : wide.Extends schema) {type wideType : Option TypeRef}
    (hstays : Stays type wideType) (name : String) :
    Stays (schema.inputField? type name) (wide.inputField? wideType name) := by
  rw [TypeContext.inputField?_eq, TypeContext.inputField?_eq]
  cases hbefore : type.bind fun type => schema.type? type.base with
  | none =>
      intro found hfound
      cases hfound
  | some before =>
      obtain ⟨type, rfl, htype⟩ := Option.bind_eq_some_iff.mp hbefore
      obtain ⟨found, hfound, hextends⟩ := h.types type.base before htype
      rw [hstays type rfl, Option.bind_some, hfound]
      exact hextends.inputFields.stay (hlegible.type? htype).2 (hwide.type? hfound).2 name

theorem covers_within (h : wide.Extends schema) {around wideAround : Scope}
    (haround : wideAround.Covers around) (node : Node)
    (hdirective : node.kind = .directive → (schema.directive? (node.name?.getD "")).isSome) :
    (wideAround.within wide .standard node).Covers (around.within schema .standard node) := by
  have hcondition (condition : Node) :
      Scope.Covers { wideAround with type := wide.typeOf? condition }
        { around with type := schema.typeOf? condition } :=
    { haround with type := h.stays_typeOf? condition }
  unfold Scope.within
  dsimp only
  cases hkind : node.kind with
  | selectionSet =>
      have hparent := (haround.type.map TypeRef.base).filter h.composite
      exact { haround with parent := hparent }
  | field =>
      have hfield (field : FieldDef) (hfound : (around.parent.bind fun parent =>
          FieldLookup.standard schema parent node) = some field) :
          ∃ found, (wideAround.parent.bind fun parent =>
            FieldLookup.standard wide parent node) = some found ∧ found.type = field.type ∧
              InputDef.Stay field.arguments found.arguments := by
        obtain ⟨parent, hparent, hfound⟩ := Option.bind_eq_some_iff.mp hfound
        rw [haround.parent parent hparent]
        exact field? hlegible hwide h hfound
      refine { haround with type := ?_, field := ?_ }
      · intro type htype
        obtain ⟨field, hfound, rfl⟩ := Option.map_eq_some_iff.mp htype
        obtain ⟨found, hthere, htype, -⟩ := hfield field hfound
        rw [hthere, Option.map_some, htype]
      · intro field hfound
        obtain ⟨found, hthere, -, hstay⟩ := hfield field hfound
        exact ⟨found, hthere, hstay⟩
  | operationDefinition => exact { haround with type := h.stays_rootType? node }
  | inlineFragment =>
      cases node.child? .typeCondition with
      | some condition => exact hcondition condition
      | none => exact haround
  | fragmentDefinition =>
      cases node.child? .typeCondition with
      | some condition => exact hcondition condition
      | none => exact haround
  | variableDefinition => exact { haround with input := (Stays.same _).bind h.stays_typeOf? }
  | directive =>
      obtain ⟨directive, hknown⟩ := Option.isSome_iff_exists.mp (hdirective hkind)
      obtain ⟨found, hfound, hkept⟩ := h.directives _ directive hknown
      refine { haround with noDirective := ?_, directive := ?_ }
      · intro hnone
        rw [hknown] at hnone
        cases hnone
      · intro other hother
        rw [hknown] at hother
        cases hother
        exact ⟨found, hfound,
          hkept.stay (hlegible.directive? hknown) (hwide.directive? hfound)⟩
  | argument =>
      exact { haround with
        input := haround.openArguments _
        argument := haround.openArguments.isSome }
  | listValue => exact { haround with input := haround.input.bind fun type => Stays.same _ }
  | objectField =>
      exact { haround with input := stays_inputField? hlegible hwide h haround.input _ }
  | _ => exact haround

/-- What applies along the paths of a document stays, if the narrower schema knows its directives.
-/
theorem covers_places (h : wide.Extends schema) {forest : Forest} {above : List Node}
    (habove : (Scope.along wide .standard above).Covers (Scope.along schema .standard above))
    (hdirectives : ∀ place ∈ forest.places above, place.node.kind = .directive →
      (schema.directive? (place.node.name?.getD "")).isSome) :
    ∀ place ∈ forest.places above,
      (Scope.along wide .standard place.path).Covers (Scope.along schema .standard place.path) := by
  induction forest generalizing above with
  | nil => exact List.forall_mem_nil _
  | cons role head children rest ihchildren ihrest =>
      rw [Forest.places, List.forall_mem_cons, List.forall_mem_append] at hdirectives ⊢
      obtain ⟨hhead, hchildren, hrest⟩ := hdirectives
      have hnode : (Scope.along wide .standard (above ++ [⟨head, children⟩])).Covers
          (Scope.along schema .standard (above ++ [⟨head, children⟩])) := by
        rw [Scope.along_append, Scope.along_append]
        exact covers_within hlegible hwide h habove _ hhead
      exact ⟨hnode, ihchildren hnode hchildren, ihrest habove hrest⟩

end Legible

end Schema.Extends

/-! ## Traces under a wider schema -/

/-- An entry with all that another one says. -/
structure Entry.Keeps (wide entry : Entry) : Prop where
  kind : wide.kind = entry.kind
  name : wide.name = entry.name
  depth : wide.depth = entry.depth
  line : wide.line = entry.line
  column : wide.column = entry.column
  resolved : entry.resolved = true → wide.resolved = true
  type : Stays entry.type wide.type
  parent : Stays entry.parent wide.parent
  input : Stays entry.input wide.input

theorem Scope.Covers.isResolved {wide scope : Scope} (h : wide.Covers scope) {node : Node}
    (hresolved : Trace.isResolved node scope = true) : Trace.isResolved node wide = true := by
  unfold Trace.isResolved at hresolved ⊢
  cases hkind : node.kind with
  | field =>
      rw [hkind] at hresolved
      obtain ⟨field, hfield⟩ := Option.isSome_iff_exists.mp hresolved
      obtain ⟨found, hfound, -⟩ := h.field field hfield
      exact Option.isSome_iff_exists.mpr ⟨found, hfound⟩
  | directive =>
      rw [hkind] at hresolved
      obtain ⟨directive, hdirective⟩ := Option.isSome_iff_exists.mp hresolved
      obtain ⟨found, hfound, -⟩ := h.directive directive hdirective
      exact Option.isSome_iff_exists.mpr ⟨found, hfound⟩
  | argument =>
      rw [hkind] at hresolved
      exact h.argument hresolved
  | operationDefinition =>
      rw [hkind] at hresolved
      exact h.type.isSome hresolved
  | fragmentDefinition =>
      rw [hkind] at hresolved
      exact h.type.isSome hresolved
  | inlineFragment =>
      rw [hkind] at hresolved
      dsimp only at hresolved ⊢
      rw [Bool.or_eq_true] at hresolved ⊢
      exact hresolved.imp_right h.type.isSome
  | variableDefinition =>
      rw [hkind] at hresolved
      exact h.input.isSome hresolved
  | objectField =>
      rw [hkind] at hresolved
      exact h.input.isSome hresolved
  | _ => rfl

theorem Scope.Covers.keeps {wide scope : Scope} (h : wide.Covers scope) (node : Node)
    (depth : Int) : (Trace.entryOf node wide depth).Keeps (Trace.entryOf node scope depth) where
  kind := rfl
  name := rfl
  depth := rfl
  line := rfl
  column := rfl
  resolved := h.isResolved
  type := h.type.map TypeRef.text
  parent := h.parent
  input := h.input.map TypeRef.text

theorem Scope.covers_absent : Scope.absent.Covers Scope.absent where
  type := Stays.same _
  parent := Stays.same _
  input := Stays.same _
  field := fun _ h => by cases h
  noDirective := id
  directive := fun _ h => by cases h
  argument := id

/-- Under a wider schema a document has the same entries, and each of them says at least what it
said before, if the narrower schema knows all directives of the document. -/
theorem Trace.extension_keeps {sdl wideSdl text : String} {schema wide : Schema} {document : Node}
    (kinds : List String) (hschema : Schema.ofText sdl = .ok schema)
    (hwide : Schema.ofText wideSdl = .ok wide) (hextends : wide.Extends schema)
    (hparse : Node.parse text = .ok document)
    (hdirectives : ∀ place ∈ document.places, place.node.kind = .directive →
      (schema.directive? (place.node.name?.getD "")).isSome) :
    ∃ wideEntries entries, Trace.ofDocument wide .standard kinds document = .ok wideEntries ∧
      Trace.ofDocument schema .standard kinds document = .ok entries ∧
      List.Forall₂ Entry.Keeps wideEntries entries := by
  have hdocument := Node.wellFormed_of_parse hparse
  rw [Node.places_eq] at hdirectives
  have hroot : (Scope.along wide .standard []).Covers (Scope.along schema .standard []) :=
    Scope.covers_absent
  have hcovers := Schema.Extends.covers_places (Schema.legible_of_ofText hschema)
    (Schema.legible_of_ofText hwide) hextends hroot hdirectives
  refine ⟨_, _, Trace.ofDocument_eq hdocument, Trace.ofDocument_eq hdocument, ?_⟩
  rw [Trace.entriesAt, Trace.entriesAt, List.forall₂_map_left_iff, List.forall₂_map_right_iff,
    Node.places_eq]
  refine List.forall₂_same.mpr fun place hplace => ?_
  exact (hcovers place (List.mem_of_mem_filter hplace)).keeps _ _

/-- An argument and a field of an input object that only the wider schema knows, and a field that
neither knows. -/
theorem Trace.extension_keeps_references :
    ∃ schema wide document,
      Schema.ofText "type Query { a(x: Int): Query }" = .ok schema ∧
        Schema.ofText "type Query { a(x: Int y: In): Query } input In { n: Int }" = .ok wide ∧
        Node.parse "{ a(x: 1 y: {n: 2}) @skip(if: true) { b } }" = .ok document ∧
        wide.Extends schema ∧
        (∀ place ∈ document.places, place.node.kind = .directive →
          (schema.directive? (place.node.name?.getD "")).isSome) ∧
        ∃ wideEntries entries,
          Trace.ofDocument wide .standard ["field", "argument", "object_field"] document =
            .ok wideEntries ∧
          Trace.ofDocument schema .standard ["field", "argument", "object_field"] document =
            .ok entries ∧ List.Forall₂ Entry.Keeps wideEntries entries := by
  have hruns : (match Schema.ofText "type Query { a(x: Int): Query }",
      Schema.ofText "type Query { a(x: Int y: In): Query } input In { n: Int }",
      Node.parse "{ a(x: 1 y: {n: 2}) @skip(if: true) { b } }" with
      | .ok schema, .ok wide, .ok document =>
          wide.isWider schema && document.places.all fun place =>
            place.node.kind != .directive || (schema.directive? (place.node.name?.getD "")).isSome
      | _, _, _ => false) = true := by decide +kernel
  split at hruns
  · next schema wide document hschema hwide hparse =>
    obtain ⟨hwider, hknown⟩ := Bool.and_eq_true_iff.mp hruns
    have hextends := Schema.extends_of_isWider hwider
    have hdirectives : ∀ place ∈ document.places, place.node.kind = .directive →
        (schema.directive? (place.node.name?.getD "")).isSome := by
      intro place hplace hkind
      simpa [hkind] using List.all_eq_true.mp hknown place hplace
    exact ⟨schema, wide, document, hschema, hwide, hparse, hextends, hdirectives,
      Trace.extension_keeps ["field", "argument", "object_field"] hschema hwide hextends hparse
        hdirectives⟩
  · cases hruns

end TypeTrace
