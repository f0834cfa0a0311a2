import TypeTrace.Proofs.Schema.Build

/-! # The sorts of types that a schema refers to

Definitions become a schema only if each field has an output type and each argument and input field
an input type. The checks ask this of the definitions, before the schema is put together; what they
find of a name is what the schema has under it, since the schema keeps every type of the language
that it mentions.
-/

namespace TypeTrace

/-! ## What the checks ask -/

namespace Schema.Workshop

variable {w : Workshop} {fuel : Nat}

theorem ok_of_firstFault {α : Type} {check : α → Except BuildFault Unit} {as : List α}
    (h : firstFault check as = .ok ()) : ∀ a ∈ as, check a = .ok () := by
  induction as with
  | nil => exact List.forall_mem_nil _
  | cons a as ih =>
      obtain ⟨⟨⟩, hfirst, hrest⟩ := exists_of_bind_eq_ok h
      exact List.forall_mem_cons.mpr ⟨hfirst, ih hrest⟩

theorem ok_of_mapError {ε ε' α : Type} {f : ε → ε'} {x : Except ε α} {a : α}
    (h : x.mapError f = .ok a) : x = .ok a := by
  cases x with
  | error fault => cases h
  | ok b => exact congrArg Except.ok (Except.ok.inj h)

theorem isInput_of_checkInput {fault : BuildFault} {node : Node} {input : InputDef}
    (h : w.checkInput (fuel + 1) fault node = .ok ()) (hinput : inputOf? node = some input) :
    w.isInput input.type := by
  have hlast (h : (if w.isInput input.type then Except.ok () else .error fault) = .ok ()) :
      w.isInput input.type := by
    split at h
    · assumption
    · cases h
  unfold checkInput at h
  rw [hinput] at h
  dsimp only at h
  split at h
  · obtain ⟨⟨⟩, -, h⟩ := exists_of_bind_eq_ok h
    exact hlast h
  · obtain ⟨⟨⟩, -, h⟩ := exists_of_bind_eq_ok h
    exact hlast h

theorem refers_of_checkField {node : Node} {field : FieldDef}
    (h : w.checkField (fuel + 1) node = .ok ()) (hfield : fieldOf? node = some field) :
    field.Refers (w.isOutput ·) (w.isInput ·) := by
  obtain ⟨⟨⟩, harguments, h⟩ := exists_of_bind_eq_ok h
  obtain ⟨-, hdeclared⟩ := exists_type_of_fieldOf? hfield
  rw [hfield] at h
  dsimp only at h
  constructor
  · split at h
    · assumption
    · cases h
  · rw [hdeclared]
    intro argument hargument
    obtain ⟨source, hsource, heq⟩ := List.mem_filterMap.mp hargument
    exact isInput_of_checkInput (ok_of_firstFault harguments source hsource) heq

theorem refers_of_checkFields {name : String} (kind : Kind) {fault : BuildFault → BuildFault}
    (h : (firstFault (w.checkField (fuel + 1))
      ((w.parts.ofType name).flatMap fun n => n.childList .fields)).mapError fault = .ok ()) :
    ∀ field ∈ (typeOfParts kind (w.parts.ofType name)).fields,
      field.Refers (w.isOutput ·) (w.isInput ·) := by
  intro field hfield
  obtain ⟨node, hnode, heq⟩ := exists_node_of_field hfield
  exact refers_of_checkField (ok_of_firstFault (ok_of_mapError h) node hnode) heq

theorem isInput_of_checkInputFields {name : String} (kind : Kind)
    (h : w.checkInputFields (fuel + 2) name = .ok ()) :
    ∀ field ∈ (typeOfParts kind (w.parts.ofType name)).inputFields, w.isInput field.type := by
  intro field hfield
  obtain ⟨node, hnode, heq⟩ := exists_node_of_inputField hfield
  unfold checkInputFields at h
  exact isInput_of_checkInput (ok_of_firstFault (ok_of_mapError h) node hnode) heq

/-- What the nodes of a type make of it refers to types of the right sorts, once it is checked. -/
theorem refers_of_checkType {name : String} {kind : Kind}
    (h : w.checkType (fuel + 2) name (typeOfParts kind (w.parts.ofType name)) = .ok ()) :
    (typeOfParts kind (w.parts.ofType name)).Refers (w.isOutput ·) (w.isInput ·) := by
  cases htype : typeOfParts kind (w.parts.ofType name) with
  | scalar => exact ⟨List.forall_mem_nil _, List.forall_mem_nil _⟩
  | union members => exact ⟨List.forall_mem_nil _, List.forall_mem_nil _⟩
  | enum values => exact ⟨List.forall_mem_nil _, List.forall_mem_nil _⟩
  | object interfaces fields =>
      rw [htype] at h
      obtain ⟨⟨⟩, -, h⟩ := exists_of_bind_eq_ok h
      have hfields := refers_of_checkFields kind h
      rw [htype] at hfields
      exact ⟨hfields, List.forall_mem_nil _⟩
  | interface interfaces fields =>
      rw [htype] at h
      obtain ⟨⟨⟩, -, h⟩ := exists_of_bind_eq_ok h
      have hfields := refers_of_checkFields kind h
      rw [htype] at hfields
      exact ⟨hfields, List.forall_mem_nil _⟩
  | inputObject fields =>
      rw [htype] at h
      have hfields := isInput_of_checkInputFields kind h
      rw [htype] at hfields
      exact ⟨List.forall_mem_nil _, hfields⟩

/-- A document that passes the checks defines types and directives that refer to types of the right
sorts. -/
theorem refers_of_check {parts : Parts}
    (h : check ⟨parts, definedTypes parts⟩ (fuel + 2) = .ok ()) :
    (∀ named ∈ definedTypes parts, standardTypes.lookup named.1 = none →
      named.2.Refers (isOutput ⟨parts, definedTypes parts⟩ ·)
        (isInput ⟨parts, definedTypes parts⟩ ·)) ∧
    ∀ use ∈ parts.directiveDefinitions.filterMap directiveUse?, ∀ argument ∈ use.arguments,
      isInput ⟨parts, definedTypes parts⟩ argument.type := by
  obtain ⟨⟨⟩, hdirectives, htypes⟩ := exists_of_bind_eq_ok h
  constructor
  · intro named hnamed hown
    have hchecked := ok_of_firstFault htypes named hnamed
    rcases mem_definedTypes hnamed with hstandard | ⟨-, kind, htype⟩
    · rw [hown] at hstandard
      cases hstandard
    · simp only [hown, Option.isSome_none, Bool.false_eq_true, if_false] at hchecked
      rw [htype] at hchecked ⊢
      exact refers_of_checkType hchecked
  · intro use huse argument hargument
    obtain ⟨node, hnode, hdefines⟩ := List.mem_filterMap.mp huse
    obtain ⟨source, hsource, heq⟩ := exists_node_of_directiveUse? hdefines hargument
    exact isInput_of_checkInput
      (ok_of_firstFault (ok_of_firstFault hdirectives node hnode) source hsource) heq

end Schema.Workshop

/-! ## What a schema has under a name -/

namespace Schema

theorem lookup_filter {types : List (String × TypeDef)} (keep : String → Bool) {name : String}
    (h : keep name = true) : (types.filter fun named => keep named.1).lookup name =
      types.lookup name := by
  induction types with
  | nil => rfl
  | cons named types ih =>
      obtain ⟨key, type⟩ := named
      rw [List.filter_cons, List.lookup_cons]
      by_cases heq : name = key
      · subst heq
        simp [h]
      · have hne : (name == key) = false := by simpa using heq
        rw [hne]
        split
        · rw [List.lookup_cons, hne]
          exact ih
        · exact ih

theorem lookup_scalars (names : List String) (name : String) :
    (names.map (·, TypeDef.scalar)).lookup name = if name ∈ names then some .scalar else none := by
  induction names with
  | nil => rfl
  | cons first names ih =>
      rw [List.map_cons, List.lookup_cons, ih]
      by_cases heq : name = first
      · simp [heq]
      · have hne : (name == first) = false := by simpa using heq
        simp [heq, hne]

theorem lookup_introspectionTypes {name : String} (h : name ∈ standardScalars) :
    introspectionTypes.lookup name = none := by
  have hall : ∀ name ∈ standardScalars, introspectionTypes.lookup name = none := by decide
  exact hall name h

/-- The scalars that every schema keeps. -/
theorem scalar_of_kept {name : String} (h : name ∈ ["String", "Boolean"]) :
    name ∈ standardScalars := by
  have hsubset : ["String", "Boolean"] ⊆ standardScalars := by decide
  exact hsubset h

theorem lookup_standardTypes (name : String) : standardTypes.lookup name =
    if name ∈ standardScalars then some .scalar else introspectionTypes.lookup name := by
  rw [standardTypes, List.lookup_append, lookup_scalars]
  split <;> rfl

theorem lookup_builtIn (name : String) : builtIn.lookup name =
    if name ∈ ["String", "Boolean"] then some .scalar else introspectionTypes.lookup name := by
  change (["String", "Boolean"].map (·, TypeDef.scalar) ++ introspectionTypes).lookup name = _
  rw [List.lookup_append, lookup_scalars]
  split <;> rfl

theorem lookup_definedTypes {parts : Parts} {name : String} {type found : TypeDef}
    (hdefined : (definedTypes parts).lookup name = some found)
    (h : Workshop.type? ⟨parts, definedTypes parts⟩ name = some type) : found = type := by
  unfold Workshop.type? at h
  rcases mem_definedTypes (mem_of_lookup hdefined) with hstandard | ⟨hown, -⟩
  · rw [hstandard] at h
    exact Option.some.inj h
  · rw [hown, hdefined] at h
    exact Option.some.inj h

/-- The names that the definitions of a schema mention. -/
def used (parts : Parts) : List String :=
  ((definedTypes parts).flatMap fun named => mentioned named.2) ++
    ((assemble parts).directives.flatMap fun d => d.arguments.map fun a => a.type.base)

/-- The types of a schema are those that are defined, the scalars that they mention and those that
every schema has. -/
theorem types_assemble (parts : Parts) : ∃ names own, used parts ⊆ names ∧
    own = definedTypes parts ++ (standardScalars.filter fun name =>
      names.contains name && ((definedTypes parts).lookup name).isNone).map (·, .scalar) ∧
    (assemble parts).types = own ++ builtIn.filter fun named => (own.lookup named.1).isNone :=
  ⟨_, _, List.subset_append_left _ _, rfl, rfl⟩

theorem type?_of_defined {parts : Parts} {name : String} {type : TypeDef}
    (h : (definedTypes parts).lookup name = some type) :
    (assemble parts).type? name = some type := by
  obtain ⟨names, own, -, hown, htypes⟩ := types_assemble parts
  unfold Schema.type?
  rw [htypes, hown, List.lookup_append, List.lookup_append, h]
  rfl

/-- A name that no definition bears stands for a scalar of the language that is mentioned, or for
what it stands for in every schema. -/
theorem type?_of_undefined {parts : Parts} {name : String}
    (h : (definedTypes parts).lookup name = none) : ∃ names, used parts ⊆ names ∧
      (assemble parts).type? name =
        if name ∈ standardScalars ∧ name ∈ names then some .scalar else builtIn.lookup name := by
  obtain ⟨names, own, hused, hown, htypes⟩ := types_assemble parts
  have hscalars : own.lookup name =
      if name ∈ standardScalars ∧ name ∈ names then some TypeDef.scalar else none := by
    rw [hown, List.lookup_append, h, Option.none_or, lookup_scalars]
    simp [h]
  refine ⟨names, hused, ?_⟩
  unfold Schema.type?
  rw [htypes, List.lookup_append, hscalars]
  split
  · rfl
  · next hother =>
      rw [if_neg hother] at hscalars
      rw [Option.none_or]
      refine lookup_filter (fun name => (own.lookup name).isNone) ?_
      rw [hscalars]
      rfl

/-- What the checks find under a name that is mentioned or that every schema has is what the schema
has under it. -/
theorem type?_assemble {parts : Parts} {name : String} {type : TypeDef}
    (h : Workshop.type? ⟨parts, definedTypes parts⟩ name = some type)
    (hkept : name ∈ used parts ∨ (builtIn.lookup name).isSome) :
    (assemble parts).type? name = some type := by
  cases hdefined : (definedTypes parts).lookup name with
  | some found => rw [type?_of_defined hdefined, lookup_definedTypes hdefined h]
  | none =>
      obtain ⟨names, hused, htype⟩ := type?_of_undefined hdefined
      have hstandard : standardTypes.lookup name = some type := by
        unfold Workshop.type? at h
        rwa [hdefined, Option.or_none] at h
      rw [htype]
      by_cases hscalar : name ∈ standardScalars
      · rw [lookup_standardTypes, if_pos hscalar] at hstandard
        split
        · exact hstandard
        · next hunused =>
            have hthere := hkept.resolve_left fun h => hunused ⟨hscalar, hused h⟩
            rw [lookup_builtIn, lookup_introspectionTypes hscalar] at hthere ⊢
            split
            · exact hstandard
            · next hother =>
                rw [if_neg hother] at hthere
                cases hthere
      · rw [if_neg fun h => hscalar h.1, lookup_builtIn, if_neg fun h => hscalar (scalar_of_kept h)]
        rwa [lookup_standardTypes, if_neg hscalar] at hstandard

theorem type?_assemble_of_builtIn {parts : Parts} {name : String} {type : TypeDef}
    (h : builtIn.lookup name = some type) : (assemble parts).type? name = some type := by
  have hstandard : standardTypes.lookup name = some type := by
    rw [lookup_builtIn] at h
    rw [lookup_standardTypes]
    split at h
    · next hname => rwa [if_pos (scalar_of_kept hname)]
    · rw [if_neg, h]
      intro hscalar
      rw [lookup_introspectionTypes hscalar] at h
      cases h
  refine type?_assemble ?_ (Or.inr (Option.isSome_iff_exists.mpr ⟨type, h⟩))
  unfold Workshop.type?
  rw [hstandard]
  rfl

/-! ## Sorts -/

/-- A sort that the checks find of a type is its sort in the schema, if the schema mentions its
name. -/
theorem any_assemble {parts : Parts} {type : TypeRef} {sort : TypeDef → Bool}
    (h : (Workshop.type? ⟨parts, definedTypes parts⟩ type.base).any sort)
    (hused : type.base ∈ used parts) : ((assemble parts).type? type.base).any sort := by
  obtain ⟨found, hfound, hsort⟩ := (Option.any_eq_true _ _).mp h
  rw [type?_assemble hfound (Or.inl hused)]
  exact hsort

theorem any_assemble_of_builtIn {parts : Parts} {type : TypeRef} {sort : TypeDef → Bool}
    (h : (builtIn.lookup type.base).any sort) : ((assemble parts).type? type.base).any sort := by
  obtain ⟨found, hfound, hsort⟩ := (Option.any_eq_true _ _).mp h
  rw [type?_assemble_of_builtIn hfound]
  exact hsort

theorem refers_of_metaFields (parts : Parts) :
    ∀ field ∈ [schemaField, typeField, typenameField],
      field.Refers ((assemble parts).isOutput ·) ((assemble parts).isInput ·) := by
  have hall : ∀ field ∈ [schemaField, typeField, typenameField], field.Refers
      (fun type => (builtIn.lookup type.base).any TypeDef.isOutput)
      (fun type => (builtIn.lookup type.base).any TypeDef.isInput) := by decide +kernel
  intro field hfield
  obtain ⟨htype, harguments⟩ := hall field hfield
  exact ⟨any_assemble_of_builtIn htype, fun argument hargument =>
    any_assemble_of_builtIn (harguments argument hargument)⟩

/-- The types of the language refer to types that every schema has, of the right sorts. -/
theorem refers_of_standardTypes (parts : Parts) : ∀ named ∈ standardTypes,
    named.2.Refers ((assemble parts).isOutput ·) ((assemble parts).isInput ·) := by
  have hall : ∀ named ∈ standardTypes, named.2.Refers
      (fun type => (builtIn.lookup type.base).any TypeDef.isOutput)
      (fun type => (builtIn.lookup type.base).any TypeDef.isInput) := by decide +kernel
  intro named hnamed
  exact (hall named hnamed).mono (fun _ => any_assemble_of_builtIn) fun _ => any_assemble_of_builtIn

theorem mentioned_of_field {type : TypeDef} {field : FieldDef} (h : field ∈ type.fields) :
    field.type.base ∈ mentioned type ∧
      ∀ argument ∈ field.arguments, argument.type.base ∈ mentioned type := by
  have hmem (fields : List FieldDef) (hfield : field ∈ fields) (name : String)
      (hname : name ∈ field.type.base :: field.arguments.map fun a => a.type.base) :
      name ∈ fields.flatMap fun f => f.type.base :: f.arguments.map fun a => a.type.base :=
    List.mem_flatMap.mpr ⟨field, hfield, hname⟩
  have hargument (argument : InputDef) (hargument : argument ∈ field.arguments) :
      argument.type.base ∈ field.type.base :: field.arguments.map fun a => a.type.base :=
    List.mem_cons_of_mem _ (List.mem_map_of_mem hargument)
  cases type with
  | object interfaces fields =>
      exact ⟨hmem fields h _ List.mem_cons_self, fun a ha => hmem fields h _ (hargument a ha)⟩
  | interface interfaces fields =>
      exact ⟨hmem fields h _ List.mem_cons_self, fun a ha => hmem fields h _ (hargument a ha)⟩
  | _ => cases h

theorem mentioned_of_inputField {type : TypeDef} {field : InputDef} (h : field ∈ type.inputFields) :
    field.type.base ∈ mentioned type := by
  cases type with
  | inputObject fields => exact List.mem_map_of_mem h
  | _ => cases h

theorem refers_of_ownType {parts : Parts} {named : String × TypeDef}
    (hnamed : named ∈ definedTypes parts)
    (h : named.2.Refers (Workshop.isOutput ⟨parts, definedTypes parts⟩ ·)
      (Workshop.isInput ⟨parts, definedTypes parts⟩ ·)) :
    named.2.Refers ((assemble parts).isOutput ·) ((assemble parts).isInput ·) := by
  have hused {name : String} (hname : name ∈ mentioned named.2) : name ∈ used parts :=
    List.mem_append_left _ (List.mem_flatMap.mpr ⟨named, hnamed, hname⟩)
  constructor
  · intro field hfield
    obtain ⟨htype, harguments⟩ := mentioned_of_field hfield
    have hrefers := h.1 field hfield
    exact ⟨any_assemble hrefers.1 (hused htype), fun argument hargument =>
      any_assemble (hrefers.2 argument hargument) (hused (harguments argument hargument))⟩
  · intro field hfield
    exact any_assemble (h.2 field hfield) (hused (mentioned_of_inputField hfield))

theorem isInput_of_directive {parts : Parts} {use : DirectiveUse}
    (huse : use ∈ parts.directiveDefinitions.filterMap directiveUse?) {argument : InputDef}
    (hargument : argument ∈ use.arguments)
    (h : Workshop.isInput ⟨parts, definedTypes parts⟩ argument.type) :
    (assemble parts).isInput argument.type := by
  have hdirective : (⟨use.name, use.arguments⟩ : DirectiveDef) ∈ (assemble parts).directives :=
    List.mem_map.mpr ⟨use, List.mem_append_left _ huse, rfl⟩
  refine any_assemble h (List.mem_append_right _ (List.mem_flatMap.mpr ⟨_, hdirective, ?_⟩))
  exact List.mem_map_of_mem hargument

theorem refers_of_checked {parts : Parts} {fuel : Nat}
    (h : Workshop.check ⟨parts, definedTypes parts⟩ (fuel + 2) = .ok ()) :
    (assemble parts).Refers ((assemble parts).isOutput ·) ((assemble parts).isInput ·) := by
  obtain ⟨htypes, hdirectives⟩ := Workshop.refers_of_check h
  refine refers_assemble (refers_of_standardTypes parts) ?_ ?_ (refers_of_metaFields parts)
  · intro named hnamed
    rcases mem_definedTypes hnamed with hstandard | ⟨hown, -⟩
    · exact refers_of_standardTypes parts named (mem_of_lookup hstandard)
    · exact refers_of_ownType hnamed (htypes named hnamed hown)
  · intro use huse argument hargument
    rcases List.mem_append.mp huse with huse | huse
    · exact isInput_of_directive huse hargument (hdirectives use huse argument hargument)
    · have hall : ∀ use ∈ standardDirectives, ∀ argument ∈ use.arguments,
          (builtIn.lookup argument.type.base).any TypeDef.isInput := by decide +kernel
      exact any_assemble_of_builtIn (hall use huse argument hargument)

/-- In a schema that was built, fields have output types, and arguments and input fields have input
types. -/
theorem sorts_of_ofText {sdl : String} {schema : Schema} (h : ofText sdl = .ok schema) :
    schema.Refers (schema.isOutput ·) (schema.isInput ·) := by
  obtain ⟨document, -, hcheck, rfl⟩ := exists_of_ofText h
  cases hchildren : document.children with
  | nil =>
      -- Without definitions the checks have nothing to do, however far they may go.
      have hnone : document.childList .definitions = [] := by
        unfold Node.childList
        rw [hchildren]
        rfl
      rw [hnone]
      exact @refers_of_checked ⟨[]⟩ 0 rfl
  | cons role head children rest =>
      rw [hchildren] at hcheck
      exact refers_of_checked hcheck

end Schema

end TypeTrace
