import TypeTrace.Proofs.Schema.Types

/-! # What a schema is built from

Each type of a built schema is one of the language or put together from nodes of the text, and so is
each directive. Whatever holds of the types that these refer to holds of all types that the schema
refers to. In particular all of them are legible.
-/

namespace TypeTrace

variable {output input : TypeRef → Prop}

namespace Schema

/-! ## Nodes behind types -/

theorem exists_type_of_inputOf? {node : Node} {declared : InputDef}
    (h : inputOf? node = some declared) :
    ∃ type, node.child? .type = some type ∧ type.typeRef? = some declared.type := by
  obtain ⟨name, -, h⟩ := Option.bind_eq_some_iff.mp h
  obtain ⟨type, htype, h⟩ := Option.bind_eq_some_iff.mp h
  obtain ⟨ref, href, h⟩ := Option.bind_eq_some_iff.mp h
  cases h
  exact ⟨type, htype, href⟩

theorem exists_type_of_fieldOf? {node : Node} {declared : FieldDef}
    (h : fieldOf? node = some declared) :
    (∃ type, node.child? .type = some type ∧ type.typeRef? = some declared.type) ∧
      declared.arguments = (node.childList .arguments).filterMap inputOf? := by
  obtain ⟨name, -, h⟩ := Option.bind_eq_some_iff.mp h
  obtain ⟨type, htype, h⟩ := Option.bind_eq_some_iff.mp h
  obtain ⟨ref, href, h⟩ := Option.bind_eq_some_iff.mp h
  cases h
  exact ⟨⟨type, htype, href⟩, rfl⟩

theorem exists_node_of_field {kind : Kind} {nodes : List Node} {field : FieldDef}
    (h : field ∈ (typeOfParts kind nodes).fields) :
    ∃ node ∈ nodes.flatMap fun n => n.childList .fields, fieldOf? node = some field := by
  unfold typeOfParts at h
  dsimp only at h
  split at h
  · exact List.mem_filterMap.mp h
  · exact List.mem_filterMap.mp h
  all_goals cases h

theorem exists_node_of_inputField {kind : Kind} {nodes : List Node} {field : InputDef}
    (h : field ∈ (typeOfParts kind nodes).inputFields) :
    ∃ node ∈ nodes.flatMap fun n => n.childList .fields, inputOf? node = some field := by
  unfold typeOfParts at h
  dsimp only at h
  split at h
  case h_5 => exact List.mem_filterMap.mp h
  all_goals cases h

/-- A type that is defined is the language's own if it bears a name of the language, and else it is
what its nodes make of it. -/
theorem mem_definedTypes {parts : Parts} {named : String × TypeDef}
    (h : named ∈ definedTypes parts) :
    standardTypes.lookup named.1 = some named.2 ∨
      standardTypes.lookup named.1 = none ∧
        ∃ kind, named.2 = typeOfParts kind (parts.ofType named.1) := by
  obtain ⟨node, -, hnode⟩ := List.mem_filterMap.mp h
  obtain ⟨name, -, rfl⟩ := Option.map_eq_some_iff.mp hnode
  cases hstandard : standardTypes.lookup name with
  | some type => exact Or.inl hstandard
  | none => exact Or.inr ⟨hstandard, node.kind, rfl⟩

/-! ## Built schemas -/

/-- What holds of the types that the language and the nodes refer to holds of all that a schema
refers to. -/
theorem refers_assemble {parts : Parts}
    (hstandard : ∀ named ∈ standardTypes, named.2.Refers output input)
    (hdefined : ∀ named ∈ definedTypes parts, named.2.Refers output input)
    (hdirectives : ∀ use ∈ parts.directiveDefinitions.filterMap directiveUse? ++ standardDirectives,
      ∀ argument ∈ use.arguments, input argument.type)
    (hmeta : ∀ field ∈ [schemaField, typeField, typenameField], field.Refers output input) :
    (assemble parts).Refers output input := by
  have hbuiltIn : builtIn ⊆ standardTypes := by decide +kernel
  refine ⟨?_, ?_, hmeta⟩
  · intro named hnamed
    rcases List.mem_append.mp hnamed with hnamed | hnamed
    · rcases List.mem_append.mp hnamed with hnamed | hnamed
      · exact hdefined named hnamed
      · obtain ⟨name, -, rfl⟩ := List.mem_map.mp hnamed
        exact ⟨List.forall_mem_nil _, List.forall_mem_nil _⟩
    · exact hstandard named (hbuiltIn (List.mem_filter.mp hnamed).1)
  · intro directive hdirective argument hargument
    obtain ⟨use, huse, rfl⟩ := List.mem_map.mp hdirective
    refine hdirectives use (List.mem_append.mpr ?_) argument hargument
    exact (List.mem_append.mp huse).imp_right fun huse => (List.mem_filter.mp huse).1

theorem exists_node_of_directiveUse? {node : Node} {use : DirectiveUse} {argument : InputDef}
    (h : directiveUse? node = some use) (hargument : argument ∈ use.arguments) :
    ∃ source ∈ node.childList .arguments, inputOf? source = some argument := by
  obtain ⟨name, -, h⟩ := Option.bind_eq_some_iff.mp h
  cases h
  exact List.mem_filterMap.mp hargument

/-- A text becomes a schema by way of a document whose definitions pass the checks. -/
theorem exists_of_ofText {sdl : String} {schema : Schema} (h : ofText sdl = .ok schema) :
    ∃ document : Node, document.WellFormed 5 ∧
      Workshop.check ⟨⟨document.childList .definitions⟩,
        definedTypes ⟨document.childList .definitions⟩⟩ (document.children.size + 1) = .ok () ∧
      assemble ⟨document.childList .definitions⟩ = schema := by
  unfold ofText at h
  split at h
  · next document hparse =>
      unfold ofDocument at h
      dsimp only at h
      split at h
      · split at h
        · next hcheck =>
            cases h
            exact ⟨document, Node.wellFormed_of_parse hparse, hcheck, rfl⟩
        · cases h
      · cases h
  · cases h

theorem mem_definitions_of_ofType {parts : Parts} {name : String} {node : Node}
    (h : node ∈ parts.ofType name) : node ∈ parts.definitions := by
  rcases List.mem_append.mp h with h | h
  · exact (List.mem_filter.mp h).1
  · exact (List.mem_filter.mp h).1

theorem legible_of_inputOf? {node : Node} {layer : Nat} {declared : InputDef}
    (hnode : node.WellFormed layer) (h : inputOf? node = some declared) :
    declared.type.Legible := by
  obtain ⟨type, htype, href⟩ := exists_type_of_inputOf? h
  exact (hnode.children.of_find? htype).legible href

theorem legible_of_fieldOf? {node : Node} {layer : Nat} {declared : FieldDef}
    (hnode : node.WellFormed layer) (h : fieldOf? node = some declared) :
    declared.Refers TypeRef.Legible TypeRef.Legible := by
  obtain ⟨⟨type, htype, href⟩, harguments⟩ := exists_type_of_fieldOf? h
  refine ⟨(hnode.children.of_find? htype).legible href, ?_⟩
  rw [harguments]
  intro argument hargument
  obtain ⟨source, hsource, heq⟩ := List.mem_filterMap.mp hargument
  exact legible_of_inputOf? (hnode.children.of_mem_withRole hsource) heq

/-- All types that a built schema refers to are legible. -/
theorem legible_of_ofText {sdl : String} {schema : Schema} (h : ofText sdl = .ok schema) :
    schema.Refers TypeRef.Legible TypeRef.Legible := by
  obtain ⟨document, hdocument, -, rfl⟩ := exists_of_ofText h
  have hdefinition (node : Node) (hnode : node ∈ document.childList .definitions) :
      node.WellFormed 5 := hdocument.children.of_mem_withRole hnode
  have hpart (name : String) (node : Node)
      (hnode : node ∈ ((⟨document.childList .definitions⟩ : Parts).ofType name).flatMap
        fun n => n.childList .fields) : node.WellFormed 5 := by
    obtain ⟨definition, hdefines, hnode⟩ := List.mem_flatMap.mp hnode
    have hwell := hdefinition definition (mem_definitions_of_ofType hdefines)
    exact hwell.children.of_mem_withRole hnode
  have hstandard : ∀ named ∈ standardTypes, named.2.Refers TypeRef.Legible TypeRef.Legible := by
    decide +kernel
  refine refers_assemble hstandard ?_ ?_ (by decide +kernel)
  · intro named hnamed
    rcases mem_definedTypes hnamed with hlookup | ⟨-, kind, htype⟩
    · exact hstandard named (mem_of_lookup hlookup)
    · rw [htype]
      constructor
      · intro field hfield
        obtain ⟨node, hnode, heq⟩ := exists_node_of_field hfield
        exact legible_of_fieldOf? (hpart named.1 node hnode) heq
      · intro field hfield
        obtain ⟨node, hnode, heq⟩ := exists_node_of_inputField hfield
        exact legible_of_inputOf? (hpart named.1 node hnode) heq
  · intro use huse
    rcases List.mem_append.mp huse with huse | huse
    · obtain ⟨node, hnode, hdefines⟩ := List.mem_filterMap.mp huse
      have hwell := hdefinition node (List.mem_filter.mp hnode).1
      intro argument hargument
      obtain ⟨source, hsource, heq⟩ := exists_node_of_directiveUse? hdefines hargument
      exact legible_of_inputOf? (hwell.children.of_mem_withRole hsource) heq
    · have hall : ∀ use ∈ standardDirectives, ∀ argument ∈ use.arguments,
          argument.type.Legible := by decide +kernel
      exact hall use huse

end Schema

end TypeTrace
