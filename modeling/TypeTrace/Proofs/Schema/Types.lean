import TypeTrace.Context
import TypeTrace.Proofs.Grammar.Reading
import TypeTrace.Proofs.Results
import TypeTrace.Schema.Build

/-! # The types that a schema refers to

A schema refers to types as those of its fields and as those of its arguments and input fields. In a
schema that was built, each of them is written by a node of the text or belongs to the language. The
name in such a type holds no bracket and no exclamation mark, so that the type's text tells the
type.
-/

namespace TypeTrace

/-! ## Types and their texts -/

namespace TypeRef

/-- The name in the type is a name of the language. -/
def Legible (type : TypeRef) : Prop := IsName type.base

instance : DecidablePred Legible := fun type => inferInstanceAs (Decidable (IsName type.base))

/-- A name holds none of the marks that lists and non-null types end with. -/
theorem Legible.text_ne {name front : String} (h : (named name).Legible) (mark : Char)
    (hmark : Lexeme.isNamePart mark = false) : name ≠ front ++ String.singleton mark := by
  rintro rfl
  have hpart := h mark (by simp [base])
  rw [hmark] at hpart
  cases hpart

theorem text_list_ne_text_nonNull (item inner : TypeRef) :
    (list item).text ≠ (nonNull inner).text := by
  intro h
  have hlast := congrArg (fun text : String => text.toList.reverse.head?) h
  simp [text] at hlast

/-- The text of a type tells the type. -/
theorem Legible.eq_of_text {a b : TypeRef} (ha : a.Legible) (hb : b.Legible)
    (h : a.text = b.text) : a = b := by
  induction a generalizing b with
  | named name =>
      cases b with
      | named other => exact congrArg named h
      | list item => exact absurd h (ha.text_ne ']' (by decide))
      | nonNull inner => exact absurd h (ha.text_ne '!' (by decide))
  | list item ih =>
      cases b with
      | named other => exact absurd h.symm (hb.text_ne ']' (by decide))
      | list other =>
          have htext : item.text = other.text := by simpa [text] using h
          have hitem : item = other := ih ha hb htext
          rw [hitem]
      | nonNull inner => exact absurd h (text_list_ne_text_nonNull item inner)
  | nonNull inner ih =>
      cases b with
      | named other => exact absurd h.symm (hb.text_ne '!' (by decide))
      | list item => exact absurd h.symm (text_list_ne_text_nonNull item inner)
      | nonNull other =>
          have htext : inner.text = other.text := by simpa [text] using h
          have hinner : inner = other := ih ha hb htext
          rw [hinner]

theorem legible_ofForest? {kind : Kind} {forest : Forest} {bound : Nat} {type : TypeRef}
    (hforest : forest.WellFormed bound) (h : ofForest? kind forest = some type) :
    type.Legible := by
  induction forest generalizing kind bound type with
  | nil => cases h
  | cons role head children rest ihchildren ihrest =>
      obtain ⟨⟨hlayer, hrole, hcondition, hlexical⟩, hchildren, hrest⟩ := hforest
      unfold ofForest? at h
      split at h
      · split at h
        · next heq =>
            subst heq
            have hnode : (⟨head, children⟩ : Node).WellFormed Role.name.layer :=
              ⟨hrole, hchildren, hcondition, hlexical⟩
            obtain ⟨text, htext, hname⟩ := hnode.text?_of_name
            rw [htext] at h
            cases h
            exact hname
        · exact ihrest hrest h
      · split at h
        · obtain ⟨item, hitem, rfl⟩ := Option.map_eq_some_iff.mp h
          have hlegible : item.Legible := ihchildren hchildren hitem
          exact hlegible
        · exact ihrest hrest h
      · split at h
        · obtain ⟨inner, hinner, rfl⟩ := Option.map_eq_some_iff.mp h
          have hlegible : inner.Legible := ihchildren hchildren hinner
          exact hlegible
        · exact ihrest hrest h
      · cases h

end TypeRef

theorem Node.WellFormed.legible {node : Node} {layer : Nat} {type : TypeRef}
    (h : node.WellFormed layer) (htype : node.typeRef? = some type) : type.Legible :=
  TypeRef.legible_ofForest? h.children htype

/-! ## References of a schema -/

variable {output input : TypeRef → Prop}

/-- The type of a field is of one sort, and those of its arguments of another. -/
def FieldDef.Refers (output input : TypeRef → Prop) (field : FieldDef) : Prop :=
  output field.type ∧ ∀ argument ∈ field.arguments, input argument.type

def TypeDef.Refers (output input : TypeRef → Prop) (type : TypeDef) : Prop :=
  (∀ field ∈ type.fields, field.Refers output input) ∧ ∀ field ∈ type.inputFields, input field.type

instance [DecidablePred output] [DecidablePred input] (field : FieldDef) :
    Decidable (field.Refers output input) :=
  inferInstanceAs
    (Decidable (output field.type ∧ ∀ argument ∈ field.arguments, input argument.type))

instance [DecidablePred output] [DecidablePred input] (type : TypeDef) :
    Decidable (type.Refers output input) :=
  inferInstanceAs (Decidable ((∀ field ∈ type.fields, field.Refers output input) ∧
    ∀ field ∈ type.inputFields, input field.type))

theorem TypeDef.Refers.mono {output' input' : TypeRef → Prop} {type : TypeDef}
    (h : type.Refers output input) (houtput : ∀ type, output type → output' type)
    (hinput : ∀ type, input type → input' type) : type.Refers output' input' := by
  constructor
  · intro field hfield
    obtain ⟨htype, harguments⟩ := h.1 field hfield
    exact ⟨houtput _ htype, fun argument hargument => hinput _ (harguments argument hargument)⟩
  · intro field hfield
    exact hinput _ (h.2 field hfield)

/-- All that a schema refers to as the types of fields is of one sort, and all that it refers to as
the types of arguments and input fields is of another. This includes the fields that no text
defines. -/
structure Schema.Refers (output input : TypeRef → Prop) (schema : Schema) : Prop where
  types : ∀ named ∈ schema.types, named.2.Refers output input
  directives : ∀ directive ∈ schema.directives, ∀ argument ∈ directive.arguments,
    input argument.type
  metaFields : ∀ field ∈ [schemaField, typeField, typenameField], field.Refers output input

theorem InputDef.mem_of_find? {name : String} {inputs : List InputDef} {found : InputDef}
    (h : InputDef.find? name inputs = some found) : found ∈ inputs := List.mem_of_find?_eq_some h

namespace Schema

namespace Refers

variable {schema : Schema}

theorem type? (h : schema.Refers output input) {name : String} {type : TypeDef}
    (htype : schema.type? name = some type) : type.Refers output input :=
  h.types (name, type) (mem_of_lookup htype)

theorem directive? (h : schema.Refers output input) {name : String} {directive : DirectiveDef}
    (hdirective : schema.directive? name = some directive) :
    ∀ argument ∈ directive.arguments, input argument.type :=
  h.directives directive (List.mem_of_find?_eq_some hdirective)

theorem field? (h : schema.Refers output input) {parent : Option String} {name : String}
    {field : FieldDef} (hfield : schema.field? parent name = some field) :
    field.Refers output input := by
  unfold Schema.field? at hfield
  split at hfield
  · cases hfield
    exact h.metaFields _ (by simp)
  · split at hfield
    · cases hfield
      exact h.metaFields _ (by simp)
    · split at hfield
      · cases hfield
      · next type htype =>
        obtain ⟨found, -, hfound⟩ := Option.bind_eq_some_iff.mp htype
        split at hfield
        · cases hfield
          exact h.metaFields _ (by simp)
        · exact (h.type? hfound).1 field (List.mem_of_find?_eq_some hfield)

end Refers

end Schema

end TypeTrace
