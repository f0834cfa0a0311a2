import Mathlib.Data.List.Forall2
import TypeTrace.Proofs.Refinement
import TypeTrace.Trace

/-! # What a trace says

A trace has one entry for each node of the chosen kinds, in the order in which the nodes begin. The
collector's depth and the context that it reads are those of the path from the root, so an entry is
determined by its node and the nodes above it. An entry is unresolved exactly if its node dangles:
if what it names is not found where the path says that it has to be.
-/

namespace TypeTrace

/-! ## Nodes in shape -/

/-- Wherever a node stands in a forest that has the shape, it has the shape itself. -/
theorem Forest.WellFormed.of_mem_places {forest : Forest} {bound : Nat} {above : List Node}
    (h : forest.WellFormed bound) : ∀ place ∈ forest.places above, place.node.WellFormed 5 := by
  induction forest generalizing bound above with
  | nil => exact List.forall_mem_nil _
  | cons role head children rest ihchildren ihrest =>
      obtain ⟨⟨-, -, hcondition, hlexical⟩, hchildren, hrest⟩ := h
      intro place hplace
      rcases List.mem_cons.mp hplace with rfl | hplace
      · exact ⟨head.kind.layer_le, hchildren, hcondition, hlexical⟩
      · rcases List.mem_append.mp hplace with hplace | hplace
        · exact ihchildren hchildren place hplace
        · exact ihrest hrest place hplace

theorem Forest.WellFormed.condition {forest : Forest} {bound : Nat} {above : List Node}
    (h : forest.WellFormed bound) :
    ∀ place ∈ forest.places above, place.node.kind = .fragmentDefinition →
      (place.node.child? .typeCondition).isSome :=
  fun place hplace => (h.of_mem_places place hplace).condition

theorem Node.WellFormed.of_mem_places {document : Node} (h : document.WellFormed 5) :
    ∀ place ∈ document.places, place.node.WellFormed 5 := by
  have hforest : (Forest.ofList .definitions [document]).WellFormed 5 :=
    Forest.wellFormed_single h (by decide)
  rw [Node.places_eq]
  exact hforest.of_mem_places

/-! ## References that lead nowhere -/

/-- A node refers to something that is not found, given what applies around it. -/
inductive Node.Dangling (schema : Schema) (lookup : FieldLookup) (around : Scope) (node : Node) :
    Prop where
  | field (hkind : node.kind = .field)
      (h : ∀ parent, around.parent = some parent → lookup schema parent node = none)
  | directive (hkind : node.kind = .directive)
      (h : schema.directive? (node.name?.getD "") = none)
  | argument (hkind : node.kind = .argument)
      (h : InputDef.find? (node.name?.getD "") (TypeContext.openArguments around) = none)
  | operation (hkind : node.kind = .operationDefinition) (h : schema.rootType? node = none)
  | condition (hkind : node.kind = .fragmentDefinition ∨ node.kind = .inlineFragment)
      (condition : Node) (hcondition : node.child? .typeCondition = some condition)
      (h : schema.typeOf? condition = none)
  | variableType (hkind : node.kind = .variableDefinition)
      (h : (node.child? .type).bind schema.typeOf? = none)
  | inputField (hkind : node.kind = .objectField)
      (h : schema.inputField? around.input (node.name?.getD "") = none)

namespace Trace

variable {schema : Schema} {lookup : FieldLookup} {kinds : List String}

theorem dangling_of_unresolved {around : Scope} {node : Node}
    (hcondition : node.kind = .fragmentDefinition → (node.child? .typeCondition).isSome)
    (h : isResolved node (around.within schema lookup node) = false) :
    node.Dangling schema lookup around := by
  have hnone {α : Type} {found : Option α} (hfound : found.isSome = false) : found = none :=
    Option.isNone_iff_eq_none.mp (Option.isSome_eq_false_iff.mp hfound)
  unfold isResolved Scope.within at h
  cases hkind : node.kind with
  | field =>
      rw [hkind] at h
      exact .field hkind (Option.bind_eq_none_iff.mp (hnone h))
  | directive =>
      rw [hkind] at h
      exact .directive hkind (hnone h)
  | argument =>
      rw [hkind] at h
      exact .argument hkind (hnone h)
  | operationDefinition =>
      rw [hkind] at h
      exact .operation hkind (hnone h)
  | fragmentDefinition =>
      -- Without a condition the fragment would be unresolved by the type around it.
      obtain ⟨condition, hsome⟩ := Option.isSome_iff_exists.mp (hcondition hkind)
      rw [hkind, hsome] at h
      exact .condition (Or.inl hkind) condition hsome (hnone h)
  | inlineFragment =>
      cases hsome : node.child? .typeCondition with
      | none => simp [hkind, hsome] at h
      | some condition =>
          rw [hkind, hsome] at h
          exact .condition (Or.inr hkind) condition hsome (hnone h)
  | variableDefinition =>
      rw [hkind] at h
      exact .variableType hkind (hnone h)
  | objectField =>
      rw [hkind] at h
      exact .inputField hkind (hnone h)
  | _ => simp [hkind] at h

theorem unresolved_of_dangling {around : Scope} {node : Node}
    (h : node.Dangling schema lookup around) :
    isResolved node (around.within schema lookup node) = false := by
  unfold isResolved Scope.within
  cases h with
  | field hkind h =>
      have hnone : (around.parent.bind fun parent => lookup schema parent node) = none :=
        Option.bind_eq_none_iff.mpr h
      simp only [hkind, hnone, Option.isSome_none]
  | directive hkind h => simp only [hkind, h, Option.isSome_none]
  | argument hkind h => simp only [hkind, h, Option.isSome_none]
  | operation hkind h => simp only [hkind, h, Option.isSome_none]
  | condition hkind condition hcondition h =>
      rcases hkind with hkind | hkind
      · simp only [hkind, hcondition, h, Option.isSome_none]
      · simp only [hkind, hcondition, h, Option.isNone_some, Option.isSome_none, Bool.or_false]
  | variableType hkind h => simp only [hkind, h, Option.isSome_none]
  | inputField hkind h => simp only [hkind, h, Option.isSome_none]

/-! ## Entries -/

def lists (kinds : List String) (node : Node) : Bool := kinds.contains node.kind.text

/-- What a trace says of a place: where it is and how it is called, what applies along its path, and
whether it dangles. The depth is the number of listed nodes above. -/
structure Says (schema : Schema) (lookup : FieldLookup) (kinds : List String) (place : Place)
    (entry : Entry) : Prop where
  kind : entry.kind = place.node.kind.text
  ofVariable : place.node.kind = .variableDefinition →
    entry.name = (place.node.child? .variable).bind Node.name?
  ofCondition : place.node.kind = .inlineFragment →
    entry.name = (place.node.child? .typeCondition).bind Node.name?
  name : place.node.kind ≠ .variableDefinition → place.node.kind ≠ .inlineFragment →
    entry.name = place.node.name?
  depth : entry.depth = place.above.countP (lists kinds)
  line : entry.line = place.node.head.position.map fun p => (p.line : Int)
  column : entry.column = place.node.head.position.map fun p => (p.column : Int)
  type : entry.type = (Scope.along schema lookup place.path).type.map TypeRef.text
  parent : entry.parent = (Scope.along schema lookup place.path).parent
  input : entry.input = (Scope.along schema lookup place.path).input.map TypeRef.text
  resolved : entry.resolved = false ↔
    place.node.Dangling schema lookup (Scope.along schema lookup place.above)

def entryAt (schema : Schema) (lookup : FieldLookup) (kinds : List String) (place : Place) :
    Entry :=
  entryOf place.node (Scope.along schema lookup place.path) (place.above.countP (lists kinds))

theorem says_entryAt {place : Place}
    (hcondition : place.node.kind = .fragmentDefinition →
      (place.node.child? .typeCondition).isSome) :
    Says schema lookup kinds place (entryAt schema lookup kinds place) where
  kind := rfl
  ofVariable hkind := by
    simp only [entryAt, entryOf, nameOf, hkind]
  ofCondition hkind := by
    simp only [entryAt, entryOf, nameOf, hkind]
  name hvariable hcondition := by
    unfold entryAt entryOf nameOf
    dsimp only
    split
    · next hkind => exact absurd hkind hvariable
    · next hkind => exact absurd hkind hcondition
    · rfl
  depth := rfl
  line := rfl
  column := rfl
  type := rfl
  parent := rfl
  input := rfl
  resolved := by
    unfold entryAt entryOf Place.path
    rw [Scope.along_append]
    exact ⟨dangling_of_unresolved hcondition, unresolved_of_dangling⟩

/-! ## Collecting -/

theorem passive_collector (kinds : List String) : (collector kinds).Passive := by
  constructor
  · intro node c s
    unfold collector
    dsimp only
    split <;> rfl
  · intro node c s
    unfold collector
    dsimp only
    split <;> rfl

def collect (kinds : List String) (s : Collected) (sight : Sight) : Collected :=
  if lists kinds sight.node then
    match sight.event with
    | .enter => ⟨entryOf sight.node sight.scope s.depth :: s.entries, s.depth + 1⟩
    | .leave => { s with depth := s.depth - 1 }
  else s

theorem after_collector (calls : List Call) (s : Collected) :
    (collector kinds).after calls s = (calls.map Call.sight).foldl (collect kinds) s := by
  have hanswer (s : Collected) (call : Call) :
      ((collector kinds).answer call s).2 = collect kinds s call.sight := by
    obtain ⟨event, node, context⟩ := call
    unfold Observer.answer collector collect lists Call.sight
    cases event with
    | enter =>
        dsimp only
        split <;> rfl
    | leave =>
        dsimp only
        split <;> rfl
  rw [List.foldl_map]
  unfold Observer.after
  simp only [hanswer]

def entriesAt (schema : Schema) (lookup : FieldLookup) (kinds : List String)
    (places : List Place) : List Entry :=
  (places.filter fun place => lists kinds place.node).map (entryAt schema lookup kinds)

theorem reverse_entriesAt (place : Place) (below behind : List Place) :
    (entriesAt schema lookup kinds (place :: (below ++ behind))).reverse =
      (entriesAt schema lookup kinds behind).reverse ++
        ((entriesAt schema lookup kinds below).reverse ++
          (entriesAt schema lookup kinds [place]).reverse) := by
  unfold entriesAt
  rw [List.filter_cons, List.filter_cons, List.filter_append]
  split <;> simp

theorem collect_enter (above : List Node) (node : Node) (entries : List Entry) :
    collect kinds ⟨entries, above.countP (lists kinds)⟩
        (Place.sight schema lookup .enter ⟨above, node⟩) =
      ⟨(entriesAt schema lookup kinds [⟨above, node⟩]).reverse ++ entries,
        (above ++ [node]).countP (lists kinds)⟩ := by
  unfold collect entriesAt
  rw [List.countP_append, List.countP_singleton, List.filter_singleton]
  by_cases hlists : lists kinds node
  · simp only [Place.sight, hlists, if_true]
    rfl
  · simp only [Place.sight, hlists]
    rfl

theorem collect_leave (above : List Node) (node : Node) (entries : List Entry) :
    collect kinds ⟨entries, (above ++ [node]).countP (lists kinds)⟩
        (Place.sight schema lookup .leave ⟨above, node⟩) =
      ⟨entries, above.countP (lists kinds)⟩ := by
  unfold collect
  rw [List.countP_append, List.countP_singleton]
  by_cases hlists : lists kinds node
  · simp only [Place.sight, hlists, if_true]
    congr 1
    omega
  · simp only [Place.sight, hlists]
    rfl

/-- A collector that is shown a forest adds the entries of its places, and comes back to the depth
from which it started. -/
theorem foldl_collect_tour (forest : Forest) (above : List Node) (entries : List Entry) :
    (forest.tour (Place.sight schema lookup) above).foldl (collect kinds)
        ⟨entries, above.countP (lists kinds)⟩ =
      ⟨(entriesAt schema lookup kinds (forest.places above)).reverse ++ entries,
        above.countP (lists kinds)⟩ := by
  induction forest generalizing above entries with
  | nil => rfl
  | cons role head children rest ihchildren ihrest =>
      rw [Forest.tour, List.foldl_cons, List.foldl_append, List.foldl_cons, collect_enter,
        ihchildren, collect_leave, ihrest, Forest.places, reverse_entriesAt, List.append_assoc,
        List.append_assoc]

theorem ofDocument_eq {document : Node} (hdocument : document.WellFormed 5) :
    ofDocument schema lookup kinds document =
      .ok (entriesAt schema lookup kinds document.places) := by
  have hquiet := (passive_collector kinds).quiet (document.calls schema lookup .empty) ⟨[], 0⟩
  have hall : (collector kinds).after (document.calls schema lookup .empty) ⟨[], 0⟩ =
      ⟨(entriesAt schema lookup kinds document.places).reverse, 0⟩ := by
    rw [after_collector, Node.sight_calls hdocument, Node.places_eq]
    refine (foldl_collect_tour (.ofList .definitions [document]) [] []).trans ?_
    rw [List.append_nil]
    rfl
  unfold ofDocument
  rw [Observer.run_of_quiet hquiet, hall]
  exact congrArg Except.ok (List.reverse_reverse _)

/-- No stack is ever found empty, whatever the document is. -/
theorem exists_ofDocument (schema : Schema) (lookup : FieldLookup) (kinds : List String)
    (document : Node) : ∃ entries, ofDocument schema lookup kinds document = .ok entries := by
  have hquiet := (passive_collector kinds).quiet (document.calls schema lookup .empty) ⟨[], 0⟩
  unfold ofDocument
  rw [Observer.run_of_quiet hquiet]
  exact ⟨_, rfl⟩

/-- There is a trace of every document that was read. It lists the places of the chosen kinds in the
order in which they begin, and says of each what its path tells. -/
theorem ofDocument_says {text : String} {document : Node} (schema : Schema) (lookup : FieldLookup)
    (kinds : List String) (hparse : Node.parse text = .ok document) :
    ∃ entries, ofDocument schema lookup kinds document = .ok entries ∧
      List.Forall₂ (Says schema lookup kinds)
        (document.places.filter fun place => kinds.contains place.node.kind.text) entries := by
  have hdocument := Node.wellFormed_of_parse hparse
  have hforest : (Forest.ofList .definitions [document]).WellFormed 5 :=
    Forest.wellFormed_single hdocument (by decide)
  refine ⟨_, ofDocument_eq hdocument, ?_⟩
  rw [entriesAt, List.forall₂_map_right_iff, Node.places_eq]
  refine List.forall₂_same.mpr fun place hplace => says_entryAt ?_
  exact hforest.condition place (List.mem_of_mem_filter hplace)

/-- A listed field below another, and a condition that names no type. -/
theorem ofDocument_says_on_ring :
    ∃ document, Node.parse "{a(x: [1]) {b} ... on Nope {a}}" = .ok document ∧
      ∃ entries, ofDocument .ring .standard ["field", "inline_fragment"] document = .ok entries ∧
        List.Forall₂ (Says .ring .standard ["field", "inline_fragment"])
          (document.places.filter fun place =>
            ["field", "inline_fragment"].contains place.node.kind.text) entries := by
  obtain ⟨document, hparse⟩ :
      ∃ document, Node.parse "{a(x: [1]) {b} ... on Nope {a}}" = .ok document := ⟨_, rfl⟩
  exact ⟨document, hparse, ofDocument_says .ring .standard ["field", "inline_fragment"] hparse⟩

example : ((Node.parse "{a(x: [1]) {b} ... on Nope {a}}").toOption.bind fun document =>
    (ofDocument .ring .standard ["field", "inline_fragment"] document).toOption).map
      (List.map fun entry => (entry.name, entry.depth, entry.type, entry.resolved)) =
    some [(some "a", 0, some "Query!", true), (some "b", 1, none, false),
      (some "Nope", 0, none, false), (some "a", 1, none, false)] := by
  decide +kernel

end Trace

end TypeTrace
