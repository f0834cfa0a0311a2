import TypeTrace.Node
import TypeTrace.Proofs.Token

/-! # The shape of documents

The kinds of nodes stand in layers: names, types, values, arguments, directives, and all else. What
is below a node is never of a higher layer, and below a directive or an argument it is of a lower
one. So directives never stand within directives, nor arguments within arguments. Names, types and
type conditions are found only in the roles that are meant for them. What a node has from its token
keeps what the lexer promises: its place can be one of a text, and a name is a name.
-/

namespace TypeTrace

/-! ## Layers -/

/-- How far out in a document the nodes of a kind stand. -/
def Kind.layer : Kind → Nat
  | .name => 0
  | .namedType | .listType | .nonNullType => 1
  | .variable | .intValue | .floatValue | .stringValue | .booleanValue | .nullValue | .enumValue
  | .listValue | .objectValue | .objectField => 2
  | .argument => 3
  | .directive => 4
  | _ => 5

/-- The highest layer that a node of a kind may have below it. -/
def Kind.innerLayer : Kind → Nat
  | .argument => 2
  | .directive => 3
  | kind => kind.layer

/-- The highest layer that a node of a role may have. -/
def Role.layer : Role → Nat
  | .name | .alias => 0
  | .type | .typeCondition => 1
  | _ => 5

theorem Kind.layer_le (kind : Kind) : kind.layer ≤ 5 := by
  cases kind <;> decide

theorem Kind.innerLayer_le (kind : Kind) : kind.innerLayer ≤ kind.layer := by
  cases kind <;> decide

/-- What a node has from the tokens that it is read from. -/
structure Head.Lexical (head : Head) : Prop where
  position : ∀ p ∈ head.position, p.Valid
  name : head.kind = .name → ∃ text, head.datum = .text text ∧ IsName text

/-- Every node keeps to its layer, every fragment that is defined has a type condition, and every
head is such as tokens make it. -/
def Forest.WellFormed (bound : Nat) : Forest → Prop
  | .nil => True
  | .cons role head children rest =>
      (head.kind.layer ≤ bound ∧ head.kind.layer ≤ role.layer ∧
        (head.kind = .fragmentDefinition → (children.find? .typeCondition).isSome) ∧
        head.Lexical) ∧
      children.WellFormed head.kind.innerLayer ∧ rest.WellFormed bound

/-- A node of at most a given layer that has the shape, as has all below it. -/
structure Node.WellFormed (layer : Nat) (node : Node) : Prop where
  layer_le : node.kind.layer ≤ layer
  children : node.children.WellFormed node.kind.innerLayer
  condition : node.kind = .fragmentDefinition → (node.child? .typeCondition).isSome
  lexical : node.head.Lexical

theorem Node.WellFormed.mono {node : Node} {low high : Nat} (h : node.WellFormed low)
    (hle : low ≤ high) : node.WellFormed high :=
  ⟨Nat.le_trans h.layer_le hle, h.children, h.condition, h.lexical⟩

namespace Forest

theorem wellFormed_append {bound : Nat} {left right : Forest} :
    (left ++ right).WellFormed bound ↔ left.WellFormed bound ∧ right.WellFormed bound := by
  induction left with
  | nil => exact ⟨fun h => ⟨trivial, h⟩, fun h => h.2⟩
  | cons role head children rest _ ih =>
      constructor
      · rintro ⟨hhead, hchildren, hrest⟩
        exact ⟨⟨hhead, hchildren, (ih.mp hrest).1⟩, (ih.mp hrest).2⟩
      · rintro ⟨⟨hhead, hchildren, hrest⟩, hright⟩
        exact ⟨hhead, hchildren, ih.mpr ⟨hrest, hright⟩⟩

theorem WellFormed.push {bound : Nat} {role : Role} {node : Node} {rest : Forest}
    (hnode : node.WellFormed bound) (hrole : node.kind.layer ≤ role.layer)
    (hrest : rest.WellFormed bound) : (rest.push role node).WellFormed bound :=
  ⟨⟨hnode.layer_le, hrole, hnode.condition, hnode.lexical⟩, hnode.children, hrest⟩

theorem wellFormed_ofList {layer bound : Nat} {role : Role} {nodes : List Node}
    (hnodes : ∀ node ∈ nodes, node.WellFormed layer) (hplace : layer ≤ min bound role.layer) :
    (ofList role nodes).WellFormed bound := by
  obtain ⟨hbound, hrole⟩ := Nat.le_min.mp hplace
  induction nodes with
  | nil => trivial
  | cons node nodes ih =>
      have hnode := hnodes node List.mem_cons_self
      have hrest := ih fun other hother => hnodes other (List.mem_cons_of_mem _ hother)
      exact WellFormed.push (hnode.mono hbound) (Nat.le_trans hnode.layer_le hrole) hrest

theorem wellFormed_single {layer bound : Nat} {role : Role} {node : Node}
    (hnode : node.WellFormed layer) (hplace : layer ≤ min bound role.layer) :
    (ofList role [node]).WellFormed bound := by
  refine wellFormed_ofList (fun n hn => ?_) hplace
  rwa [List.mem_singleton.mp hn]

theorem wellFormed_ofOption {layer bound : Nat} {role : Role} {node : Option Node}
    (hnode : ∀ n ∈ node, n.WellFormed layer) (hplace : layer ≤ min bound role.layer) :
    (ofOption role node).WellFormed bound := by
  cases node with
  | none => trivial
  | some n => exact wellFormed_single (hnode n rfl) hplace

theorem WellFormed.of_find? {forest : Forest} {bound : Nat} {role : Role} {node : Node}
    (h : forest.WellFormed bound) (hfind : forest.find? role = some node) :
    node.WellFormed role.layer := by
  induction forest with
  | nil => cases hfind
  | cons r head children rest _ ih =>
      obtain ⟨⟨-, hrole, hcondition, hlexical⟩, hchildren, hrest⟩ := h
      change (if r = role then some ⟨head, children⟩ else rest.find? role) = some node at hfind
      split at hfind
      · next heq =>
          cases hfind
          subst heq
          exact ⟨hrole, hchildren, hcondition, hlexical⟩
      · exact ih hrest hfind

theorem WellFormed.of_mem_withRole {forest : Forest} {bound : Nat} {role : Role} {node : Node}
    (h : forest.WellFormed bound) (hnode : node ∈ forest.withRole role) :
    node.WellFormed role.layer := by
  induction forest with
  | nil => cases hnode
  | cons r head children rest _ ih =>
      obtain ⟨⟨-, hrole, hcondition, hlexical⟩, hchildren, hrest⟩ := h
      unfold withRole at hnode
      split at hnode
      · next heq =>
          subst heq
          rcases List.mem_cons.mp hnode with rfl | hnode
          · exact ⟨hrole, hchildren, hcondition, hlexical⟩
          · exact ih hrest hnode
      · exact ih hrest hnode

theorem find?_append (role : Role) (left right : Forest) :
    (left ++ right).find? role = (left.find? role).or (right.find? role) := by
  induction left with
  | nil => rfl
  | cons r head children rest _ ih =>
      change (if r = role then some ⟨head, children⟩ else (rest ++ right).find? role) =
        (if r = role then some ⟨head, children⟩ else rest.find? role).or (right.find? role)
      split
      · rfl
      · exact ih

end Forest

/-- Nodes in the roles of names are names. -/
theorem Node.WellFormed.text?_of_name {node : Node} (h : node.WellFormed Role.name.layer) :
    ∃ text, node.text? = some text ∧ IsName text := by
  have hname (kind : Kind) (hkind : kind.layer ≤ 0) : kind = .name := by
    cases kind
    case name => rfl
    all_goals exact absurd hkind (by decide)
  obtain ⟨text, hdatum, htext⟩ := h.lexical.name (hname node.kind h.layer_le)
  exact ⟨text, by simp only [Node.text?, hdatum], htext⟩

theorem Node.wellFormed_mk {layer : Nat} (kind : Kind) {p : Position} (hp : p.Valid)
    {datum : Datum} {children : Forest} (hchildren : children.WellFormed kind.innerLayer)
    (hkind : kind.layer ≤ layer ∧ kind ∉ [.fragmentDefinition, .name]) :
    (⟨⟨kind, some p, datum⟩, children⟩ : Node).WellFormed layer := by
  obtain ⟨hlayer, hother⟩ := hkind
  simp only [List.mem_cons, List.not_mem_nil, or_false, not_or] at hother
  refine ⟨hlayer, hchildren, fun h => absurd h hother.1, ?_, fun h => absurd h hother.2⟩
  simp only [Option.mem_def, Option.some.injEq, forall_eq']
  exact hp

end TypeTrace
