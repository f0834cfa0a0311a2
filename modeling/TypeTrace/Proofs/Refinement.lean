import TypeTrace.Proofs.Grammar.Reading
import TypeTrace.Proofs.Observer

/-! # The context of a node is that of its path

In a document that was read, a slot is never filled while it is in use, so that to clear it at the
end of a node is to restore it. The stacks and the slots therefore tell at every call of a walk what
is handed down along the path from the root to the node at hand, and nothing that stands beside the
path has an effect.
-/

namespace TypeTrace

/-! ## Slots that are free -/

/-- The slots are free that nodes of up to a layer can fill. -/
structure TypeContext.Vacant (bound : Nat) (c : TypeContext) : Prop where
  directive : Kind.directive.layer ≤ bound → c.directive = none
  argument : Kind.argument.layer ≤ bound → c.argument = none

namespace TypeContext

theorem vacant_empty (bound : Nat) : empty.Vacant bound :=
  ⟨fun _ => rfl, fun _ => rfl⟩

variable {c d : TypeContext} {bound : Nat} {kind : Kind}

theorem Vacant.entered (h : c.Vacant bound) (hlayer : kind.layer ≤ bound)
    (hentered : c.Entered kind d) : d.Vacant kind.innerLayer := by
  have hinner := Nat.le_trans kind.innerLayer_le hlayer
  constructor
  · intro hle
    have hkind : kind ≠ .directive := by
      rintro rfl
      exact absurd hle (by decide)
    rw [hentered.directive_eq hkind]
    exact h.directive (Nat.le_trans hle hinner)
  · intro hle
    have hkind : kind ≠ .argument := by
      rintro rfl
      exact absurd hle (by decide)
    rw [hentered.argument_eq hkind]
    exact h.argument (Nat.le_trans hle hinner)

/-- A node that keeps to its layer leaves the context as it was, slots included. -/
theorem Vacant.behind_eq (h : c.Vacant bound) (hlayer : kind.layer ≤ bound)
    (hentered : c.Entered kind d) : c.behind kind d = c := by
  have hdirective : (if kind = .directive then none else d.directive) = c.directive := by
    split
    · next hkind =>
        subst hkind
        exact (h.directive hlayer).symm
    · next hkind => exact hentered.directive_eq hkind
  have hargument : (if kind = .argument then none else d.argument) = c.argument := by
    split
    · next hkind =>
        subst hkind
        exact (h.argument hlayer).symm
    · next hkind => exact hentered.argument_eq hkind
  unfold behind
  rw [hdirective, hargument]

end TypeContext

variable {schema : Schema} {lookup : FieldLookup}

theorem Forest.pass_eq {forest : Forest} {bound : Nat} {c : TypeContext}
    (hforest : forest.WellFormed bound) (hvacant : c.Vacant bound) :
    forest.pass schema lookup c = c := by
  induction forest generalizing bound c with
  | nil => rfl
  | cons role head children rest ihchildren ihrest =>
      obtain ⟨⟨hlayer, -⟩, hchildren, hrest⟩ := hforest
      have hentered := TypeContext.entered schema lookup ⟨head, children⟩ c
      rw [Forest.pass, ihchildren hchildren (hvacant.entered hlayer hentered),
        hvacant.behind_eq hlayer hentered]
      exact ihrest hrest hvacant

/-! ## What an observer is shown -/

structure Sight where
  event : Event
  node : Node
  scope : Scope

def Call.sight (call : Call) : Sight := ⟨call.event, call.node, call.context.scope⟩

/-- An observer with a record of all that it is shown. -/
def Observer.recorded {σ : Type} (observer : Observer σ) : Observer (σ × List Sight) where
  enter node c s :=
    let (reply, t) := observer.enter node c s.1
    (reply, t, s.2 ++ [⟨.enter, node, c.scope⟩])
  leave node c s :=
    let (reply, t) := observer.leave node c s.1
    (reply, t, s.2 ++ [⟨.leave, node, c.scope⟩])

/-- A node, with those it stands within from the root on. -/
structure Place where
  above : List Node
  node : Node

def Place.path (place : Place) : List Node := place.above ++ [place.node]

/-- What is shown at a place by an account that goes by its path alone. -/
def Place.sight (schema : Schema) (lookup : FieldLookup) (event : Event) (place : Place) : Sight :=
  ⟨event, place.node, Scope.along schema lookup place.path⟩

/-- The beginnings and ends of all nodes of a forest in the order of a walk, by some account. -/
def Forest.tour {α : Type} (account : Event → Place → α) (above : List Node) : Forest → List α
  | .nil => []
  | .cons _ head children rest =>
      account .enter ⟨above, ⟨head, children⟩⟩ ::
        (children.tour account (above ++ [⟨head, children⟩]) ++
          account .leave ⟨above, ⟨head, children⟩⟩ :: rest.tour account above)

def Node.tour {α : Type} (account : Event → Place → α) (document : Node) : List α :=
  account .enter ⟨[], document⟩ ::
    (document.children.tour account [document] ++ [account .leave ⟨[], document⟩])

/-- The places of a forest, each before those below it and these before those behind it. -/
def Forest.places (above : List Node) : Forest → List Place
  | .nil => []
  | .cons _ head children rest =>
      ⟨above, ⟨head, children⟩⟩ ::
        (children.places (above ++ [⟨head, children⟩]) ++ rest.places above)

def Node.places (document : Node) : List Place :=
  ⟨[], document⟩ :: document.children.places [document]

theorem Node.places_eq (document : Node) :
    document.places = (Forest.ofList .definitions [document]).places [] := by
  change _ = _ :: (_ ++ [])
  rw [List.append_nil]
  rfl

theorem Forest.length_places (above : List Node) (forest : Forest) :
    (forest.places above).length = forest.size := by
  induction forest generalizing above with
  | nil => rfl
  | cons role head children rest ihchildren ihrest =>
      rw [places, List.length_cons, List.length_append, ihchildren, ihrest, size]

theorem Scope.along_append (path : List Node) (node : Node) :
    Scope.along schema lookup (path ++ [node]) =
      (Scope.along schema lookup path).within schema lookup node := by
  unfold Scope.along
  rw [List.foldl_append]
  rfl

/-- What is shown at the calls of a forest goes by paths, if the scope above it does. -/
theorem Forest.sight_calls {forest : Forest} {bound : Nat} {c : TypeContext} {above : List Node}
    (hforest : forest.WellFormed bound) (hvacant : c.Vacant bound)
    (hscope : c.scope = Scope.along schema lookup above) :
    (forest.calls schema lookup c).map Call.sight =
      forest.tour (Place.sight schema lookup) above := by
  induction forest generalizing bound c above with
  | nil => rfl
  | cons role head children rest ihchildren ihrest =>
      obtain ⟨⟨hlayer, -⟩, hchildren, hrest⟩ := hforest
      have hentered := TypeContext.entered schema lookup ⟨head, children⟩ c
      have hvacant' := hvacant.entered hlayer hentered
      have hscope' : (c.enter schema lookup ⟨head, children⟩).scope =
          Scope.along schema lookup (above ++ [⟨head, children⟩]) := by
        rw [TypeContext.scope_enter, hscope, Scope.along_append]
      -- The node ends in the context of its entrance, and the rest starts in that of the node.
      rw [Forest.calls, Forest.pass_eq hchildren hvacant', hvacant.behind_eq hlayer hentered,
        Forest.tour]
      simp only [List.map_cons, List.map_append]
      rw [ihchildren hchildren hvacant' hscope', ihrest hrest hvacant hscope]
      unfold Call.sight Place.sight Place.path
      rw [hscope']

theorem Node.sight_calls {document : Node} (hdocument : document.WellFormed 5) :
    (document.calls schema lookup .empty).map Call.sight =
      document.tour (Place.sight schema lookup) := by
  have hforest : (Forest.ofList .definitions [document]).WellFormed 5 :=
    Forest.wellFormed_single hdocument (by decide)
  have hscope : TypeContext.empty.scope = Scope.along schema lookup [] := rfl
  exact Forest.sight_calls hforest (TypeContext.vacant_empty 5) hscope

/-- A schema with a field that leads back to its own type and takes a list, and with a directive
that takes a list. -/
def Schema.ring : Schema where
  types := [("Query", .object []
    [⟨"a", [⟨"x", .list (.named "Int")⟩], .nonNull (.named "Query")⟩]), ("Int", .scalar)]
  query := some "Query"
  mutation := none
  subscription := none
  directives := [⟨"d", [⟨"y", .list (.nonNull (.named "Int"))⟩]⟩]

namespace Observer

variable {σ : Type} {observer : Observer σ}

theorem Passive.recorded (h : observer.Passive) : observer.recorded.Passive :=
  ⟨fun node c s => h.enter node c s.1, fun node c s => h.leave node c s.1⟩

theorem after_recorded (calls : List Call) (s : σ) (seen : List Sight) :
    observer.recorded.after calls (s, seen) =
      (observer.after calls s, seen ++ calls.map Call.sight) := by
  induction calls generalizing s seen with
  | nil => rw [List.map_nil, List.append_nil]; rfl
  | cons call calls ih =>
      have hanswer : (observer.recorded.answer call (s, seen)).2 =
          ((observer.answer call s).2, seen ++ [call.sight]) := by
        obtain ⟨event, node, context⟩ := call
        cases event <;> rfl
      rw [after_cons, after_cons, hanswer, ih, List.map_cons, List.append_assoc]
      rfl

/-- A walk with an observer that only looks on, whatever its state, goes through the whole of a
document that was read, and at every call the context says what is handed down along the path from
the root to the node. -/
theorem run_shows_paths {text : String} {document : Node} (schema : Schema) (lookup : FieldLookup)
    (limit : Nat) (s : σ) (hpassive : observer.Passive) (hparse : Node.parse text = .ok document) :
    ∃ t, observer.run schema lookup limit document s =
        .ok (.finished (some document)) (.empty, t) ∧
      observer.recorded.run schema lookup limit document (s, []) =
        .ok (.finished (some document))
          (.empty, t, document.tour (Place.sight schema lookup)) := by
  refine ⟨_, run_of_quiet (hpassive.quiet _ s), ?_⟩
  rw [run_of_quiet (hpassive.recorded.quiet _ _), after_recorded, List.nil_append,
    Node.sight_calls (Node.wellFormed_of_parse hparse)]

def counter : Observer Nat where
  enter _ _ n := (.proceed, n + 1)
  leave _ _ n := (.proceed, n + 1)

theorem passive_counter : counter.Passive :=
  ⟨fun _ _ _ => rfl, fun _ _ _ => rfl⟩

/-- Calls are counted in a document with arguments of a field and of its directive. -/
theorem counter_shows_paths :
    ∃ document t, counter.Passive ∧ Node.parse "{a(x: [1]) @d(y: [2]) {a}}" = .ok document ∧
      counter.recorded.run .ring .standard 0 document (0, []) = .ok (.finished (some document))
        (.empty, t, document.tour (Place.sight .ring .standard)) := by
  obtain ⟨document, hparse⟩ :
      ∃ document, Node.parse "{a(x: [1]) @d(y: [2]) {a}}" = .ok document := ⟨_, rfl⟩
  obtain ⟨t, -, hrecorded⟩ := run_shows_paths .ring .standard 0 0 passive_counter hparse
  exact ⟨document, t, passive_counter, hparse, hrecorded⟩

end Observer

end TypeTrace
