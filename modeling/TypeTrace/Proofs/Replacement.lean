import TypeTrace.Proofs.Refinement
import TypeTrace.Proofs.Results
import TypeTrace.Walk.Script

/-! # Replacing a node at its beginning

An observer that puts another node in the place of one, at its beginning, is shown from then on what
it would be shown in the document that has the other node written there. The context leaves the one
node and enters the other; in a document that was read, this is to enter the other alone. The nodes
above are entered in their old form and left in their new one, and neither the context nor a label
tells the forms apart. A look-up of fields may: it is given the node, with all that is below it.
-/

namespace TypeTrace

open Script (Snapshot)

/-! ## Rewriting a document -/

/-- Another node stands in a forest in the place of one. The list has the nodes above in their old
form and in their new one, from the outermost on; the number is that of the nodes that begin before
the one. -/
inductive Forest.Rewrites (other node : Node) :
    List (Node × Node) → Nat → Forest → Forest → Prop where
  | here (role : Role) (rest : Forest) :
      Rewrites other node [] 0 (rest.push role node) (rest.push role other)
  | under {spine : List (Node × Node)} {k : Nat} {children children' : Forest} (role : Role)
      (head : Head) (rest : Forest) (h : Rewrites other node spine k children children') :
      Rewrites other node ((⟨head, children⟩, ⟨head, children'⟩) :: spine) (k + 1)
        (.cons role head children rest) (.cons role head children' rest)
  | behind {spine : List (Node × Node)} {k : Nat} {rest rest' : Forest} (role : Role)
      (head : Head) (children : Forest) (h : Rewrites other node spine k rest rest') :
      Rewrites other node spine (children.size + 1 + k)
        (.cons role head children rest) (.cons role head children rest')

/-- Another node stands in a document in the place of one that is not its root. -/
inductive Node.Rewrites (other node : Node) : List (Node × Node) → Nat → Node → Node → Prop where
  | under {spine : List (Node × Node)} {k : Nat} {children children' : Forest} (head : Head)
      (h : Forest.Rewrites other node spine k children children') :
      Rewrites other node ((⟨head, children⟩, ⟨head, children'⟩) :: spine) (k + 1)
        ⟨head, children⟩ ⟨head, children'⟩

/-- A look-up that finds the same for the old form of each field above and for its new form, on the
type that the walk has come to. It may go by more than a field's name, but its answer there may not
change with what is rewritten below the field. -/
def FieldLookup.Keeps (lookup : FieldLookup) (schema : Schema) :
    TypeContext → List (Node × Node) → Prop
  | _, [] => True
  | c, (old, new) :: spine =>
    (old.kind = .field → ∀ parent ∈ c.scope.parent,
      lookup schema parent old = lookup schema parent new) ∧
    lookup.Keeps schema (c.enter schema lookup old) spine

theorem FieldLookup.keeps_of_forall {lookup : FieldLookup} {schema : Schema}
    {spine : List (Node × Node)} (c : TypeContext)
    (h : ∀ pair ∈ spine, ∀ parent, lookup schema parent pair.1 = lookup schema parent pair.2) :
    lookup.Keeps schema c spine := by
  induction spine generalizing c with
  | nil => trivial
  | cons pair spine ih =>
      have ⟨hpair, hspine⟩ := List.forall_mem_cons.mp h
      exact ⟨fun _ parent _ => hpair parent, ih _ hspine⟩

/-- Whatever stands in a forest, another node can stand in its place. -/
theorem Forest.exists_rewrites (other : Node) {forest : Forest} {above : List Node} {k : Nat}
    {place : Place} (h : (forest.places above)[k]? = some place) :
    ∃ spine forest', Rewrites other place.node spine k forest forest' := by
  induction forest generalizing above k with
  | nil => exact absurd h (by simp [places])
  | cons role head children rest ihchildren ihrest =>
      rw [places] at h
      cases k with
      | zero =>
          rw [List.getElem?_cons_zero, Option.some.injEq] at h
          subst h
          exact ⟨[], rest.push role other, .here role rest⟩
      | succ k =>
          rw [List.getElem?_cons_succ] at h
          by_cases hk : k < children.size
          · rw [List.getElem?_append_left (by rwa [length_places])] at h
            obtain ⟨spine, children', hrewrites⟩ := ihchildren h
            exact ⟨_, _, .under role head rest hrewrites⟩
          · rw [List.getElem?_append_right (by rw [length_places]; omega), length_places] at h
            obtain ⟨spine, rest', hrewrites⟩ := ihrest h
            have hnumber : k + 1 = children.size + 1 + (k - children.size) := by omega
            rw [hnumber]
            exact ⟨spine, _, .behind role head children hrewrites⟩

theorem Node.exists_rewrites (other : Node) {document : Node} {k : Nat} {place : Place}
    (h : document.places[k + 1]? = some place) :
    ∃ spine rewritten, Node.Rewrites other place.node spine (k + 1) document rewritten := by
  rw [places, List.getElem?_cons_succ] at h
  obtain ⟨spine, children', hrewrites⟩ := Forest.exists_rewrites other h
  exact ⟨_, _, .under document.head hrewrites⟩

namespace Forest.Rewrites

variable {other node : Node} {spine : List (Node × Node)} {k bound : Nat} {forest forest' : Forest}

theorem layer_le (h : Rewrites other node spine k forest forest')
    (hforest : forest.WellFormed bound) : node.kind.layer ≤ bound := by
  induction h generalizing bound with
  | here role rest => exact hforest.1.1
  | under role head rest _ ih =>
      obtain ⟨⟨hlayer, -⟩, hchildren, -⟩ := hforest
      exact Nat.le_trans (ih hchildren) (Nat.le_trans head.kind.innerLayer_le hlayer)
  | behind role head children _ ih => exact ih hforest.2.2

/-- Names, types and type conditions stay, if what is replaced is none of these and part of none. -/
theorem find?_eq (h : Rewrites other node spine k forest forest')
    (hforest : forest.WellFormed bound) (hnode : 1 < node.kind.layer) {role : Role}
    (hrole : role.layer ≤ 1) : forest.find? role = forest'.find? role := by
  induction h generalizing bound with
  | here r rest =>
      have hne : r ≠ role := by
        rintro rfl
        exact absurd (Nat.le_trans hforest.1.2.1 hrole) (Nat.not_le.mpr hnode)
      change (if r = role then _ else _) = if r = role then _ else _
      rw [if_neg hne, if_neg hne]
  | under r head rest h ih =>
      obtain ⟨⟨-, hlayer, -⟩, hchildren, -⟩ := hforest
      have hne : r ≠ role := by
        rintro rfl
        have hhead := Nat.le_trans (h.layer_le hchildren) head.kind.innerLayer_le
        omega
      change (if r = role then _ else _) = if r = role then _ else _
      rw [if_neg hne, if_neg hne]
  | behind r head children _ ih =>
      change (if r = role then _ else _) = if r = role then _ else _
      rw [ih hforest.2.2]

theorem name?_eq (h : Rewrites other node spine k forest forest')
    (hforest : forest.WellFormed bound) (hnode : 1 < node.kind.layer) :
    ∀ pair ∈ spine, pair.1.name? = pair.2.name? := by
  induction h generalizing bound with
  | here role rest => exact List.forall_mem_nil _
  | under role head rest h ih =>
      obtain ⟨-, hchildren, -⟩ := hforest
      intro pair hpair
      rcases List.mem_cons.mp hpair with rfl | hpair
      · exact congrArg (Option.bind · Node.text?) (h.find?_eq hchildren hnode (by decide))
      · exact ih hchildren pair hpair
  | behind role head children _ ih => exact ih hforest.2.2

end Forest.Rewrites

/-- A look-up that goes by names keeps to its answers. -/
theorem Node.Rewrites.keeps {other node document rewritten : Node} {spine : List (Node × Node)}
    {k : Nat} {lookup : FieldLookup} {schema : Schema}
    (h : Node.Rewrites other node spine k document rewritten) (hdocument : document.WellFormed 5)
    (hnode : 1 < node.kind.layer)
    (hname : ∀ parent a b, a.name? = b.name? → lookup schema parent a = lookup schema parent b)
    (c : TypeContext) : lookup.Keeps schema c spine := by
  cases h with
  | under head h =>
      have hrole : Role.name.layer ≤ 1 := by decide
      refine FieldLookup.keeps_of_forall c fun pair hpair parent => ?_
      rcases List.mem_cons.mp hpair with rfl | hpair
      · exact hname parent _ _ (congrArg (Option.bind · Node.text?)
          (h.find?_eq hdocument.children hnode hrole))
      · exact hname parent _ _ (h.name?_eq hdocument.children hnode pair hpair)

/-! ## What the context and a label make of a node -/

variable {schema : Schema} {lookup : FieldLookup}

/-- Entering a node goes by its head, its name and its types, and for a field by its definition. -/
theorem TypeContext.enter_congr (old new : Node) (hhead : old.head = new.head)
    (hchild : ∀ role : Role, role.layer ≤ 1 → old.child? role = new.child? role) {c : TypeContext}
    (hlookup : old.kind = .field → ∀ parent ∈ c.scope.parent,
      lookup schema parent old = lookup schema parent new) :
    c.enter schema lookup old = c.enter schema lookup new := by
  have hkind : old.kind = new.kind := congrArg Head.kind hhead
  have hname : old.name? = new.name? := by
    unfold Node.name?
    rw [hchild .name (by decide)]
  unfold enter
  rw [hname, hkind, hhead, hchild .typeCondition (by decide), hchild .type (by decide)]
  cases hnew : new.kind with
  | field =>
      have hfield : (c.scope.parent.bind fun parent => lookup schema parent old) =
          c.scope.parent.bind fun parent => lookup schema parent new :=
        Option.bind_congr (hlookup (hkind.trans hnew))
      dsimp only
      rw [hfield]
  | _ => rfl

theorem Node.label_congr (old new : Node) (hhead : old.head = new.head)
    (hchild : old.child? .name = new.child? .name) : old.label = new.label := by
  unfold label text?
  rw [hchild, hhead]

/-- The old form of a node above what is replaced and its new form are entered alike and have one
label. -/
theorem Forest.Rewrites.forms_alike {other node : Node} {spine : List (Node × Node)} {k : Nat}
    {head : Head} {children children' : Forest}
    (h : Forest.Rewrites other node spine k children children')
    (hchildren : children.WellFormed head.kind.innerLayer) (hnode : 1 < node.kind.layer)
    {c : TypeContext} (hlookup : head.kind = .field → ∀ parent ∈ c.scope.parent,
      lookup schema parent ⟨head, children⟩ = lookup schema parent ⟨head, children'⟩) :
    c.enter schema lookup ⟨head, children⟩ = c.enter schema lookup ⟨head, children'⟩ ∧
      Node.label ⟨head, children⟩ = Node.label ⟨head, children'⟩ := by
  have hchild (role : Role) (hrole : role.layer ≤ 1) :
      Node.child? ⟨head, children⟩ role = Node.child? ⟨head, children'⟩ role :=
    h.find?_eq hchildren hnode hrole
  constructor
  · exact TypeContext.enter_congr ⟨head, children⟩ ⟨head, children'⟩ rfl hchild hlookup
  · exact Node.label_congr ⟨head, children⟩ ⟨head, children'⟩ rfl (hchild .name (by decide))

/-! ## Observers with a log -/

def Call.begins (call : Call) : Bool := call.event = .enter

def Call.snapshot (call : Call) : Snapshot :=
  ⟨call.event, call.node.kind, call.node.label, call.context.scope⟩

namespace Observer

def logging : Observer (List Snapshot) where
  enter node c log := (.proceed, log ++ [Call.snapshot ⟨.enter, node, c⟩])
  leave node c log := (.proceed, log ++ [Call.snapshot ⟨.leave, node, c⟩])

/-- An observer that logs all calls and, at the beginning of one node, puts another in its place. It
counts down the nodes that begin before that one. -/
def replacing (other : Node) : Observer (Option Nat × List Snapshot) where
  enter node c s :=
    let log := s.2 ++ [Call.snapshot ⟨.enter, node, c⟩]
    match s.1 with
    | some 0 => (.replace other, none, log)
    | some (k + 1) => (.proceed, some k, log)
    | none => (.proceed, none, log)
  leave node c s := (.proceed, s.1, s.2 ++ [Call.snapshot ⟨.leave, node, c⟩])

theorem passive_logging : logging.Passive :=
  ⟨fun _ _ _ => rfl, fun _ _ _ => rfl⟩

theorem after_logging (calls : List Call) (log : List Snapshot) :
    logging.after calls log = log ++ calls.map Call.snapshot := by
  induction calls generalizing log with
  | nil => rw [List.map_nil, List.append_nil]; rfl
  | cons call calls ih =>
      have hanswer : (logging.answer call log).2 = log ++ [call.snapshot] := by
        obtain ⟨event, node, context⟩ := call
        cases event <;> rfl
      rw [after_cons, hanswer, ih, List.map_cons, List.append_assoc]
      rfl

theorem run_logging (schema : Schema) (lookup : FieldLookup) (limit : Nat) (document : Node) :
    logging.run schema lookup limit document [] = .ok (.finished (some document))
      (.empty, (document.calls schema lookup .empty).map Call.snapshot) := by
  rw [run_of_quiet (passive_logging.quiet _ _), after_logging, List.nil_append]

/-- An observer that logs each call and lets the walk proceed, while the rest of its state changes
from call to call in a known way. -/
theorem quiet_of_logs {τ : Type} {observer : Observer (τ × List Snapshot)} (rest : List Call → τ)
    (h : ∀ call calls log, observer.answer call (rest (call :: calls), log) =
      (.proceed, rest calls, log ++ [call.snapshot])) (calls : List Call) (log : List Snapshot) :
    observer.Quiet calls (rest calls, log) ∧
      observer.after calls (rest calls, log) = (rest [], log ++ calls.map Call.snapshot) := by
  induction calls generalizing log with
  | nil =>
      rw [List.map_nil, List.append_nil]
      exact ⟨trivial, rfl⟩
  | cons call calls ih =>
      obtain ⟨hquiet, hafter⟩ := ih (log ++ [call.snapshot])
      rw [Quiet, after_cons, h, List.map_cons,
        List.append_cons log call.snapshot (calls.map Call.snapshot)]
      exact ⟨⟨rfl, hquiet⟩, hafter⟩

theorem replacing_over (other : Node) (calls : List Call) (log : List Snapshot) :
    (replacing other).Quiet calls (none, log) ∧
      (replacing other).after calls (none, log) = (none, log ++ calls.map Call.snapshot) := by
  refine quiet_of_logs (fun _ => none) (fun call calls log => ?_) calls log
  obtain ⟨event, node, context⟩ := call
  cases event <;> rfl

theorem replacing_ahead (other : Node) (calls : List Call) (k : Nat) (log : List Snapshot) :
    (replacing other).Quiet calls (some (calls.countP Call.begins + k), log) ∧
      (replacing other).after calls (some (calls.countP Call.begins + k), log) =
        (some k, log ++ calls.map Call.snapshot) := by
  have hstep (call : Call) (calls : List Call) (log : List Snapshot) :
      (replacing other).answer call (some ((call :: calls).countP Call.begins + k), log) =
        (.proceed, some (calls.countP Call.begins + k), log ++ [call.snapshot]) := by
    obtain ⟨event, node, context⟩ := call
    cases event with
    | enter =>
        rw [List.countP_cons_of_pos rfl, Nat.add_right_comm]
        rfl
    | leave =>
        rw [List.countP_cons_of_neg Bool.false_ne_true]
        rfl
  have hlogs := quiet_of_logs (fun calls => some (calls.countP Call.begins + k)) hstep calls log
  rwa [List.countP_nil, Nat.zero_add] at hlogs

end Observer

theorem Forest.countP_calls (forest : Forest) (c : TypeContext) :
    (forest.calls schema lookup c).countP Call.begins = forest.size := by
  induction forest generalizing c with
  | nil => rfl
  | cons role head children rest ihchildren ihrest =>
      rw [calls, List.countP_cons_of_pos rfl, List.countP_append,
        List.countP_cons_of_neg Bool.false_ne_true, ihchildren, ihrest, size]

/-- Three logs that are the same up to the beginning of a node, in front of which a number of others
begin. There the second shows the beginning of another node and goes on as the first does, and the
third shows the same beginning as the first and may go on in any way. -/
inductive Spliced (node other : Node) :
    Nat → List Snapshot → List Snapshot → List Snapshot → Prop where
  | intro (before after after' : List Snapshot) (scope scope' : Scope) :
      Spliced node other (before.countP (·.event = .enter))
        (before ++ ⟨.enter, node.kind, node.label, scope⟩ :: after)
        (before ++ ⟨.enter, other.kind, other.label, scope'⟩ :: after)
        (before ++ ⟨.enter, node.kind, node.label, scope⟩ :: after')

namespace Spliced

variable {node other : Node} {k : Nat} {replaced rewritten plain : List Snapshot}

theorem prepend (h : Spliced node other k replaced rewritten plain) (front : List Snapshot) :
    Spliced node other (front.countP (·.event = .enter) + k)
      (front ++ replaced) (front ++ rewritten) (front ++ plain) := by
  cases h with
  | intro before after after' scope scope' =>
      rw [← List.countP_append, ← List.append_assoc, ← List.append_assoc, ← List.append_assoc]
      exact .intro (front ++ before) after after' scope scope'

theorem append (h : Spliced node other k replaced rewritten plain)
    (back back' : List Snapshot) :
    Spliced node other k (replaced ++ back) (rewritten ++ back) (plain ++ back') := by
  cases h with
  | intro before after after' scope scope' =>
      rw [List.append_assoc, List.append_assoc, List.append_assoc]
      exact .intro before (after ++ back) (after' ++ back') scope scope'

/-- In front of the node the first log and the second one are the same. -/
theorem getElem?_eq (h : Spliced node other k replaced rewritten plain) {i : Nat}
    (hi : (replaced.take (i + 1)).countP (·.event = .enter) ≤ k) :
    replaced[i]? = rewritten[i]? := by
  cases h with
  | intro before after after' scope scope' =>
      by_cases hbefore : i < before.length
      · rw [List.getElem?_append_left hbefore, List.getElem?_append_left hbefore]
      · -- The node itself begins among the first ones, which makes one beginning too many.
        rw [List.take_append, List.take_of_length_le (by omega), List.countP_append] at hi
        obtain ⟨n, hn⟩ : ∃ n, i + 1 - before.length = n + 1 := ⟨i - before.length, by omega⟩
        rw [hn, List.take_succ_cons, List.countP_cons_of_pos rfl] at hi
        omega

end Spliced

theorem Node.countP_calls (node : Node) (c : TypeContext) :
    (node.calls schema lookup c).countP Call.begins = node.children.size + 1 := by
  rw [calls, List.countP_cons_of_pos rfl, List.countP_append, Forest.countP_calls,
    List.countP_cons_of_neg Bool.false_ne_true, List.countP_nil]

namespace Observer

variable {node other : Node} {spine : List (Node × Node)} {k bound limit : Nat}
  {c : TypeContext} {α : Type}

/-- A part of a walk that replaces a node, in front of which a number of others begin: from a
context it leads to an answer and a context, and its log is spliced from the calls in the rewritten
document and those in the plain one. -/
def Relays (node other : Node) (k : Nat) (c d : TypeContext) (a : α)
    (rewritten plain : List Call)
    (x : EStateM Underflow (State (Option Nat × List Snapshot)) α) : Prop :=
  ∀ log, ∃ seen, x (c, some k, log) = .ok a (d, none, log ++ seen) ∧
    Spliced node other k seen (rewritten.map Call.snapshot) (plain.map Call.snapshot)

theorem relays_past {head : Head} {children children' : Forest}
    (h : Forest.Rewrites other node spine k children children')
    (hchildren : children.WellFormed head.kind.innerLayer) (hnode : 1 < node.kind.layer)
    (hlookup : lookup.Keeps schema c ((⟨head, children⟩, ⟨head, children'⟩) :: spine))
    (hbelow : Relays node other k (c.enter schema lookup ⟨head, children⟩)
      (children'.pass schema lookup (c.enter schema lookup ⟨head, children⟩)) (.done children')
      (children'.calls schema lookup (c.enter schema lookup ⟨head, children⟩))
      (children.calls schema lookup (c.enter schema lookup ⟨head, children⟩))
      (Walk.below ((replacing other).visitor schema lookup)
        (Walk.inside ((replacing other).visitor schema lookup) limit) children)) :
    Relays node other (k + 1) c
      (c.behind head.kind (children'.pass schema lookup (c.enter schema lookup ⟨head, children'⟩)))
      (.present ⟨head, children'⟩) (Node.calls schema lookup ⟨head, children'⟩ c)
      (Node.calls schema lookup ⟨head, children⟩ c)
      (Walk.past ((replacing other).visitor schema lookup) limit ⟨head, children⟩) := by
  obtain ⟨henter, hlabel⟩ := h.forms_alike hchildren hnode hlookup.1
  have hbegin : Call.snapshot ⟨.enter, ⟨head, children⟩, c.enter schema lookup ⟨head, children⟩⟩ =
      Call.snapshot ⟨.enter, ⟨head, children'⟩, c.enter schema lookup ⟨head, children⟩⟩ := by
    unfold Call.snapshot
    rw [hlabel]
    rfl
  intro log
  -- The node is entered in its old form and left in its new one, with one context and one label.
  rw [← henter]
  obtain ⟨seen, hrun, hspliced⟩ := hbelow
    (log ++ [Call.snapshot ⟨.enter, ⟨head, children⟩, c.enter schema lookup ⟨head, children⟩⟩])
  have hanswer : (replacing other).answer
      ⟨.enter, ⟨head, children⟩, c.enter schema lookup ⟨head, children⟩⟩ (some (k + 1), log) =
        (.proceed, some k, log ++ [Call.snapshot ⟨.enter, ⟨head, children⟩,
          c.enter schema lookup ⟨head, children⟩⟩]) := rfl
  have hspliced' := (hspliced.append
    [Call.snapshot ⟨.leave, ⟨head, children'⟩, children'.pass schema lookup
      (c.enter schema lookup ⟨head, children⟩)⟩]
    [Call.snapshot ⟨.leave, ⟨head, children⟩, children.pass schema lookup
      (c.enter schema lookup ⟨head, children⟩)⟩]).prepend
    [Call.snapshot ⟨.enter, ⟨head, children⟩, c.enter schema lookup ⟨head, children⟩⟩]
  refine ⟨[Call.snapshot ⟨.enter, ⟨head, children⟩, c.enter schema lookup ⟨head, children⟩⟩] ++
    (seen ++ [Call.snapshot ⟨.leave, ⟨head, children'⟩, children'.pass schema lookup
      (c.enter schema lookup ⟨head, children⟩)⟩]), ?_, ?_⟩
  · refine (pass_of_proceed hanswer hrun (children'.stacked_pass _) rfl).trans ?_
    rw [← List.append_assoc, ← List.append_assoc]
  · rw [Node.calls, Node.calls, ← henter, Nat.add_comm k]
    simp only [List.map_cons, List.map_append, List.map_nil]
    rw [← hbegin]
    exact hspliced'

theorem below_over {into : Node → EStateM Underflow (State (Option Nat × List Snapshot)) Walk.Below}
    (forest : Forest) (c : TypeContext) (log : List Snapshot) :
    Walk.below ((replacing other).visitor schema lookup) into forest (c, none, log) =
      .ok (.done forest) (forest.pass schema lookup c, none,
        log ++ (forest.calls schema lookup c).map Call.snapshot) := by
  obtain ⟨hquiet, hafter⟩ := replacing_over other (forest.calls schema lookup c) log
  rw [below_of_quiet hquiet, hafter]

theorem past_ahead (schema : Schema) (lookup : FieldLookup) (other : Node) (limit : Nat)
    (head : Head) (children : Forest) (c : TypeContext) (k : Nat) (log : List Snapshot) :
    Walk.past ((replacing other).visitor schema lookup) limit ⟨head, children⟩
        (c, some (children.size + 1 + k), log) =
      .ok (.present ⟨head, children⟩) (c.behind head.kind (children.pass schema lookup
        (c.enter schema lookup ⟨head, children⟩)), some k,
        log ++ (Node.calls schema lookup ⟨head, children⟩ c).map Call.snapshot) := by
  obtain ⟨hquiet, hafter⟩ := replacing_ahead other
    (Node.calls schema lookup ⟨head, children⟩ c) k log
  rw [Node.countP_calls] at hquiet hafter
  refine (pass_of_quiet hquiet).trans ?_
  rw [hafter]
  rfl

theorem relays_cons {role : Role} {head head' : Head} {children children' rest : Forest}
    (hpass : Relays node other k c (c.behind head'.kind
        (children'.pass schema lookup (c.enter schema lookup ⟨head', children'⟩)))
      (.present ⟨head', children'⟩) (Node.calls schema lookup ⟨head', children'⟩ c)
      (Node.calls schema lookup ⟨head, children⟩ c)
      (Walk.past ((replacing other).visitor schema lookup) limit ⟨head, children⟩)) :
    Relays node other k c ((Forest.cons role head' children' rest).pass schema lookup c)
      (.done (.cons role head' children' rest))
      ((Forest.cons role head' children' rest).calls schema lookup c)
      ((Forest.cons role head children rest).calls schema lookup c)
      (Walk.below ((replacing other).visitor schema lookup)
        (Walk.inside ((replacing other).visitor schema lookup) limit)
        (.cons role head children rest)) := by
  intro log
  obtain ⟨seen, hrun, hspliced⟩ := hpass log
  refine ⟨seen ++ (rest.calls schema lookup (c.behind head'.kind (children'.pass schema lookup
    (c.enter schema lookup ⟨head', children'⟩)))).map Call.snapshot,
    (Walk.below_of_present hrun (below_over rest _ _)).trans ?_, ?_⟩
  · rw [List.append_assoc]
    rfl
  · rw [Forest.calls_cons, Forest.calls_cons, List.map_append, List.map_append]
    exact hspliced.append _ _

theorem relays_here (hvacant : c.Vacant bound) (hlayer : node.kind.layer ≤ bound) :
    Relays node other 0 c
      (c.behind other.kind (other.children.pass schema lookup (c.enter schema lookup other)))
      (.present other) (other.calls schema lookup c) (node.calls schema lookup c)
      (Walk.past ((replacing other).visitor schema lookup) (limit + 1) node) := by
  intro log
  have hbehind := hvacant.behind_eq hlayer (TypeContext.entered schema lookup node c)
  have hanswer : (replacing other).answer ⟨.enter, node, c.enter schema lookup node⟩
      (some 0, log) = (.replace other, none,
        log ++ [Call.snapshot ⟨.enter, node, c.enter schema lookup node⟩]) := rfl
  have hinto : Walk.inside ((replacing other).visitor schema lookup) (limit + 1) other
      (c.enter schema lookup other, none,
        log ++ [Call.snapshot ⟨.enter, node, c.enter schema lookup node⟩]) = _ :=
    below_over other.children _ _
  refine ⟨[] ++ Call.snapshot ⟨.enter, node, c.enter schema lookup node⟩ ::
    ((other.children.calls schema lookup (c.enter schema lookup other)).map Call.snapshot ++
      [Call.snapshot ⟨.leave, other, other.children.pass schema lookup
        (c.enter schema lookup other)⟩]), ?_, ?_⟩
  · refine (pass_of_replace hanswer hbehind hinto (other.children.stacked_pass _) rfl).trans ?_
    simp
  · rw [Node.calls, Node.calls, List.map_cons, List.map_cons, List.map_append]
    exact .intro [] _ _ _ _

theorem relays_below {forest forest' : Forest} (limit : Nat)
    (h : Forest.Rewrites other node spine k forest forest') (hforest : forest.WellFormed bound)
    (hvacant : c.Vacant bound) (hnode : 1 < node.kind.layer)
    (hlookup : lookup.Keeps schema c spine) :
    Relays node other k c (forest'.pass schema lookup c) (.done forest')
      (forest'.calls schema lookup c) (forest.calls schema lookup c)
      (Walk.below ((replacing other).visitor schema lookup)
        (Walk.inside ((replacing other).visitor schema lookup) (limit + 1)) forest) := by
  induction h generalizing bound c with
  | here role rest => exact relays_cons (relays_here hvacant hforest.1.1)
  | @under spine k children children' role head rest h ih =>
      obtain ⟨⟨hlayer, -⟩, hchildren, -⟩ := hforest
      refine relays_cons (relays_past h hchildren hnode hlookup (ih hchildren ?_ hlookup.2))
      exact hvacant.entered hlayer (TypeContext.entered schema lookup ⟨head, children⟩ c)
  | @behind spine k rest rest' role head children h ih =>
      obtain ⟨⟨hlayer, -⟩, hchildren, hrest⟩ := hforest
      have hentered := TypeContext.entered schema lookup ⟨head, children⟩ c
      have hbehind : c.behind head.kind (children.pass schema lookup
          (c.enter schema lookup ⟨head, children⟩)) = c := by
        rw [Forest.pass_eq hchildren (hvacant.entered hlayer hentered)]
        exact hvacant.behind_eq hlayer hentered
      -- The countdown runs over the whole node in front, beginnings below it included.
      have hcount : ((Node.calls schema lookup ⟨head, children⟩ c).map Call.snapshot).countP
          (·.event = .enter) = children.size + 1 := by
        rw [List.countP_map]
        exact Node.countP_calls _ _
      intro log
      obtain ⟨seen, hrun, hspliced⟩ := ih hrest hvacant hlookup
        (log ++ (Node.calls schema lookup ⟨head, children⟩ c).map Call.snapshot)
      have hpass := past_ahead schema lookup other (limit + 1) head children c k log
      rw [hbehind] at hpass
      refine ⟨(Node.calls schema lookup ⟨head, children⟩ c).map Call.snapshot ++ seen,
        (Walk.below_of_present hpass hrun).trans ?_, ?_⟩
      · rw [Forest.pass, hbehind, List.append_assoc]
        rfl
      · rw [Forest.calls_cons, Forest.calls_cons, hbehind, List.map_append, List.map_append,
          ← hcount]
        exact hspliced.prepend _

/-- To replace a node at its beginning is to walk through the rewritten document. Given a document
that was read, a node of it that is neither its root nor a name nor part of a type, any other node,
and a look-up that keeps to its answers for the fields above: the replacing walk makes the rewritten
document, ends with the same context as a walk through that document, and shows the same throughout
but for the beginning of the one node, which it shows as in the plain document. -/
theorem replacing_is_rewriting {text : String} {document rewritten node other : Node}
    {spine : List (Node × Node)} {k : Nat} (schema : Schema) (lookup : FieldLookup) (limit : Nat)
    (hparse : Node.parse text = .ok document)
    (hrewrites : Node.Rewrites other node spine k document rewritten)
    (hkind : node.kind ∉ [.name, .namedType, .listType, .nonNullType])
    (hlookup : lookup.Keeps schema .empty spine) :
    ∃ shown shownRewritten shownPlain,
      (replacing other).run schema lookup (limit + 1) document (some k, []) =
        .ok (.finished (some rewritten)) (.empty, none, shown) ∧
      logging.run schema lookup limit rewritten [] =
        .ok (.finished (some rewritten)) (.empty, shownRewritten) ∧
      logging.run schema lookup limit document [] =
        .ok (.finished (some document)) (.empty, shownPlain) ∧
      Spliced node other k shown shownRewritten shownPlain := by
  have hnode : 1 < node.kind.layer := by
    cases hnode : node.kind
    all_goals first
      | exact absurd (by rw [hnode]; decide) hkind
      | decide
  have hdocument := Node.wellFormed_of_parse hparse
  cases hrewrites with
  | @under spine k children children' head h =>
      have hentered := TypeContext.entered schema lookup ⟨head, children⟩ .empty
      have hvacant : TypeContext.Vacant head.kind.innerLayer
          (TypeContext.empty.enter schema lookup ⟨head, children⟩) :=
        (TypeContext.vacant_empty 5).entered hdocument.layer_le hentered
      have hbelow := relays_below limit h hdocument.children hvacant hnode hlookup.2
      obtain ⟨shown, hrun, hspliced⟩ := relays_past h hdocument.children hnode hlookup hbelow []
      refine ⟨shown, _, _, ?_, run_logging .., run_logging .., hspliced⟩
      have hanswer : (replacing other).answer ⟨.enter, ⟨head, children⟩, TypeContext.empty.enter
          schema lookup ⟨head, children⟩⟩ (some (k + 1), []) = (.proceed, some k, _) := rfl
      rw [run, Walk.run_of_enter (visitor_enter hanswer) (Or.inl rfl), Stateful.bind_ok hrun]
      have hempty := Forest.behind_pass schema lookup ⟨head, children'⟩
      exact congrArg (fun c => EStateM.Result.ok _ (c, none, shown)) hempty

/-- A whole document is put in the place of an argument. -/
theorem replacing_argument_is_rewriting :
    ∃ document rewritten node other spine shown shownRewritten shownPlain,
      Node.parse "{a(x: [1]) {a}}" = .ok document ∧ Node.parse "{b @d}" = .ok other ∧
      Node.Rewrites other node spine 5 document rewritten ∧
      node.kind ∉ [.name, .namedType, .listType, .nonNullType] ∧
      FieldLookup.standard.Keeps .ring .empty spine ∧
      (replacing other).run .ring .standard 1 document (some 5, []) =
        .ok (.finished (some rewritten)) (.empty, none, shown) ∧
      logging.run .ring .standard 0 rewritten [] =
        .ok (.finished (some rewritten)) (.empty, shownRewritten) ∧
      logging.run .ring .standard 0 document [] =
        .ok (.finished (some document)) (.empty, shownPlain) ∧
      Spliced node other 5 shown shownRewritten shownPlain := by
  obtain ⟨other, hother⟩ : ∃ other, Node.parse "{b @d}" = .ok other := ⟨_, rfl⟩
  obtain ⟨document, place, hparse, hplace, hargument⟩ :
      ∃ document place, Node.parse "{a(x: [1]) {a}}" = .ok document ∧
        document.places[5]? = some place ∧ place.node.kind = .argument := ⟨_, _, rfl, rfl, rfl⟩
  obtain ⟨spine, rewritten, hrewrites⟩ := Node.exists_rewrites other hplace
  have hkind : place.node.kind ∉ [.name, .namedType, .listType, .nonNullType] := by
    rw [hargument]
    decide
  have hlookup : FieldLookup.standard.Keeps .ring .empty spine := by
    refine hrewrites.keeps (Node.wellFormed_of_parse hparse) ?_ (fun parent a b hname => ?_) .empty
    · rw [hargument]
      decide
    · unfold FieldLookup.standard
      rw [hname]
  obtain ⟨shown, shownRewritten, shownPlain, h⟩ :=
    replacing_is_rewriting .ring .standard 0 hparse hrewrites hkind hlookup
  exact ⟨document, rewritten, place.node, other, spine, shown, shownRewritten, shownPlain, hparse,
    hother, hrewrites, hkind, hlookup, h⟩

end Observer

/-- A look-up that reads more than names: it finds fields only where they are asked for `1`. -/
def FieldLookup.forOne : FieldLookup := fun schema parent node =>
  if ((node.child? .arguments).bind fun argument => argument.child? .value).bind Node.text? = some "1"
  then FieldLookup.standard schema parent node
  else none

/-- The document `{a(x: …)}` with a value. -/
def asking (value : Node) : Node :=
  let head (kind : Kind) (column : Nat) (datum : Datum) : Head := ⟨kind, some ⟨1, column⟩, datum⟩
  ⟨head .document 1 .none,
    .cons .definitions (head .operationDefinition 1 (.operation .query))
      (.cons .selectionSet (head .selectionSet 1 .none)
        (.cons .selections (head .field 2 .none)
          (.cons .name (head .name 2 (.text "a")) .nil
            (.cons .arguments (head .argument 4 .none)
              (.cons .name (head .name 4 (.text "x")) .nil (.push .value value .nil)) .nil))
          .nil) .nil) .nil⟩

def oneDigit (text : String) : Node := ⟨⟨.intValue, some ⟨1, 7⟩, .text text⟩, .nil⟩

theorem exists_rewrites_asking (node other : Node) :
    ∃ spine, Node.Rewrites other node spine 7 (asking node) (asking other) := by
  have hvalue : Forest.Rewrites other node [] 0 (.push .value node .nil) (.push .value other .nil) :=
    .here .value .nil
  have hfield (name argument aName : Head) := ((hvalue.behind .name aName .nil).under .arguments
    argument .nil).behind .name name .nil
  exact ⟨_, .under _ ((((hfield _ _ _).under .selections _ .nil).under .selectionSet _ .nil).under
    .definitions _ .nil)⟩

namespace Observer

/-- What a walk that replaces has come to, if it has come to its end and has replaced: the document, the
context and what has been shown. -/
def replaced? : EStateM.Result Underflow (State (Option Nat × List Snapshot)) Walk.Outcome →
    Option (Node × TypeContext × List Snapshot)
  | .ok (.finished (some edited)) (c, none, shown) => some (edited, c, shown)
  | _ => none

theorem eq_ok_of_replaced? {edited : Node} {c : TypeContext} {shown : List Snapshot}
    {result : EStateM.Result Underflow (State (Option Nat × List Snapshot)) Walk.Outcome}
    (h : replaced? result = some (edited, c, shown)) :
    result = .ok (.finished (some edited)) (c, none, shown) := by
  unfold replaced? at h
  split at h
  · cases h
    rfl
  · cases h

/-- A field is found while it is asked for the old value, and it is not found in the rewritten
document. -/
theorem replacing_read_argument_is_not_rewriting :
    ∃ document rewritten node other spine shown shownRewritten shownPlain,
      Node.parse "{a(x: 1)}" = .ok document ∧ Node.parse "{a(x: 2)}" = .ok rewritten ∧
      Node.Rewrites other node spine 7 document rewritten ∧
      node.kind ∉ [.name, .namedType, .listType, .nonNullType] ∧
      (replacing other).run .ring .forOne 1 document (some 7, []) =
        .ok (.finished (some rewritten)) (.empty, none, shown) ∧
      logging.run .ring .forOne 0 rewritten [] =
        .ok (.finished (some rewritten)) (.empty, shownRewritten) ∧
      logging.run .ring .forOne 0 document [] =
        .ok (.finished (some document)) (.empty, shownPlain) ∧
      ¬ Spliced node other 7 shown shownRewritten shownPlain := by
  let one := oneDigit "1"
  let two := oneDigit "2"
  have hparse : Node.parse "{a(x: 1)}" = .ok (asking one) := eq_ok_of_toOption (by decide +kernel)
  have hparse' : Node.parse "{a(x: 2)}" = .ok (asking two) := eq_ok_of_toOption (by decide +kernel)
  obtain ⟨spine, hrewrites⟩ := exists_rewrites_asking one two
  -- The field is the fourth node that begins.
  have hends : (replaced? ((replacing two).run .ring .forOne 1 (asking one) (some 7, []))).any
      fun ended => ended.1 == asking two && ended.2.1 == .empty &&
        (ended.2.2.take 4).countP (·.event = .enter) == 4 &&
          (ended.2.2[3]?.bind fun snapshot => snapshot.scope.field).isSome := by decide +kernel
  have hmissed : ((((asking two).calls .ring .forOne .empty).map Call.snapshot)[3]?.bind
      fun snapshot => snapshot.scope.field).isSome = false := by decide +kernel
  obtain ⟨⟨edited, c, shown⟩, hended, hruns⟩ := (Option.any_eq_true _ _).mp hends
  simp only [Bool.and_eq_true, beq_iff_eq] at hruns
  obtain ⟨⟨⟨rfl, rfl⟩, hcount⟩, hfound⟩ := hruns
  refine ⟨asking one, asking two, one, two, spine, shown, _, _, hparse, hparse', hrewrites,
    by decide, eq_ok_of_replaced? hended, run_logging .., run_logging .., fun hspliced => ?_⟩
  rw [hspliced.getElem?_eq (by rw [hcount]; decide), hmissed] at hfound
  cases hfound

end Observer

end TypeTrace
