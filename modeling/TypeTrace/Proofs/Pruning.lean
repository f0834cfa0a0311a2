import TypeTrace.Proofs.Refinement

/-! # Pruning and stopping a walk

An observer that passes over some nodes, removes others and stops at one is shown what it would be
shown without that, less what is below the nodes that it prunes and their ends, up to the beginning
at which it stops. A pruned node leaves the context as it found it, and so does a node that is
walked through, so the calls elsewhere do not tell which of the two has happened.
-/

namespace TypeTrace

/-! ## Observers that are told where they are -/

/-- The place of a node in a document: its number among its siblings, then the place of the node
above. The root has the empty address. -/
abbrev Address := List Nat

/-- The address of the next sibling. -/
def Address.behind : Address → Address
  | [] => []
  | i :: above => (i + 1) :: above

/-- The address of the node that begins next, once a node at an address has begun with an answer. -/
def Address.next : Reply → Address → Address
  | .proceed, address | .replace _, address => 0 :: address
  | .skip, address | .remove, address | .stop, address => address.behind

/-- A call as a record shows it. -/
structure Mark where
  event : Event
  address : Address
  kind : Kind
  scope : Scope

namespace Observer

variable {σ : Type}

/-- The observer that has hooks of its own for every address, with a record of its calls. It keeps
the address of the node that begins next; at the end of a node that is a place below the node. -/
def located (hooks : Address → Observer σ) : Observer (σ × Address × List Mark) where
  enter node c s :=
    let address := s.2.1
    let (reply, t) := (hooks address).enter node c s.1
    (reply, t, Address.next reply address, s.2.2 ++ [⟨.enter, address, node.kind, c.scope⟩])
  leave node c s :=
    let address := s.2.1.tail
    let (reply, t) := (hooks address).leave node c s.1
    (reply, t, Address.behind address, s.2.2 ++ [⟨.leave, address, node.kind, c.scope⟩])

/-- At the beginning of a node the hooks answer by a plan that replaces nothing, at its end they let
the walk proceed. Apart from that they may do as they like. -/
structure FollowsPlan (hooks : Address → Observer σ) (plan : Address → Reply) : Prop where
  enter : ∀ address node c s, ((hooks address).enter node c s).1 = plan address
  leave : ∀ address node c s, ((hooks address).leave node c s).1 = .proceed
  keeps : ∀ address other, plan address ≠ .replace other

theorem followsPlan_of_passive {hooks : Address → Observer σ}
    (h : ∀ address, (hooks address).Passive) :
    FollowsPlan hooks fun _ => .proceed where
  enter address := (h address).enter
  leave address := (h address).leave
  keeps _ _ h := by cases h

end Observer

/-! ## What a plan leaves of a record -/

def Reply.prunes : Reply → Bool
  | .skip | .remove => true
  | _ => false

def Reply.stops : Reply → Bool
  | .stop => true
  | _ => false

/-- Whether a node above an address is pruned. -/
def Address.hidden (plan : Address → Reply) : Address → Bool
  | [] => false
  | _ :: above => (plan above).prunes || hidden plan above

namespace Mark

/-- Whether a call is left: no node above is pruned, and the node itself is not or only begins. -/
def isLeft (plan : Address → Reply) (mark : Mark) : Bool :=
  !Address.hidden plan mark.address && (mark.event == .enter || !(plan mark.address).prunes)

/-- Whether a call is the beginning of a node at which the walk is to stop. -/
def stops (plan : Address → Reply) (mark : Mark) : Bool :=
  mark.event == .enter && (plan mark.address).stops

/-- A record up to the first stop, which is kept. -/
def upToStop (plan : Address → Reply) : List Mark → List Mark
  | [] => []
  | mark :: marks => if mark.stops plan then [mark] else mark :: upToStop plan marks

variable {plan : Address → Reply}

theorem upToStop_append (left right : List Mark) :
    upToStop plan (left ++ right) =
      if left.any (stops plan) then upToStop plan left else left ++ upToStop plan right := by
  induction left with
  | nil => rfl
  | cons mark left ih =>
      by_cases h : mark.stops plan
      · simp [upToStop, h]
      · simp [upToStop, h, ih]
        split <;> rfl

theorem upToStop_eq_self {marks : List Mark} (h : marks.any (stops plan) = false) :
    upToStop plan marks = marks := by
  have happend := @upToStop_append plan marks []
  simpa [h, upToStop] using happend

theorem any_upToStop (marks : List Mark) :
    (upToStop plan marks).any (stops plan) = marks.any (stops plan) := by
  induction marks with
  | nil => rfl
  | cons mark marks ih =>
      by_cases h : mark.stops plan
      · simp [upToStop, h]
      · simp [upToStop, h, ih]

/-- A plan that only looks on leaves a whole record. -/
theorem upToStop_filter_of_proceed (marks : List Mark) :
    upToStop (fun _ => .proceed) (marks.filter (isLeft fun _ => .proceed)) = marks := by
  have hshown (address : Address) : Address.hidden (fun _ => .proceed) address = false := by
    induction address with
    | nil => rfl
    | cons i above ih => simp [Address.hidden, Reply.prunes, ih]
  have hleft : marks.filter (isLeft fun _ => .proceed) = marks :=
    List.filter_eq_self.mpr fun mark _ => by simp [isLeft, hshown, Reply.prunes]
  rw [hleft]
  exact upToStop_eq_self (by simp [stops, Reply.stops])

end Mark

/-! ## The record of a forest -/

variable {schema : Schema} {lookup : FieldLookup}

/-- The record of a walk through a forest that goes by paths alone: `i` is the number of its first
tree among the siblings. -/
def Forest.marks (schema : Schema) (lookup : FieldLookup) (above : Address) (around : Scope) :
    Forest → Nat → List Mark
  | .nil, _ => []
  | .cons _ head children rest, i =>
      let inner := around.within schema lookup ⟨head, children⟩
      ⟨.enter, i :: above, head.kind, inner⟩ ::
        (children.marks schema lookup (i :: above) inner 0 ++
          ⟨.leave, i :: above, head.kind, inner⟩ :: rest.marks schema lookup above around (i + 1))

def Node.marks (schema : Schema) (lookup : FieldLookup) (address : Address) (around : Scope)
    (node : Node) : List Mark :=
  let inner := around.within schema lookup node
  ⟨.enter, address, node.kind, inner⟩ ::
    (node.children.marks schema lookup address inner 0 ++ [⟨.leave, address, node.kind, inner⟩])

theorem Forest.marks_cons (above : Address) (around : Scope) (role : Role) (head : Head)
    (children rest : Forest) (i : Nat) :
    Forest.marks schema lookup above around (.cons role head children rest) i =
      Node.marks schema lookup (i :: above) around ⟨head, children⟩ ++
        rest.marks schema lookup above around (i + 1) := by
  simp [Forest.marks, Node.marks, Node.kind]

/-- All that a forest shows below a pruned or hidden node is hidden. -/
theorem Forest.filter_marks_of_hidden {plan : Address → Reply} {above : Address}
    (h : ((plan above).prunes || Address.hidden plan above) = true) (forest : Forest)
    (around : Scope) (i : Nat) :
    (forest.marks schema lookup above around i).filter (Mark.isLeft plan) = [] := by
  induction forest generalizing above around i with
  | nil => rfl
  | cons role head children rest ihchildren ihrest =>
      have hnode : Address.hidden plan (i :: above) = true := h
      have hbelow : ((plan (i :: above)).prunes || Address.hidden plan (i :: above)) = true := by
        simp [hnode]
      have hmark (mark : Mark) (haddress : mark.address = i :: above) :
          mark.isLeft plan = false := by
        simp [Mark.isLeft, haddress, hnode]
      simp [Forest.marks, hmark, ihchildren hbelow, ihrest h]

/-- Of a node that nothing hides, its beginning is left. Its end and what it shows below are left
unless it is pruned. -/
theorem Node.filter_marks {plan : Address → Reply} {address : Address}
    (h : Address.hidden plan address = false) (node : Node) (around : Scope) :
    (node.marks schema lookup address around).filter (Mark.isLeft plan) =
      ⟨.enter, address, node.kind, around.within schema lookup node⟩ ::
        if (plan address).prunes then []
        else (node.children.marks schema lookup address (around.within schema lookup node) 0).filter
            (Mark.isLeft plan) ++
          [⟨.leave, address, node.kind, around.within schema lookup node⟩] := by
  by_cases hprunes : (plan address).prunes = true
  · have hbelow : ((plan address).prunes || Address.hidden plan address) = true := by
      simp [hprunes]
    simp [Node.marks, Mark.isLeft, h, hprunes, Forest.filter_marks_of_hidden hbelow]
  · simp [Node.marks, Mark.isLeft, h, hprunes]

/-! ## The walk -/

/-- The walk goes on behind the node. -/
def Walk.Passage.GoesOn : Walk.Passage → Prop
  | .present _ | .removed => True
  | .stopped | .unfinished => False

def Walk.Below.IsDone : Walk.Below → Prop
  | .done _ => True
  | .stopped | .unfinished => False

namespace Observer

variable {σ : Type} {hooks : Address → Observer σ} {plan : Address → Reply}

theorem located_enter (hplan : FollowsPlan hooks plan) (address : Address) (node : Node)
    (c : TypeContext) (s : σ) (log : List Mark) :
    ∃ t, (located hooks).answer ⟨.enter, node, c⟩ (s, address, log) =
      (plan address, t, Address.next (plan address) address,
        log ++ [⟨.enter, address, node.kind, c.scope⟩]) := by
  have hreply := hplan.enter address node c s
  refine ⟨((hooks address).enter node c s).2, ?_⟩
  simp only [answer, located, ← hreply]

theorem located_leave (hplan : FollowsPlan hooks plan) (i : Nat) (address : Address) (node : Node)
    (c : TypeContext) (s : σ) (log : List Mark) :
    ∃ t, (located hooks).answer ⟨.leave, node, c⟩ (s, i :: address, log) =
      (.proceed, t, Address.behind address,
        log ++ [⟨.leave, address, node.kind, c.scope⟩]) := by
  have hreply := hplan.leave address node c s
  refine ⟨((hooks address).leave node c s).2, ?_⟩
  simp only [answer, located, List.tail_cons, ← hreply]

/-- What a part of a walk by a plan comes to, given the calls that the plan leaves of it: it shows
them up to the first stop. If there is none, it ends in a given way, in a given context and with a
given kind of address for what begins next. -/
def Leaves {α : Type} (plan : Address → Reply) (left : List Mark) (c : TypeContext) (here : Address)
    (done : α → Prop) (stopped : α) (c' : TypeContext) (next : Address → Prop)
    (x : EStateM Underflow (State (σ × Address × List Mark)) α) : Prop :=
  ∀ s log, ∃ a d t there,
    x (c, s, here, log) = .ok a (d, t, there, log ++ Mark.upToStop plan left) ∧
      if left.any (Mark.stops plan) then a = stopped else done a ∧ d = c' ∧ next there

namespace Leaves

variable {α β : Type} {left left' : List Mark} {c c' c'' : TypeContext} {here : Address}
  {done : α → Prop} {stopped : α} {next : Address → Prop} {done' : β → Prop} {stopped' : β}
  {next' : Address → Prop} {x : EStateM Underflow (State (σ × Address × List Mark)) α}
  {f : α → EStateM Underflow (State (σ × Address × List Mark)) β}

theorem pure {a : α} (ha : done a) (hnext : next here) :
    Leaves plan [] c here done stopped c next
      (Pure.pure a : EStateM Underflow (State (σ × Address × List Mark)) α) := by
  intro s log
  refine ⟨a, c, s, here, ?_, ha, rfl, hnext⟩
  rw [Mark.upToStop, List.append_nil]
  rfl

theorem bind (hx : Leaves plan left c here done stopped c' next x)
    (hnext : ∀ a there, done a → next there →
      Leaves plan left' c' there done' stopped' c'' next' (f a))
    (hstopped : f stopped = Pure.pure stopped') :
    Leaves plan (left ++ left') c here done' stopped' c'' next' (x >>= f) := by
  intro s log
  obtain ⟨a, d, t, there, hrun, hend⟩ := hx s log
  rw [Stateful.bind_ok hrun, Mark.upToStop_append, List.any_append]
  by_cases hstops : left.any (Mark.stops plan) = true
  · rw [if_pos hstops] at hend
    subst hend
    refine ⟨stopped', d, t, there, ?_, by simp [hstops]⟩
    rw [if_pos hstops, hstopped]
    rfl
  · rw [if_neg hstops] at hend
    obtain ⟨ha, rfl, hthere⟩ := hend
    obtain ⟨b, d', t', there', hrun', hend'⟩ := hnext a there ha hthere t
      (log ++ Mark.upToStop plan left)
    refine ⟨b, d', t', there', ?_, by simpa [hstops] using hend'⟩
    have hall := Mark.upToStop_eq_self (Bool.eq_false_iff.mpr hstops)
    rw [if_neg hstops, hrun', hall, List.append_assoc]

variable {schema : Schema} {lookup : FieldLookup} {bound : Nat} {node : Node}

theorem enter (schema : Schema) (lookup : FieldLookup) (hplan : FollowsPlan hooks plan)
    (here : Address) (node : Node) (c : TypeContext) :
    Leaves plan [⟨.enter, here, node.kind, c.scope.within schema lookup node⟩] c here
      (fun reply => reply = plan here ∧ reply ≠ .stop) .stop
      (entrance schema lookup node c (plan here)) (· = Address.next (plan here) here)
      (((located hooks).visitor schema lookup).enter node) := by
  intro s log
  obtain ⟨t, hanswer⟩ := located_enter hplan here node (c.enter schema lookup node) s log
  rw [TypeContext.scope_enter] at hanswer
  refine ⟨plan here, entrance schema lookup node c (plan here), t, Address.next (plan here) here,
    ?_, ?_⟩
  · rw [visitor_enter hanswer]
    simp only [Mark.upToStop, ite_self]
  · cases hreply : plan here <;> simp [Mark.stops, Reply.stops, hreply]

/-- The end of a node whose children have been walked through. -/
theorem finish (hplan : FollowsPlan hooks plan) (hvacant : c.Vacant bound)
    (hlayer : node.kind.layer ≤ bound) (i : Nat) (children : Forest) :
    Leaves plan [⟨.leave, here, node.kind, c.scope.within schema lookup node⟩]
      (c.enter schema lookup node) (i :: here) Walk.Passage.GoesOn .stopped c
      (· = Address.behind here)
      (Walk.finish ((located hooks).visitor schema lookup) node (.done children)) := by
  intro s log
  have hentered := TypeContext.entered schema lookup node c
  obtain ⟨t, hanswer⟩ := located_leave hplan i here ⟨node.head, children⟩
    (c.enter schema lookup node) s log
  have hend := visitor_leave schema lookup ⟨node.head, children⟩ hentered rfl hanswer
  have hbehind : c.behind node.kind (c.enter schema lookup node) = c :=
    hvacant.behind_eq hlayer hentered
  rw [TypeContext.scope_enter] at hend
  refine ⟨.present ⟨node.head, children⟩, c, t, Address.behind here, ?_, ?_⟩
  · rw [Walk.finish, Stateful.bind_ok hend]
    simp only [Mark.upToStop, Node.kind] at hbehind ⊢
    rw [hbehind]
    rfl
  · simp [Mark.stops, Walk.Passage.GoesOn]

/-- The way through a node that has begun, if its children are walked through by the plan. -/
theorem through {children : EStateM Underflow (State (σ × Address × List Mark)) Walk.Below}
    (hplan : FollowsPlan hooks plan) (hvacant : c.Vacant bound) (hlayer : node.kind.layer ≤ bound)
    (hchildren : Leaves plan left (c.enter schema lookup node) (0 :: here) Walk.Below.IsDone
      .stopped (c.enter schema lookup node) (fun next => ∃ i, next = i :: here) children) :
    Leaves plan (left ++ [⟨.leave, here, node.kind, c.scope.within schema lookup node⟩])
      (c.enter schema lookup node) (0 :: here) Walk.Passage.GoesOn .stopped c
      (· = Address.behind here)
      (children >>= Walk.finish ((located hooks).visitor schema lookup) node) := by
  refine hchildren.bind ?_ rfl
  rintro under there hunder ⟨i, rfl⟩
  cases under with
  | done trees => exact finish hplan hvacant hlayer i trees
  | stopped => exact hunder.elim
  | unfinished => exact hunder.elim

/-- The way past a node that nothing hides, if its children are walked through by the plan. -/
theorem pass {into : Node → EStateM Underflow (State (σ × Address × List Mark)) Walk.Below}
    {children : EStateM Underflow (State (σ × Address × List Mark)) Walk.Below}
    (node : Node) (hplan : FollowsPlan hooks plan) (hvacant : c.Vacant bound)
    (hlayer : node.kind.layer ≤ bound)
    (hshown : Address.hidden plan here = false)
    (hchildren : (plan here).prunes = false → Leaves plan
      ((node.children.marks schema lookup here (c.scope.within schema lookup node) 0).filter
        (Mark.isLeft plan))
      (c.enter schema lookup node) (0 :: here) Walk.Below.IsDone .stopped
      (c.enter schema lookup node) (fun next => ∃ i, next = i :: here) children) :
    Leaves plan ((node.marks schema lookup here c.scope).filter (Mark.isLeft plan)) c here
      Walk.Passage.GoesOn .stopped c
      (· = Address.behind here)
      (Walk.pass ((located hooks).visitor schema lookup) into node children) := by
  have hbehind : c.behind node.kind (c.enter schema lookup node) = c :=
    hvacant.behind_eq hlayer (TypeContext.entered schema lookup node c)
  have hbegin := enter schema lookup hplan here node c
  rw [Node.filter_marks hshown, ← List.singleton_append]
  refine hbegin.bind ?_ rfl
  rintro reply there ⟨rfl, hgoing⟩ rfl
  cases hreply : plan here with
  | proceed =>
      simp only [Reply.prunes, entrance, Address.next]
      exact through hplan hvacant hlayer (hchildren (by simp [hreply, Reply.prunes]))
  | skip =>
      simp only [Reply.prunes, entrance, Address.next, if_true, hbehind]
      exact pure trivial rfl
  | remove =>
      simp only [Reply.prunes, entrance, Address.next, if_true, hbehind]
      exact pure trivial rfl
  | stop => exact absurd hreply hgoing
  | replace other => exact absurd hreply (hplan.keeps here other)

/-- The walk through the trees below a node that is neither pruned nor hidden. -/
theorem below (schema : Schema) (lookup : FieldLookup)
    (into : Node → EStateM Underflow (State (σ × Address × List Mark)) Walk.Below)
    (hplan : FollowsPlan hooks plan) {forest : Forest} (hforest : forest.WellFormed bound)
    (hvacant : c.Vacant bound) {above : Address} (i : Nat)
    (hshown : ((plan above).prunes || Address.hidden plan above) = false) :
    Leaves plan ((forest.marks schema lookup above c.scope i).filter (Mark.isLeft plan)) c
      (i :: above) Walk.Below.IsDone .stopped c (fun next => ∃ i, next = i :: above)
      (Walk.below ((located hooks).visitor schema lookup) into forest) := by
  induction forest generalizing bound c above i with
  | nil => exact pure trivial ⟨i, rfl⟩
  | cons role head children rest ihchildren ihrest =>
      obtain ⟨⟨hlayer, -⟩, hchildren, hrest⟩ := hforest
      have hvacant' := hvacant.entered hlayer
        (TypeContext.entered schema lookup ⟨head, children⟩ c)
      have hnode : Address.hidden plan (i :: above) = false := hshown
      rw [Walk.below_cons, Forest.marks_cons, List.filter_append]
      refine (pass ⟨head, children⟩ hplan hvacant hlayer hnode fun hkept => ?_).bind ?_ rfl
      · have hbelow : ((plan (i :: above)).prunes || Address.hidden plan (i :: above)) = false := by
          simp [hkept, hnode]
        have hinner := ihchildren hchildren hvacant' 0 hbelow
        rwa [TypeContext.scope_enter] at hinner
      · rintro passage there hpassage rfl
        have hothers := ihrest hrest hvacant (i + 1) hshown
        cases passage with
        | present node =>
            rw [← List.append_nil (List.filter _ _)]
            refine hothers.bind (fun under next hunder hnext => ?_) rfl
            cases under with
            | done trees => exact pure trivial hnext
            | stopped => exact hunder.elim
            | unfinished => exact hunder.elim
        | removed => exact hothers
        | stopped => exact hpassage.elim
        | unfinished => exact hpassage.elim

theorem run (schema : Schema) (lookup : FieldLookup) (limit : Nat) (hplan : FollowsPlan hooks plan)
    {document : Node}
    (hdocument : document.WellFormed 5) :
    Leaves plan ((document.marks schema lookup [] .absent).filter (Mark.isLeft plan)) .empty []
      (fun outcome => outcome ≠ .stopped) .stopped .empty (fun _ => True)
      (Walk.run ((located hooks).visitor schema lookup) limit document) := by
  have hvacant := TypeContext.vacant_empty 5
  have hentered := TypeContext.entered schema lookup document .empty
  have hbehind : TypeContext.empty.behind document.kind
      (TypeContext.empty.enter schema lookup document) = .empty :=
    hvacant.behind_eq hdocument.layer_le hentered
  have hbegin := enter schema lookup hplan [] document .empty
  rw [Node.filter_marks rfl, ← List.singleton_append, Walk.run_eq]
  refine hbegin.bind ?_ rfl
  rintro reply there ⟨rfl, hgoing⟩ rfl
  cases hreply : plan [] with
  | proceed =>
      have hopen : ((plan []).prunes || Address.hidden plan []) = false := by
        simp [hreply, Reply.prunes, Address.hidden]
      have hvacant' := hvacant.entered hdocument.layer_le hentered
      have hbelow := below schema lookup
        (Walk.inside ((located hooks).visitor schema lookup) limit) hplan hdocument.children
        hvacant' 0 hopen
      rw [TypeContext.scope_enter] at hbelow
      have hthrough := through hplan hvacant hdocument.layer_le hbelow
      simp only [Reply.prunes, entrance, Address.next]
      rw [← List.append_nil (_ ++ _)]
      refine hthrough.bind (fun passage next hpassage _ => ?_) rfl
      cases passage with
      | present node => exact pure (by simp) trivial
      | removed => exact pure (by simp) trivial
      | stopped => exact hpassage.elim
      | unfinished => exact hpassage.elim
  | skip =>
      simp only [Reply.prunes, entrance, if_true, hbehind]
      exact pure (by simp) trivial
  | remove =>
      simp only [Reply.prunes, entrance, if_true, hbehind]
      exact pure (by simp) trivial
  | stop => exact absurd hreply hgoing
  | replace other => exact absurd hreply (hplan.keeps [] other)

end Leaves

theorem run_located_of_passive {hooks : Address → Observer σ}
    (hpassive : ∀ address, (hooks address).Passive) {document : Node}
    (hdocument : document.WellFormed 5) (schema : Schema) (lookup : FieldLookup) (limit : Nat)
    (s : σ) :
    ∃ t there, (located hooks).run schema lookup limit document (s, [], []) =
      .ok (.finished (some document))
        (.empty, t, there, document.marks schema lookup [] .absent) := by
  have hlocated : (located hooks).Passive :=
    ⟨fun node c s => (hpassive s.2.1).enter node c s.1,
      fun node c s => (hpassive s.2.1.tail).leave node c s.1⟩
  have hquiet := hlocated.quiet (document.calls schema lookup .empty) (s, [], [])
  have hrun : (located hooks).run schema lookup limit document (s, [], []) = _ :=
    run_of_quiet hquiet
  obtain ⟨outcome, c, t, there, hmarks, -⟩ :=
    Leaves.run schema lookup limit (followsPlan_of_passive hpassive) hdocument s []
  rw [List.nil_append, Mark.upToStop_filter_of_proceed] at hmarks
  have hboth := hrun.symm.trans hmarks
  simp only [EStateM.Result.ok.injEq, Prod.mk.injEq] at hboth
  obtain ⟨-, -, hafter⟩ := hboth
  exact ⟨t, there, by rw [hrun, hafter]⟩

/-- An observer that prunes nodes and stops at one, as a plan has it that goes by addresses, is
shown what an observer that only looks on is shown in the same document that was read, without all
that is below a pruned node and without the ends of pruned nodes, up to the first beginning at which
it stops; and the walk is stopped if and only if it gets there. -/
theorem pruning_hides {text : String} {document : Node} {τ : Type} {hooks : Address → Observer σ}
    {onlookers : Address → Observer τ} {plan : Address → Reply} (schema : Schema)
    (lookup : FieldLookup) (limit : Nat) (s : σ) (t : τ) (hplan : FollowsPlan hooks plan)
    (honlookers : ∀ address, (onlookers address).Passive)
    (hparse : Node.parse text = .ok document) :
    ∃ outcome c s' here shown t' there whole,
      (located hooks).run schema lookup limit document (s, [], []) =
        .ok outcome (c, s', here, shown) ∧
      (located onlookers).run schema lookup limit document (t, [], []) =
        .ok (.finished (some document)) (.empty, t', there, whole) ∧
      whole = document.marks schema lookup [] .absent ∧
      shown = Mark.upToStop plan (whole.filter (Mark.isLeft plan)) ∧
      (outcome = .stopped ↔ ∃ mark ∈ shown, mark.stops plan = true) := by
  have hdocument := Node.wellFormed_of_parse hparse
  obtain ⟨t', there, hwhole⟩ :=
    run_located_of_passive honlookers hdocument schema lookup limit t
  obtain ⟨outcome, c, s', here, hrun, hend⟩ :=
    Leaves.run schema lookup limit hplan hdocument s []
  rw [List.nil_append] at hrun
  refine ⟨outcome, c, s', here, _, t', there, _, hrun, hwhole, rfl, rfl, ?_⟩
  rw [← List.any_eq_true, Mark.any_upToStop]
  by_cases hstops : ((document.marks schema lookup [] .absent).filter (Mark.isLeft plan)).any
      (Mark.stops plan) = true
  · rw [if_pos hstops] at hend
    simp [hend, hstops]
  · rw [if_neg hstops] at hend
    simp [hend.1, hstops]

/-- Passes over the argument of a first field, removes its selections, and stops at those of a
second one. -/
def samplePlan : Address → Reply
  | [1, 0, 0, 0] => .skip
  | [3, 0, 0, 0] => .remove
  | [1, 1, 0, 0] => .stop
  | _ => .proceed

/-- The hooks that answer by the sample plan and count the nodes that begin. -/
def sampleHooks (address : Address) : Observer Nat where
  enter _ _ n := (samplePlan address, n + 1)
  leave _ _ n := (.proceed, n)

theorem followsPlan_sampleHooks : FollowsPlan sampleHooks samplePlan where
  enter _ _ _ _ := rfl
  leave _ _ _ _ := rfl
  keeps address other := by
    unfold samplePlan
    split <;> simp

/-- Nodes are pruned in front of a directive with an argument of its own. -/
theorem pruning_hides_on_ring :
    ∃ document outcome c n here shown m there whole,
      FollowsPlan sampleHooks samplePlan ∧ (∀ _ : Address, counter.Passive) ∧
      Node.parse "{a(x: [1]) @d(y: [2]) {a} b {a}}" = .ok document ∧
      (located sampleHooks).run .ring .standard 0 document (0, [], []) =
        .ok outcome (c, n, here, shown) ∧
      (located fun _ => counter).run .ring .standard 0 document (0, [], []) =
        .ok (.finished (some document)) (.empty, m, there, whole) ∧
      whole = document.marks .ring .standard [] .absent ∧
      shown = Mark.upToStop samplePlan (whole.filter (Mark.isLeft samplePlan)) ∧
      (outcome = .stopped ↔ ∃ mark ∈ shown, mark.stops samplePlan = true) := by
  obtain ⟨document, hparse⟩ :
      ∃ document, Node.parse "{a(x: [1]) @d(y: [2]) {a} b {a}}" = .ok document := ⟨_, rfl⟩
  have honlookers : ∀ _ : Address, counter.Passive := fun _ => passive_counter
  obtain ⟨outcome, c, n, here, shown, m, there, whole, h⟩ :=
    pruning_hides .ring .standard 0 0 0 followsPlan_sampleHooks honlookers hparse
  exact ⟨document, outcome, c, n, here, shown, m, there, whole, followsPlan_sampleHooks, honlookers,
    hparse, h⟩

example : (Node.parse "{a(x: [1]) @d(y: [2]) {a} b {a}}").toOption.map
    (fun document => (Mark.upToStop samplePlan ((document.marks .ring .standard [] .absent).filter
      (Mark.isLeft samplePlan))).map fun mark => (mark.event.text, mark.kind.text)) =
    some [("enter", "document"), ("enter", "operation_definition"), ("enter", "selection_set"),
      ("enter", "field"), ("enter", "name"), ("leave", "name"), ("enter", "argument"),
      ("enter", "directive"), ("enter", "name"), ("leave", "name"), ("enter", "argument"),
      ("enter", "name"), ("leave", "name"), ("enter", "list_value"), ("enter", "int_value"),
      ("leave", "int_value"), ("leave", "list_value"), ("leave", "argument"),
      ("leave", "directive"), ("enter", "selection_set"), ("leave", "field"), ("enter", "field"),
      ("enter", "name"), ("leave", "name"), ("enter", "selection_set")] := by
  decide +kernel

end Observer

end TypeTrace
