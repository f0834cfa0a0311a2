import TypeTrace.Proofs.Stateful
import TypeTrace.Walk

/-! # Walks step by step

A walk through a forest passes its first tree and then goes on with the others, and a walk through a
document passes its root. Two visitors that answer alike from related states make walks that come
out alike.
-/

namespace TypeTrace.Walk

variable {ε σ τ α β : Type}

/-! ## Equations -/

/-- The way past a node whose children are walked through by `children`. -/
def pass (visitor : Visitor ε σ) (into : Node → EStateM ε σ Below) (node : Node)
    (children : EStateM ε σ Below) : EStateM ε σ Passage := do
  match ← visitor.enter node with
  | .proceed => finish visitor node (← children)
  | .skip => pure (.present node)
  | .remove => pure .removed
  | .stop => pure .stopped
  | .replace other => finish visitor other (← into other)

abbrev past (visitor : Visitor ε σ) (limit : Nat) (node : Node) : EStateM ε σ Passage :=
  pass visitor (inside visitor limit) node (below visitor (inside visitor limit) node.children)

/-- The trees behind one that the walk has passed, walked through by `rest`. -/
def proceed (role : Role) (rest : EStateM ε σ Below) : Passage → EStateM ε σ Below
  | .stopped => return .stopped
  | .unfinished => return .unfinished
  | .removed => rest
  | .present node => do
    match ← rest with
    | .done rest => return .done (rest.push role node)
    | other => return other

theorem below_cons (visitor : Visitor ε σ) (into : Node → EStateM ε σ Below) (role : Role)
    (head : Head) (children rest : Forest) :
    below visitor into (.cons role head children rest) =
      pass visitor into ⟨head, children⟩ (below visitor into children) >>=
        proceed role (below visitor into rest) := by
  rw [below, pass, bind_assoc]
  refine bind_congr fun reply => ?_
  cases reply with
  | proceed => rw [bind_assoc]; rfl
  | replace other => rw [bind_assoc]; rfl
  | _ => rfl

theorem run_eq (visitor : Visitor ε σ) (limit : Nat) (document : Node) :
    run visitor limit document = visitor.enter document >>= fun reply =>
      match reply with
      | .proceed =>
          below visitor (inside visitor limit) document.children >>= finish visitor document >>=
            run.conclude
      | .replace other => inside visitor limit other >>= finish visitor other >>= run.conclude
      | .skip | .remove => pure .refused
      | .stop => pure .stopped := by
  rw [run]
  refine bind_congr fun reply => ?_
  cases reply with
  | proceed => exact (bind_assoc _ _ _).symm
  | replace other => exact (bind_assoc _ _ _).symm
  | _ => rfl

/-- A walk goes on with the trees behind one that stays, and keeps what becomes of all of them. -/
theorem below_of_present {visitor : Visitor ε σ} {into : Node → EStateM ε σ Below} {role : Role}
    {head : Head} {children rest rest' : Forest} {node : Node} {s t u : σ}
    (hpass : pass visitor into ⟨head, children⟩ (below visitor into children) s =
      .ok (.present node) t)
    (hrest : below visitor into rest t = .ok (.done rest') u) :
    below visitor into (.cons role head children rest) s =
      .ok (.done (rest'.push role node)) u := by
  rw [below_cons, Stateful.bind_ok hpass, proceed, Stateful.bind_ok hrest]
  rfl

theorem run_of_enter {visitor : Visitor ε σ} {limit : Nat} {document : Node} {s t : σ}
    {reply : Reply} (h : visitor.enter document s = .ok reply t)
    (hreply : reply = .proceed ∨ ∃ other, reply = .replace other) :
    run visitor limit document s = (past visitor limit document >>= run.conclude) s := by
  rw [run_eq, past, pass, Stateful.bind_ok h, bind_assoc (visitor.enter document),
    Stateful.bind_ok h]
  rcases hreply with rfl | ⟨other, rfl⟩
  · rfl
  · rfl

/-! ## Relations that walks keep -/

/-- A relation of computations: it holds of two that give the same back at once, and of two that go on
in related ways from related computations. -/
structure Parametric (P : ∀ α : Type, EStateM ε σ α → EStateM ε τ α → Prop) : Prop where
  pure : ∀ {α : Type} (a : α), P α (Pure.pure a) (Pure.pure a)
  bind : ∀ {α β : Type} {x : EStateM ε σ α} {y : EStateM ε τ α} {f : α → EStateM ε σ β}
    {g : α → EStateM ε τ β}, P α x y → (∀ a, P β (f a) (g a)) → P β (x >>= f) (y >>= g)

namespace Parametric

variable {P : ∀ α : Type, EStateM ε σ α → EStateM ε τ α → Prop} {v : Visitor ε σ}
  {w : Visitor ε τ}

section

variable (h : Parametric P) (henter : ∀ node, P Reply (v.enter node) (w.enter node))
  (hleave : ∀ node, P Reply (v.leave node) (w.leave node))

include h hleave

theorem finish (node : Node) (under : Below) :
    P Passage (Walk.finish v node under) (Walk.finish w node under) := by
  cases under with
  | done children =>
      refine h.bind (hleave _) fun reply => ?_
      cases reply <;> exact h.pure _
  | stopped => exact h.pure _
  | unfinished => exact h.pure _

include henter

theorem below {into : Node → EStateM ε σ Below} {into' : Node → EStateM ε τ Below}
    (hinto : ∀ node, P Below (into node) (into' node)) (forest : Forest) :
    P Below (Walk.below v into forest) (Walk.below w into' forest) := by
  induction forest with
  | nil => exact h.pure _
  | cons role head children rest ihchildren ihrest =>
      rw [below_cons, below_cons]
      refine h.bind (h.bind (henter _) fun reply => ?_) fun passage => ?_
      · cases reply with
        | proceed => exact h.bind ihchildren (h.finish hleave _)
        | replace other => exact h.bind (hinto other) (h.finish hleave other)
        | _ => exact h.pure _
      · cases passage with
        | present node =>
            refine h.bind ihrest fun under => ?_
            cases under <;> exact h.pure _
        | removed => exact ihrest
        | _ => exact h.pure _

theorem inside (limit : Nat) (node : Node) :
    P Below (Walk.inside v limit node) (Walk.inside w limit node) := by
  induction limit generalizing node with
  | zero => exact h.pure _
  | succ limit ih => exact h.below henter hleave ih node.children

/-- Walks are related if what the visitors do is. -/
theorem run (limit : Nat) (document : Node) :
    P Outcome (Walk.run v limit document) (Walk.run w limit document) := by
  have hconclude (passage : Passage) :
      P Outcome (run.conclude passage) (Walk.run.conclude passage) := by
    cases passage <;> exact h.pure _
  have hinside := h.inside henter hleave limit
  rw [run_eq, run_eq]
  refine h.bind (henter document) fun reply => ?_
  cases reply with
  | proceed =>
      exact h.bind (h.bind (h.below henter hleave hinside _) (h.finish hleave document)) hconclude
  | replace other => exact h.bind (h.bind (hinside other) (h.finish hleave other)) hconclude
  | _ => exact h.pure _

end

end Parametric

/-! ## Walks that come out alike -/

/-- The same answer, or the same fault, with states that are related. -/
inductive SameResult (R : σ → τ → Prop) :
    EStateM.Result ε σ α → EStateM.Result ε τ α → Prop where
  | ok (a : α) {s : σ} {t : τ} (h : R s t) : SameResult R (.ok a s) (.ok a t)
  | error (e : ε) {s : σ} {t : τ} (h : R s t) : SameResult R (.error e s) (.error e t)

def Alike (R : σ → τ → Prop) (x : EStateM ε σ α) (y : EStateM ε τ α) : Prop :=
  ∀ s t, R s t → SameResult R (x s) (y t)

variable {R : σ → τ → Prop}

theorem Alike.pure (a : α) : Alike (ε := ε) R (pure a) (pure a) :=
  fun _ _ h => SameResult.ok a h

theorem Alike.bind {x : EStateM ε σ α} {y : EStateM ε τ α} {f : α → EStateM ε σ β}
    {g : α → EStateM ε τ β} (h : Alike R x y) (hnext : ∀ a, Alike R (f a) (g a)) :
    Alike R (x >>= f) (y >>= g) := by
  intro s t hst
  change SameResult R (EStateM.bind x f s) (EStateM.bind y g t)
  have hxy := h s t hst
  unfold EStateM.bind
  generalize x s = result at hxy ⊢
  generalize y t = result' at hxy ⊢
  cases hxy with
  | ok a hst' => exact hnext a _ _ hst'
  | error e hst' => exact SameResult.error e hst'

structure AlikeVisitors (R : σ → τ → Prop) (v : Visitor ε σ) (w : Visitor ε τ) : Prop where
  enter : ∀ node, Alike R (v.enter node) (w.enter node)
  leave : ∀ node, Alike R (v.leave node) (w.leave node)

theorem parametric_alike : Parametric fun α => Alike (ε := ε) (α := α) R where
  pure := Alike.pure
  bind := Alike.bind

theorem AlikeVisitors.run {v : Visitor ε σ} {w : Visitor ε τ} (h : AlikeVisitors R v w)
    (limit : Nat) (document : Node) :
    Alike R (Walk.run v limit document) (Walk.run w limit document) :=
  parametric_alike.run h.enter h.leave limit document

end TypeTrace.Walk
