import TypeTrace.Proofs.Observer

/-! # The stacks stay balanced

Whatever an observer answers, and whatever tree it walks through, the stacks never run empty, each
node that the walk moves past leaves them as they were in front of it, and a walk that is broken off
leaves them as they were in front of the node at which it was. This is told of the record of a walk:
of the answers at each call, and of the context before and behind it.
-/

namespace TypeTrace

/-! ## The record of a walk -/

/-- A call with the observer's answer, and the contexts before it and behind it. -/
structure Moment where
  event : Event
  node : Node
  before : TypeContext
  reply : Reply
  after : TypeContext

namespace Observer

variable {σ : Type}

abbrev Watching (σ : Type) := EStateM Underflow (State σ × List Moment)

def watch (event : Event) (hook : Node → EStateM Underflow (State σ) Reply) (node : Node) :
    Watching σ Reply :=
  fun (s, log) =>
    match hook node s with
    | .ok reply t => .ok reply (t, log ++ [⟨event, node, s.1, reply, t.1⟩])
    | .error fault t => .error fault (t, log)

/-- The visitor that keeps the type context for an observer, with a record of its calls. -/
def watched (observer : Observer σ) (schema : Schema) (lookup : FieldLookup) :
    Visitor Underflow (State σ × List Moment) where
  enter := watch .enter (observer.visitor schema lookup).enter
  leave := watch .leave (observer.visitor schema lookup).leave

theorem watch_ok {event : Event} {hook : Node → EStateM Underflow (State σ) Reply} {node : Node}
    {s t : State σ} {reply : Reply} (h : hook node s = .ok reply t) (log : List Moment) :
    watch event hook node (s, log) = .ok reply (t, log ++ [⟨event, node, s.1, reply, t.1⟩]) := by
  simp only [watch, h]

variable {schema : Schema} {lookup : FieldLookup} {observer : Observer σ}

theorem watched_enter {node : Node} {c : TypeContext} {s s' : σ} {reply : Reply}
    (hreply : observer.answer ⟨.enter, node, c.enter schema lookup node⟩ s = (reply, s'))
    (log : List Moment) :
    (observer.watched schema lookup).enter node ((c, s), log) =
      .ok reply ((entrance schema lookup node c reply, s'),
        log ++ [⟨.enter, node, c, reply, entrance schema lookup node c reply⟩]) :=
  watch_ok (visitor_enter hreply) log

theorem watched_leave (schema : Schema) (lookup : FieldLookup) (node : Node)
    {before inner atEnd : TypeContext} {s s' : σ} {reply : Reply}
    (hentered : before.Entered node.kind inner) (hstacks : atEnd.stacked = inner.stacked)
    (hreply : observer.answer ⟨.leave, node, atEnd⟩ s = (reply, s')) (log : List Moment) :
    (observer.watched schema lookup).leave node ((atEnd, s), log) =
      .ok reply ((before.behind node.kind atEnd, s'),
        log ++ [⟨.leave, node, atEnd, reply, before.behind node.kind atEnd⟩]) :=
  watch_ok (visitor_leave schema lookup node hentered hstacks hreply) log

theorem alike_watched (observer : Observer σ) (schema : Schema) (lookup : FieldLookup) :
    Walk.AlikeVisitors (fun s t => t.1 = s) (observer.visitor schema lookup)
      (observer.watched schema lookup) := by
  have hwatch (event : Event) (hook : Node → EStateM Underflow (State σ) Reply) (node : Node) :
      Walk.Alike (fun s t => t.1 = s) (hook node) (watch event hook node) := by
    rintro _ ⟨s, log⟩ rfl
    unfold watch
    dsimp only
    cases hook node s with
    | ok reply t => exact .ok reply rfl
    | error fault t => exact .error fault rfl
  exact ⟨hwatch .enter _, hwatch .leave _⟩

/-- To keep a record changes nothing about a walk. -/
theorem run_of_watched {observer : Observer σ} {limit : Nat} {document : Node} {s : σ}
    {outcome : Walk.Outcome} {t : State σ} {log : List Moment}
    (h : Walk.run (observer.watched schema lookup) limit document ((.empty, s), []) =
      .ok outcome (t, log)) :
    observer.run schema lookup limit document s = .ok outcome t := by
  have halike := (observer.alike_watched schema lookup).run limit document
    (TypeContext.empty, s) ((TypeContext.empty, s), []) rfl
  rw [h] at halike
  unfold run
  generalize Walk.run (observer.visitor schema lookup) limit document (.empty, s) = result
    at halike ⊢
  cases halike with
  | ok _ hstate => rw [← hstate]

end Observer

/-! ## What a moment does to the context -/

/-- The contexts before and behind a moment are those of the step that its event asks for. -/
def Moment.Steps (schema : Schema) (lookup : FieldLookup) (moment : Moment) : Prop :=
  match moment.event with
  | .enter =>
      moment.after = Observer.entrance schema lookup moment.node moment.before moment.reply
  | .leave => TypeContext.leave moment.node.kind moment.before = .ok () moment.after

namespace Observer

variable {σ : Type} {schema : Schema} {lookup : FieldLookup} {observer : Observer σ}

/-- What the record holds is kept by both hooks: a step is recorded as it was made. -/
theorem watched_steps (observer : Observer σ) (schema : Schema) (lookup : FieldLookup) :
    Walk.AlikeVisitors (fun s t => s = t ∧ ∀ moment ∈ s.2, moment.Steps schema lookup)
      (observer.watched schema lookup) (observer.watched schema lookup) where
  enter := by
    rintro node ⟨⟨c, s⟩, log⟩ _ ⟨rfl, hlog⟩
    obtain ⟨⟨reply, s'⟩, hanswer⟩ :
        ∃ answer, observer.answer ⟨.enter, node, c.enter schema lookup node⟩ s = answer := ⟨_, rfl⟩
    rw [watched_enter hanswer log]
    refine .ok reply ⟨rfl, fun moment hmoment => ?_⟩
    rcases List.mem_append.mp hmoment with hmoment | hmoment
    · exact hlog moment hmoment
    · rw [List.mem_singleton.mp hmoment]
      rfl
  leave := by
    rintro node ⟨⟨c, s⟩, log⟩ _ ⟨rfl, hlog⟩
    change Walk.SameResult _ (watch .leave _ node ((c, s), log)) (watch .leave _ node ((c, s), log))
    unfold watch
    dsimp only
    rw [visitor_leave_eq]
    cases hstep : TypeContext.leave node.kind c with
    | error fault d => exact .error fault ⟨rfl, hlog⟩
    | ok _ d =>
        refine .ok _ ⟨rfl, fun moment hmoment => ?_⟩
        rcases List.mem_append.mp hmoment with hmoment | hmoment
        · exact hlog moment hmoment
        · rw [List.mem_singleton.mp hmoment]
          exact hstep

theorem steps_of_run {limit : Nat} {document : Node} {s t : State σ} {log : List Moment}
    {outcome : Walk.Outcome}
    (h : Walk.run (observer.watched schema lookup) limit document (s, []) =
      .ok outcome (t, log)) :
    ∀ moment ∈ log, moment.Steps schema lookup := by
  have halike := (observer.watched_steps schema lookup).run limit document (s, []) (s, [])
    ⟨rfl, List.forall_mem_nil _⟩
  rw [h] at halike
  cases halike with
  | ok _ hlog => exact hlog.2

end Observer

/-! ## Balance -/

/-- A node that has begun and not ended: its head as it was entered, and the stacks from in front of
it. -/
structure Frame where
  head : Head
  stacked : TypeContext.Stacks

open TypeContext (Settled)

/-- A record is balanced, from some open nodes and a context to others: a node that is passed over
leaves the stacks as they were in front of it, a node that ends is the innermost open one and brings
back the stacks from in front of that one, and nothing comes behind a stop. -/
inductive Balanced : List Frame → TypeContext → List Moment → List Frame → TypeContext → Prop where
  | nil (frames : List Frame) (c : TypeContext) : Balanced frames c [] frames c
  | opening {frames frames' : List Frame} {c d c' : TypeContext} {log : List Moment} (node : Node)
      (h : Balanced (⟨node.head, c.stacked⟩ :: frames) d log frames' c') :
      Balanced frames c (⟨.enter, node, c, .proceed, d⟩ :: log) frames' c'
  | replacing {frames frames' : List Frame} {c d c' : TypeContext} {log : List Moment}
      (node other : Node) (h : Balanced (⟨other.head, c.stacked⟩ :: frames) d log frames' c') :
      Balanced frames c (⟨.enter, node, c, .replace other, d⟩ :: log) frames' c'
  | passing {frames frames' : List Frame} {c d c' : TypeContext} {log : List Moment} (node : Node)
      {reply : Reply} (hreply : reply = .skip ∨ reply = .remove) (hstacks : d.stacked = c.stacked)
      (h : Balanced frames d log frames' c') :
      Balanced frames c (⟨.enter, node, c, reply, d⟩ :: log) frames' c'
  | closing {frame : Frame} {frames frames' : List Frame} {c d c' : TypeContext}
      {log : List Moment} {node : Node} {reply : Reply} (hreply : reply ≠ .stop)
      (hhead : node.head = frame.head) (hstacks : d.stacked = frame.stacked)
      (h : Balanced frames d log frames' c') :
      Balanced (frame :: frames) c (⟨.leave, node, c, reply, d⟩ :: log) frames' c'
  | stoppingAtEnter {c d : TypeContext} (frames : List Frame) (node : Node)
      (hstacks : d.stacked = c.stacked) :
      Balanced frames c [⟨.enter, node, c, .stop, d⟩] frames d
  | stoppingAtLeave {frame : Frame} {c d : TypeContext} (frames : List Frame) {node : Node}
      (hhead : node.head = frame.head) (hstacks : d.stacked = frame.stacked) :
      Balanced (frame :: frames) c [⟨.leave, node, c, .stop, d⟩] frames d

theorem Balanced.trans {frames frames' frames'' : List Frame} {c c' c'' : TypeContext}
    {log log' : List Moment} (h : Balanced frames c log frames' c')
    (hgoing : ∀ moment ∈ log, moment.reply ≠ .stop) (h' : Balanced frames' c' log' frames'' c'') :
    Balanced frames c (log ++ log') frames'' c'' := by
  induction h with
  | nil => exact h'
  | opening node _ ih => exact .opening node (ih (fun m hm => hgoing m (.tail _ hm)) h')
  | replacing node other _ ih =>
      exact .replacing node other (ih (fun m hm => hgoing m (.tail _ hm)) h')
  | passing node hreply hstacks _ ih =>
      exact .passing node hreply hstacks (ih (fun m hm => hgoing m (.tail _ hm)) h')
  | closing hreply hhead hstacks _ ih =>
      exact .closing hreply hhead hstacks (ih (fun m hm => hgoing m (.tail _ hm)) h')
  | stoppingAtEnter => exact absurd rfl (hgoing _ List.mem_cons_self)
  | stoppingAtLeave => exact absurd rfl (hgoing _ List.mem_cons_self)

/-! ## How a part of a walk ends -/

/-- How a part of a walk ends: at its end, at a stop, or where replacements nest too deep. -/
inductive Ending where
  | settled | stopped | unfinished
deriving DecidableEq

def Walk.Below.ending : Walk.Below → Ending
  | .done _ => .settled
  | .stopped => .stopped
  | .unfinished => .unfinished

def Walk.Passage.ending : Walk.Passage → Ending
  | .present _ | .removed => .settled
  | .stopped => .stopped
  | .unfinished => .unfinished

def Walk.Outcome.ending : Walk.Outcome → Ending
  | .finished _ | .refused => .settled
  | .stopped => .stopped
  | .unfinished => .unfinished

/-- What the record of a part of a walk says: it is balanced and has a stop if and only if it ends
there. If it comes to its end, a given list of nodes is open, and the context is settled. -/
structure Stretch (frames : List Frame) (c : TypeContext) (target : List Frame)
    (base : TypeContext) (ending : Ending) (log : List Moment) (d : TypeContext) : Prop where
  balanced : ∃ frames', Balanced frames c log frames' d ∧ (ending = .settled → frames' = target)
  stopped : ending = .stopped ↔ ∃ moment ∈ log, moment.reply = .stop
  settled : ending = .settled → base.Settled d

namespace Stretch

variable {frames middle target : List Frame} {c d c' base base' : TypeContext} {ending : Ending}
  {log log' : List Moment}

theorem nil (hsettled : base.Settled d) (hending : ending ≠ .stopped) :
    Stretch target d target base ending [] d where
  balanced := ⟨target, .nil target d, fun _ => rfl⟩
  stopped := ⟨fun h => absurd h hending, fun ⟨_, h, _⟩ => absurd h List.not_mem_nil⟩
  settled _ := hsettled

theorem cons {moment : Moment} (hreply : moment.reply ≠ .stop)
    (hmoment : ∀ {frames'}, Balanced middle d log frames' c' →
      Balanced frames c (moment :: log) frames' c')
    (h : Stretch middle d target base ending log c') :
    Stretch frames c target base ending (moment :: log) c' where
  balanced := by
    obtain ⟨frames', hbalanced, htarget⟩ := h.balanced
    exact ⟨frames', hmoment hbalanced, htarget⟩
  stopped := by
    rw [h.stopped]
    simp [hreply]
  settled := h.settled

theorem stop {moment : Moment} {frames' : List Frame}
    (hbalanced : Balanced frames c [moment] frames' d) (hreply : moment.reply = .stop)
    (hending : ending = .stopped) : Stretch frames c target base ending [moment] d where
  balanced := ⟨frames', hbalanced, by simp [hending]⟩
  stopped := by simp [hending, hreply]
  settled := by simp [hending]

theorem append (h : Stretch frames c middle base .settled log d)
    (h' : Stretch middle d target base' ending log' c') :
    Stretch frames c target base' ending (log ++ log') c' where
  balanced := by
    obtain ⟨frames', hbalanced, hmiddle⟩ := h.balanced
    obtain ⟨frames'', hbalanced', htarget⟩ := h'.balanced
    have hgoing : ∀ moment ∈ log, moment.reply ≠ .stop := by
      intro moment hmoment hreply
      exact absurd (h.stopped.mpr ⟨moment, hmoment, hreply⟩) (by decide)
    rw [hmiddle rfl] at hbalanced
    exact ⟨frames'', hbalanced.trans hgoing hbalanced', htarget⟩
  stopped := by
    have hnone : ¬ ∃ moment ∈ log, moment.reply = .stop := by
      rw [← h.stopped]
      decide
    rw [h'.stopped]
    constructor
    · rintro ⟨moment, hmoment, hreply⟩
      exact ⟨moment, List.mem_append_right _ hmoment, hreply⟩
    · rintro ⟨moment, hmoment, hreply⟩
      rcases List.mem_append.mp hmoment with hmoment | hmoment
      · exact absurd ⟨moment, hmoment, hreply⟩ hnone
      · exact ⟨moment, hmoment, hreply⟩
  settled := h'.settled

end Stretch

/-! ## Parts of a walk -/

variable {σ α β : Type} {schema : Schema} {lookup : FieldLookup} {observer : Observer σ}

/-- A part of a walk succeeds from a context on, and its record is as it should be. -/
def Steady (frames : List Frame) (c : TypeContext) (target : List Frame) (base : TypeContext)
    (ending : α → Ending) (x : Observer.Watching σ α) : Prop :=
  ∀ s log, ∃ a d t stretch, x ((c, s), log) = .ok a ((d, t), log ++ stretch) ∧
    Stretch frames c target base (ending a) stretch d

namespace Steady

variable {frames middle target : List Frame} {c base base' : TypeContext} {ending : α → Ending}
  {ending' : β → Ending}

theorem still {a : α} (hsettled : base.Settled c) (hending : ending a ≠ .stopped) :
    Steady target c target base ending (Pure.pure a : Observer.Watching σ α) := by
  intro s log
  refine ⟨a, c, s, [], ?_, .nil hsettled hending⟩
  rw [List.append_nil]
  rfl

theorem pure {a : α} (hsettled : base.Settled c) (hending : ending a = .settled) :
    Steady target c target base ending (Pure.pure a : Observer.Watching σ α) := by
  refine still hsettled ?_
  rw [hending]
  decide

theorem bind {x : Observer.Watching σ α} {f : α → Observer.Watching σ β}
    (hx : Steady frames c middle base ending x)
    (hnext : ∀ a d, ending a = .settled → base.Settled d →
      Steady middle d target base' ending' (f a))
    (hend : ∀ a, ending a ≠ .settled → ∃ b, f a = Pure.pure b ∧ ending' b = ending a) :
    Steady frames c target base' ending' (x >>= f) := by
  intro s log
  obtain ⟨a, d, t, stretch, hrun, h⟩ := hx s log
  by_cases hsettled : ending a = .settled
  · obtain ⟨b, d', t', stretch', hrun', h'⟩ := hnext a d hsettled (h.settled hsettled) t
      (log ++ stretch)
    rw [hsettled] at h
    refine ⟨b, d', t', stretch ++ stretch', ?_, h.append h'⟩
    rw [Stateful.bind_ok hrun, hrun', List.append_assoc]
  · -- What is stopped or unfinished is only handed on, so the record is that of the first part.
    obtain ⟨b, hpure, hending⟩ := hend a hsettled
    obtain ⟨frames', hbalanced, -⟩ := h.balanced
    refine ⟨b, d, t, stretch, ?_, ⟨⟨frames', hbalanced, ?_⟩, ?_, ?_⟩⟩
    · rw [Stateful.bind_ok hrun, hpure]
      rfl
    · rw [hending]
      exact fun h => absurd h hsettled
    · rw [hending]
      exact h.stopped
    · rw [hending]
      exact fun h => absurd h hsettled

theorem bind_below {x : Observer.Watching σ Walk.Below} {f : Walk.Below → Observer.Watching σ β}
    (hx : Steady frames c middle base Walk.Below.ending x)
    (hdone : ∀ children d, base.Settled d →
      Steady middle d target base' ending' (f (.done children)))
    (hstopped : ∃ b, f .stopped = Pure.pure b ∧ ending' b = .stopped)
    (hunfinished : ∃ b, f .unfinished = Pure.pure b ∧ ending' b = .unfinished) :
    Steady frames c target base' ending' (x >>= f) := by
  refine hx.bind (fun under d hunder hsettled => ?_) fun under hunder => ?_
  · cases under with
    | done children => exact hdone children d hsettled
    | stopped => exact absurd hunder (by decide)
    | unfinished => exact absurd hunder (by decide)
  · cases under with
    | done children => exact absurd rfl hunder
    | stopped => exact hstopped
    | unfinished => exact hunfinished

theorem bind_passage {x : Observer.Watching σ Walk.Passage}
    {f : Walk.Passage → Observer.Watching σ β}
    (hx : Steady frames c middle base Walk.Passage.ending x)
    (hpresent : ∀ node d, base.Settled d → Steady middle d target base' ending' (f (.present node)))
    (hremoved : ∀ d, base.Settled d → Steady middle d target base' ending' (f .removed))
    (hstopped : ∃ b, f .stopped = Pure.pure b ∧ ending' b = .stopped)
    (hunfinished : ∃ b, f .unfinished = Pure.pure b ∧ ending' b = .unfinished) :
    Steady frames c target base' ending' (x >>= f) := by
  refine hx.bind (fun passage d hpassage hsettled => ?_) fun passage hpassage => ?_
  · cases passage with
    | present node => exact hpresent node d hsettled
    | removed => exact hremoved d hsettled
    | stopped => exact absurd hpassage (by decide)
    | unfinished => exact absurd hpassage (by decide)
  · cases passage with
    | present node => exact absurd rfl hpassage
    | removed => exact absurd rfl hpassage
    | stopped => exact hstopped
    | unfinished => exact hunfinished

theorem enter {node : Node} {f : Reply → Observer.Watching σ α}
    (hproceed : Steady (⟨node.head, c.stacked⟩ :: frames) (c.enter schema lookup node) target base
      ending (f .proceed))
    (hreplace : ∀ other, Steady (⟨other.head, c.stacked⟩ :: frames)
      (Observer.entrance schema lookup node c (.replace other)) target base ending
      (f (.replace other)))
    (hpass : ∀ reply, reply = .skip ∨ reply = .remove →
      Steady frames (c.behind node.kind (c.enter schema lookup node)) target base ending (f reply))
    (hstop : ∃ a, f .stop = Pure.pure a ∧ ending a = .stopped) :
    Steady frames c target base ending ((observer.watched schema lookup).enter node >>= f) := by
  intro s log
  obtain ⟨⟨reply, s'⟩, hanswer⟩ :
      ∃ answer, observer.answer ⟨.enter, node, c.enter schema lookup node⟩ s = answer := ⟨_, rfl⟩
  rw [Stateful.bind_ok (Observer.watched_enter hanswer log)]
  cases reply with
  | proceed =>
      obtain ⟨a, d, t, stretch, hrun, h⟩ := hproceed s' _
      rw [← List.append_cons] at hrun
      exact ⟨a, d, t, _, hrun, h.cons (by simp) (.opening node)⟩
  | replace other =>
      obtain ⟨a, d, t, stretch, hrun, h⟩ := hreplace other s' _
      rw [← List.append_cons] at hrun
      exact ⟨a, d, t, _, hrun, h.cons (by simp) (.replacing node other)⟩
  | skip =>
      obtain ⟨a, d, t, stretch, hrun, h⟩ := hpass .skip (Or.inl rfl) s' _
      rw [← List.append_cons] at hrun
      exact ⟨a, d, t, _, hrun, h.cons (by simp) (.passing node (Or.inl rfl) rfl)⟩
  | remove =>
      obtain ⟨a, d, t, stretch, hrun, h⟩ := hpass .remove (Or.inr rfl) s' _
      rw [← List.append_cons] at hrun
      exact ⟨a, d, t, _, hrun, h.cons (by simp) (.passing node (Or.inr rfl) rfl)⟩
  | stop =>
      obtain ⟨a, hpure, hending⟩ := hstop
      rw [hpure]
      exact ⟨a, _, s', _, rfl, .stop (.stoppingAtEnter frames node rfl) rfl hending⟩

/-- The innermost open node ends, as edited below, and the walk goes on by the observer's answer. -/
theorem leave {node : Node} {children : Forest} {before inner : TypeContext}
    {f : Reply → Observer.Watching σ α}
    (hentered : before.Entered node.kind inner) (hsettled : inner.Settled c)
    (hnext : ∀ reply, reply ≠ .stop →
      Steady frames (before.behind node.kind c) target base ending (f reply))
    (hstop : ∃ a, f .stop = Pure.pure a ∧ ending a = .stopped) :
    Steady (⟨node.head, before.stacked⟩ :: frames) c target base ending
      ((observer.watched schema lookup).leave ⟨node.head, children⟩ >>= f) := by
  intro s log
  obtain ⟨⟨reply, s'⟩, hanswer⟩ :
      ∃ answer, observer.answer ⟨.leave, ⟨node.head, children⟩, c⟩ s = answer := ⟨_, rfl⟩
  have hend := Observer.watched_leave schema lookup ⟨node.head, children⟩ hentered hsettled.stacked
    hanswer log
  rw [Stateful.bind_ok hend]
  by_cases hreply : reply = .stop
  · subst hreply
    obtain ⟨a, hpure, hending⟩ := hstop
    rw [hpure]
    exact ⟨a, _, s', _, rfl, .stop (.stoppingAtLeave frames rfl rfl) rfl hending⟩
  · obtain ⟨a, d, t, stretch, hrun, h⟩ := hnext reply hreply s' (log ++ [⟨.leave,
      ⟨node.head, children⟩, c, reply, before.behind node.kind c⟩])
    rw [← List.append_cons] at hrun
    exact ⟨a, d, t, _, hrun, h.cons hreply (.closing hreply rfl rfl)⟩

theorem finish {node : Node} {before inner : TypeContext} (children : Forest)
    (hentered : before.Entered node.kind inner) (hsettled : inner.Settled c) :
    Steady (⟨node.head, before.stacked⟩ :: frames) c frames before Walk.Passage.ending
      (Walk.finish (observer.watched schema lookup) node (.done children)) := by
  have hbehind := hentered.settled_behind hsettled
  rw [Walk.finish]
  refine leave hentered hsettled (fun reply hreply => ?_) ⟨.stopped, rfl, rfl⟩
  cases reply with
  | stop => exact absurd rfl hreply
  | proceed => exact pure hbehind rfl
  | skip => exact pure hbehind rfl
  | remove => exact pure hbehind rfl
  | replace other => exact pure hbehind rfl

theorem bind_finish {node : Node} {before inner : TypeContext}
    {x : Observer.Watching σ Walk.Below}
    (hentered : before.Entered node.kind inner)
    (hx : Steady (⟨node.head, before.stacked⟩ :: frames) inner
      (⟨node.head, before.stacked⟩ :: frames) inner Walk.Below.ending x) :
    Steady (⟨node.head, before.stacked⟩ :: frames) inner frames before Walk.Passage.ending
      (x >>= Walk.finish (observer.watched schema lookup) node) := by
  refine hx.bind_below (fun children d hsettled => ?_) ⟨.stopped, rfl, rfl⟩ ⟨.unfinished, rfl, rfl⟩
  exact finish children hentered hsettled

theorem mono_base {x : Observer.Watching σ α}
    (hx : Steady frames c target base ending x) (hbase : base'.Settled base) :
    Steady frames c target base' ending x := by
  intro s log
  obtain ⟨a, d, t, stretch, hrun, h⟩ := hx s log
  exact ⟨a, d, t, stretch, hrun, h.balanced, h.stopped, fun hend => hbase.trans (h.settled hend)⟩

/-- A node that is replaced at its beginning: its own context is taken back before that of the
replacement is entered. -/
theorem replaced {x : Observer.Watching σ Walk.Below}
    (node other : Node) (hx : ∀ frames c, Steady frames c frames c Walk.Below.ending x) :
    Steady (⟨other.head, c.stacked⟩ :: frames)
      (Observer.entrance schema lookup node c (.replace other)) frames c Walk.Passage.ending
      (x >>= Walk.finish (observer.watched schema lookup) other) := by
  have hbehind : c.Settled (c.behind node.kind (c.enter schema lookup node)) :=
    (TypeContext.entered schema lookup node c).settled_behind (.refl _)
  have hother := TypeContext.entered schema lookup other
    (c.behind node.kind (c.enter schema lookup node))
  exact (bind_finish hother (hx _ _)).mono_base hbehind

/-- The way past a node, if the walk through its children and the one through what is below a
replacement are steady. -/
theorem pass {into : Node → Observer.Watching σ Walk.Below}
    (hinto : ∀ frames c node, Steady frames c frames c Walk.Below.ending (into node))
    {children : Observer.Watching σ Walk.Below}
    (hchildren : ∀ frames c, Steady frames c frames c Walk.Below.ending children) (node : Node) :
    Steady frames c frames c Walk.Passage.ending
      (Walk.pass (observer.watched schema lookup) into node children) := by
  have hbehind : c.Settled (c.behind node.kind (c.enter schema lookup node)) :=
    (TypeContext.entered schema lookup node c).settled_behind (.refl _)
  refine enter ?_ ?_ ?_ ⟨.stopped, rfl, rfl⟩
  · exact bind_finish (TypeContext.entered schema lookup _ c) (hchildren _ _)
  · intro other
    exact replaced node other fun frames c => hinto frames c other
  · rintro reply (rfl | rfl)
    · exact pure hbehind rfl
    · exact pure hbehind rfl

theorem below {into : Node → Observer.Watching σ Walk.Below}
    (hinto : ∀ frames c node, Steady frames c frames c Walk.Below.ending (into node))
    (forest : Forest) (frames : List Frame) (c : TypeContext) :
    Steady frames c frames c Walk.Below.ending
      (Walk.below (observer.watched schema lookup) into forest) := by
  induction forest generalizing frames c with
  | nil => exact pure (.refl c) rfl
  | cons role head children rest ihchildren ihrest =>
      rw [Walk.below_cons]
      -- What is behind a node starts from the context that the node leaves, not from `c`.
      refine (pass hinto ihchildren ⟨head, children⟩).bind_passage (fun node d hsettled => ?_)
        (fun d hsettled => ?_) ⟨.stopped, rfl, rfl⟩ ⟨.unfinished, rfl, rfl⟩
      · have hrest := (ihrest frames d).mono_base hsettled
        refine hrest.bind_below (fun rest d' hsettled' => ?_)
          ⟨.stopped, rfl, rfl⟩ ⟨.unfinished, rfl, rfl⟩
        exact pure hsettled' rfl
      · exact (ihrest frames d).mono_base hsettled

theorem inside (limit : Nat) (frames : List Frame) (c : TypeContext) (node : Node) :
    Steady frames c frames c Walk.Below.ending
      (Walk.inside (observer.watched schema lookup) limit node) := by
  induction limit generalizing frames c node with
  | zero => exact still (.refl c) (by decide)
  | succ limit ih => exact below ih node.children frames c

theorem conclude {passage : Observer.Watching σ Walk.Passage}
    (hpassage : Steady frames c target base Walk.Passage.ending passage) :
    Steady frames c target base Walk.Outcome.ending (passage >>= Walk.run.conclude) := by
  refine hpassage.bind_passage (fun node d hsettled => ?_) (fun d hsettled => ?_)
    ⟨.stopped, rfl, rfl⟩ ⟨.unfinished, rfl, rfl⟩
  · exact pure hsettled rfl
  · exact pure hsettled rfl

theorem run (limit : Nat) (document : Node) (c : TypeContext) :
    Steady [] c [] c Walk.Outcome.ending
      (Walk.run (observer.watched schema lookup) limit document) := by
  have hbehind : c.Settled (c.behind document.kind (c.enter schema lookup document)) :=
    (TypeContext.entered schema lookup document c).settled_behind (.refl _)
  rw [Walk.run_eq]
  refine enter ?_ ?_ ?_ ⟨.stopped, rfl, rfl⟩
  · have hentered := TypeContext.entered schema lookup document c
    exact (bind_finish hentered (below (inside limit) _ _ _)).conclude
  · intro other
    exact (replaced document other fun frames c => inside limit frames c other).conclude
  · rintro reply (rfl | rfl)
    · exact pure hbehind rfl
    · exact pure hbehind rfl

end Steady

/-- Whatever an observer answers, a walk with it never finds a stack empty, and its record is
balanced. If it is not stopped and replacements do not nest too deep, every node that has begun has
ended and the context is empty, slots included. -/
theorem Observer.run_balanced (observer : Observer σ) (schema : Schema) (lookup : FieldLookup)
    (limit : Nat) (document : Node) (s : σ) :
    ∃ outcome c t log frames,
      observer.run schema lookup limit document s = .ok outcome (c, t) ∧
      Walk.run (observer.watched schema lookup) limit document ((.empty, s), []) =
        .ok outcome ((c, t), log) ∧
      Balanced [] .empty log frames c ∧
      (outcome = .stopped ↔ ∃ moment ∈ log, moment.reply = .stop) ∧
      (outcome ≠ .stopped → outcome ≠ .unfinished → frames = [] ∧ c = .empty) := by
  have hsteady : Steady [] .empty [] .empty Walk.Outcome.ending
      (Walk.run (observer.watched schema lookup) limit document) :=
    .run limit document .empty
  obtain ⟨outcome, c, t, log, hwatched, h⟩ := hsteady s []
  obtain ⟨frames, hbalanced, hframes⟩ := h.balanced
  have hrun : observer.run schema lookup limit document s = .ok outcome (c, t) := by
    have halike := (observer.alike_watched schema lookup).run limit document
      (TypeContext.empty, s) ((TypeContext.empty, s), []) rfl
    rw [hwatched] at halike
    unfold run
    generalize Walk.run (observer.visitor schema lookup) limit document (.empty, s) = result
      at halike ⊢
    cases halike with
    | ok _ hstate => rw [← hstate]
  have hstopped : outcome = .stopped ↔ outcome.ending = .stopped := by
    cases outcome <;> simp [Walk.Outcome.ending]
  refine ⟨outcome, c, t, log, frames, hrun, hwatched, hbalanced, hstopped.trans h.stopped, ?_⟩
  intro hgoing hfinite
  have hsettled : outcome.ending = .settled := by
    cases outcome with
    | finished document => rfl
    | refused => rfl
    | stopped => exact absurd rfl hgoing
    | unfinished => exact absurd rfl hfinite
  exact ⟨hframes hsettled, (h.settled hsettled).eq_empty⟩

end TypeTrace
