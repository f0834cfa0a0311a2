import TypeTrace.Notice
import TypeTrace.Proofs.Stateful

/-! # Results and notices

What a computation gives back does not depend on the notices. A property of what it returns, and an
answer that it gives, are put together from those of its steps. One computation entails another if the
other one gives back all that it gives back, whatever either of them has noted.
-/

namespace TypeTrace.Noting

variable {ε ε' α β : Type}

theorem mapError_eq_ok {f : ε → ε'} {x : Noting ε α} {start after : List Notice} {a : α} :
    x.mapError f start = .ok a after ↔ x start = .ok a after := by
  unfold Noting.mapError
  cases x start <;> simp

theorem mapError_eq_error {f : ε → ε'} {x : Noting ε α} {start after : List Notice} {fault : ε'} :
    x.mapError f start = .error fault after ↔
      ∃ cause, x start = .error cause after ∧ f cause = fault := by
  unfold Noting.mapError
  cases x start with
  | ok a notices => simp
  | error cause notices =>
      constructor
      · rintro ⟨rfl⟩
        exact ⟨cause, rfl, rfl⟩
      · rintro ⟨_, ⟨rfl⟩, rfl⟩
        rfl

theorem lift_eq_ok {f : ε → ε'} {x : Except ε α} {start after : List Notice} {a : α} :
    lift f x start = .ok a after ↔ x = .ok a ∧ start = after := by
  cases x with
  | error fault => exact ⟨nofun, nofun⟩
  | ok b =>
      constructor
      · rintro ⟨rfl⟩
        exact ⟨rfl, rfl⟩
      · rintro ⟨⟨rfl⟩, rfl⟩
        rfl

theorem lift_eq_error {f : ε → ε'} {x : Except ε α} {start after : List Notice} {fault : ε'}
    (h : lift f x start = .error fault after) : ∃ cause, x = .error cause ∧ f cause = fault := by
  cases x with
  | error cause =>
      cases h
      exact ⟨cause, rfl, rfl⟩
  | ok b => cases h

/-! ## What computations return -/

section

variable {P : α → Prop} {Q : β → Prop}

/-- Whatever the computation gives back, if it does not fail, has the property. -/
def Returns (x : Noting ε α) (P : α → Prop) : Prop :=
  ∀ notices a after, x notices = .ok a after → P a

theorem Returns.pure {a : α} (h : P a) : Returns (Pure.pure a : Noting ε α) P := by
  intro notices b after heq
  cases heq
  exact h

theorem Returns.throw (fault : ε) : Returns (throw fault : Noting ε α) P := by
  intro notices a after heq
  cases heq

theorem Returns.bind {x : Noting ε α} {next : α → Noting ε β} (h : x.Returns P)
    (hnext : ∀ a, P a → (next a).Returns Q) : Returns (x >>= next) Q := by
  intro notices b after heq
  obtain ⟨a, middle, ha, hb⟩ := Stateful.exists_of_bind_eq_ok heq
  exact hnext a (h notices a middle ha) middle b after hb

theorem Returns.after {x : Noting ε α} {next : α → Noting ε β} (hnext : ∀ a, (next a).Returns Q) :
    Returns (x >>= next) Q := by
  have hx : x.Returns fun _ => True := fun _ _ _ _ => trivial
  exact hx.bind fun a _ => hnext a

theorem Returns.lift {f : ε → ε'} {x : Except ε α} (h : ∀ a, x = .ok a → P a) :
    (lift f x).Returns P := by
  cases x with
  | error fault => exact Returns.throw _
  | ok a => exact Returns.pure (h a rfl)

theorem Returns.mapError {f : ε → ε'} {x : Noting ε α} (h : x.Returns P) :
    (x.mapError f).Returns P :=
  fun notices a after heq => h notices a after (mapError_eq_ok.mp heq)

theorem Returns.mapM {f : α → Noting ε β} (h : ∀ a, (f a).Returns Q) (as : List α) :
    (as.mapM f).Returns fun bs => ∀ b ∈ bs, Q b := by
  induction as with
  | nil => exact Returns.pure (List.forall_mem_nil _)
  | cons a as ih =>
      rw [List.mapM_cons]
      exact (h a).bind fun b hb => ih.bind fun bs hbs =>
        Returns.pure (List.forall_mem_cons.mpr ⟨hb, hbs⟩)

end

/-! ## Answers -/

/-- A computation gives an answer, whatever has been noted. -/
def Answers (x : Noting ε α) (answer : Except ε α) : Prop :=
  ∀ start, ∃ after, x start = match answer with
    | .ok a => .ok a after
    | .error fault => .error fault after

theorem Answers.pure (a : α) : Answers (Pure.pure a : Noting ε α) (.ok a) :=
  fun start => ⟨start, rfl⟩

theorem Answers.throw (fault : ε) : Answers (throw fault : Noting ε α) (.error fault) :=
  fun start => ⟨start, rfl⟩

theorem Answers.lift (f : ε → ε') (answer : Except ε α) :
    Answers (Noting.lift f answer) (answer.mapError f) := by
  intro start
  cases answer with
  | ok a => exact ⟨start, rfl⟩
  | error fault => exact ⟨start, rfl⟩

theorem Answers.lift_id (answer : Except ε α) : Answers (Noting.lift id answer) answer := by
  have h := Answers.lift id answer
  cases answer <;> exact h

theorem Answers.bind {x : Noting ε α} {answer : Except ε α} {next : α → Noting ε β}
    {then' : α → Except ε β} (h : x.Answers answer) (hnext : ∀ a, (next a).Answers (then' a)) :
    Answers (x >>= next) (answer >>= then') := by
  intro start
  obtain ⟨after, hx⟩ := h start
  cases answer with
  | error fault => exact ⟨after, Stateful.bind_error hx⟩
  | ok a =>
      obtain ⟨last, hlast⟩ := hnext a after
      refine ⟨last, ?_⟩
      rw [Stateful.bind_ok hx]
      exact hlast

theorem Answers.after_note {x : Noting ε α} {answer : Except ε α} (n : Notice)
    (h : x.Answers answer) : Answers (note n >>= fun _ => x) answer :=
  fun start => h (start ++ [n])

theorem Answers.mapM {f : α → Noting ε β} {g : α → Except ε β} (h : ∀ a, (f a).Answers (g a))
    (as : List α) : Answers (as.mapM f) (as.mapM g) := by
  induction as with
  | nil => exact Answers.pure []
  | cons a as ih =>
      rw [List.mapM_cons, List.mapM_cons]
      exact (h a).bind fun b => ih.bind fun bs => Answers.pure (b :: bs)

theorem Answers.eq_ok {x : Noting ε α} {answer : Except ε α} (h : x.Answers answer)
    {start after : List Notice} {a : α} (hx : x start = .ok a after) : answer = .ok a := by
  obtain ⟨after', hanswer⟩ := h start
  rw [hx] at hanswer
  cases answer with
  | error fault => cases hanswer
  | ok b =>
      cases hanswer
      rfl

theorem Answers.eq_error {x : Noting ε α} {answer : Except ε α} (h : x.Answers answer)
    {start after : List Notice} {fault : ε} (hx : x start = .error fault after) :
    answer = .error fault := by
  obtain ⟨after', hanswer⟩ := h start
  rw [hx] at hanswer
  cases answer with
  | error cause =>
      cases hanswer
      rfl
  | ok b => cases hanswer

theorem Answers.of_eq_ok {x : Noting ε α} {answer : Except ε α} (h : x.Answers answer) {a : α}
    (ha : answer = .ok a) (start : List Notice) : ∃ after, x start = .ok a after := by
  rw [ha] at h
  exact h start

/-! ## Notices -/

/-- A computation gives back a value and leaves notices, whatever has been noted before. -/
def Notes (x : Noting ε α) (noted : List Notice) (a : α) : Prop :=
  ∀ start, x start = .ok a (start ++ noted)

theorem Notes.unique {x : Noting ε α} {noted noted' : List Notice} {a b : α} (h : x.Notes noted a)
    (h' : x.Notes noted' b) : noted = noted' ∧ a = b := by
  have hsame := (h []).symm.trans (h' [])
  cases hsame
  exact ⟨rfl, rfl⟩

theorem Notes.pure (a : α) : Notes (Pure.pure a : Noting ε α) [] a := by
  intro start
  rw [List.append_nil]
  rfl

theorem Notes.note (n : Notice) : Notes (note n : Noting ε Unit) [n] () := fun _ => rfl

theorem Notes.lift (f : ε → ε') {x : Except ε α} {a : α} (h : x = .ok a) :
    Notes (Noting.lift f x) [] a := by
  rw [h]
  exact Notes.pure a

theorem Notes.bind {x : Noting ε α} {next : α → Noting ε β} {noted more : List Notice} {a : α} {b : β}
    (h : x.Notes noted a) (hnext : (next a).Notes more b) : Notes (x >>= next) (noted ++ more) b := by
  intro start
  rw [Stateful.bind_ok (h start), hnext, List.append_assoc]

/-- A first step that says nothing. -/
theorem Notes.after {x : Noting ε α} {next : α → Noting ε β} {noted : List Notice} {a : α} {b : β}
    (h : x.Notes [] a) (hnext : (next a).Notes noted b) : Notes (x >>= next) noted b :=
  h.bind hnext

/-- A last step that says nothing. -/
theorem Notes.before {x : Noting ε α} {next : α → Noting ε β} {noted : List Notice} {a : α} {b : β}
    (h : x.Notes noted a) (hnext : (next a).Notes [] b) : Notes (x >>= next) noted b :=
  List.append_nil noted ▸ h.bind hnext

theorem Notes.mapM {f : α → Noting ε β} {noted : α → List Notice} {g : α → β} {as : List α}
    (h : ∀ a ∈ as, (f a).Notes (noted a) (g a)) :
    Notes (as.mapM f) (as.flatMap noted) (as.map g) := by
  induction as with
  | nil => exact Notes.pure []
  | cons a as ih =>
      have ⟨ha, has⟩ := List.forall_mem_cons.mp h
      rw [List.mapM_cons, List.flatMap_cons, List.map_cons]
      exact ha.bind ((ih has).before (Notes.pure _))

/-! ## Entailment -/

/-- What one computation gives back, the other one gives back as well. -/
def Entails (x y : Noting ε α) : Prop :=
  ∀ start a after, x start = .ok a after → ∀ start', ∃ after', y start' = .ok a after'

theorem Answers.entails {x y : Noting ε α} {answer answer' : Except ε α} (hx : x.Answers answer)
    (hy : y.Answers answer') (h : ∀ a, answer = .ok a → answer' = .ok a) : Entails x y := by
  intro start a after hstart start'
  exact hy.of_eq_ok (h a (hx.eq_ok hstart)) start'

theorem Answers.entails_self {x : Noting ε α} {answer : Except ε α} (h : x.Answers answer) :
    Entails x x :=
  h.entails h fun _ h => h

theorem Entails.mapError {f : ε → ε'} {x y : Noting ε α} (h : Entails x y) :
    Entails (x.mapError f) (y.mapError f) := by
  intro start a after hx start'
  obtain ⟨after', hafter⟩ := h _ _ _ (mapError_eq_ok.mp hx) start'
  exact ⟨after', mapError_eq_ok.mpr hafter⟩

theorem Entails.bind {x y : Noting ε α} {next next' : α → Noting ε β} (h : Entails x y)
    (hnext : ∀ a, Entails (next a) (next' a)) : Entails (x >>= next) (y >>= next') := by
  intro start b after hx start'
  obtain ⟨a, middle, ha, hb⟩ := Stateful.exists_of_bind_eq_ok hx
  obtain ⟨middle', ha'⟩ := h _ _ _ ha start'
  obtain ⟨after', hb'⟩ := hnext a _ _ _ hb middle'
  exact ⟨after', by rw [Stateful.bind_ok ha']; exact hb'⟩

end TypeTrace.Noting
