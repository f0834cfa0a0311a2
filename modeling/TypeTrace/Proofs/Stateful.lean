/-! # Computations taken apart

A computation that goes on with what another one gives back has come to its end through that one.
-/

namespace TypeTrace.Stateful

variable {ε σ α β : Type} {x : EStateM ε σ α} {next : α → EStateM ε σ β} {s u : σ}

/-- The end of a computation: what it gives back, or its fault, and a state. -/
def ending : Except ε α → σ → EStateM.Result ε σ α
  | .ok a, s => .ok a s
  | .error fault, s => .error fault s

theorem bind_ok {a : α} (h : x s = .ok a u) : (x >>= next) s = next a u := by
  change EStateM.bind x next s = next a u
  unfold EStateM.bind
  rw [h]

theorem bind_error {fault : ε} (h : x s = .error fault u) :
    (x >>= next) s = .error fault u := by
  change EStateM.bind x next s = .error fault u
  unfold EStateM.bind
  rw [h]

theorem exists_of_bind_eq_ok {b : β} (h : (x >>= next) s = .ok b u) :
    ∃ a t, x s = .ok a t ∧ next a t = .ok b u := by
  change EStateM.bind x next s = .ok b u at h
  unfold EStateM.bind at h
  split at h
  · next a t hx => exact ⟨a, t, hx, h⟩
  · cases h

theorem of_bind_eq_error {fault : ε} (h : (x >>= next) s = .error fault u) :
    x s = .error fault u ∨ ∃ a t, x s = .ok a t ∧ next a t = .error fault u := by
  change EStateM.bind x next s = .error fault u at h
  unfold EStateM.bind at h
  split at h
  · next a t hx => exact Or.inr ⟨a, t, hx, h⟩
  · next hx =>
      cases h
      exact Or.inl hx

theorem exists_of_mapM_eq_ok {f : α → EStateM ε σ β} {as : List α} {bs : List β}
    (h : as.mapM f s = .ok bs u) {a : α} (ha : a ∈ as) : ∃ s b u, f a s = .ok b u := by
  induction as generalizing s bs with
  | nil => cases ha
  | cons first as ih =>
      rw [List.mapM_cons] at h
      obtain ⟨b, t, hb, h⟩ := exists_of_bind_eq_ok h
      obtain ⟨others, t', hothers, h⟩ := exists_of_bind_eq_ok h
      cases h
      rcases List.mem_cons.mp ha with rfl | ha
      · exact ⟨s, b, t, hb⟩
      · exact ih hothers ha

theorem exists_of_mapM_eq_error {f : α → EStateM ε σ β} {as : List α} {fault : ε}
    (h : as.mapM f s = .error fault u) : ∃ a ∈ as, ∃ s u, f a s = .error fault u := by
  induction as generalizing s with
  | nil => cases h
  | cons a as ih =>
      rw [List.mapM_cons] at h
      rcases of_bind_eq_error h with ha | ⟨b, t, -, h⟩
      · exact ⟨a, List.mem_cons_self, s, u, ha⟩
      · rcases of_bind_eq_error h with has | ⟨bs, t', -, h⟩
        · obtain ⟨a', ha', hfails⟩ := ih has
          exact ⟨a', List.mem_cons_of_mem _ ha', hfails⟩
        · cases h

theorem discard_eq (x : EStateM ε σ α) (s : σ) :
    discard x s = match x s with
      | .ok _ t => .ok () t
      | .error fault t => .error fault t := rfl

end TypeTrace.Stateful
