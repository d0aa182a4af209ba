/-!
# Lib.Program

Programs over a state `σ` that may stop with an error `ε`, and the rules to take a completed
run apart.

A program that stops with an error keeps what it wrote before the error: throwing that away is
the business of whoever runs it (`Prog.commit`).

* `bind_ok`, `pure_ok`, `reads_ok`, ... : what a completed run says about its parts. Rewriting
  with them turns a `do` block into the conjunction of its steps.
* `ReadOnly` : the program leaves the state alone, whether it completes or not.
-/

def Prog (σ ε α : Type) : Type := σ → Except ε α × σ

namespace Prog

variable {σ ε α β : Type}

protected def pure (a : α) : Prog σ ε α := fun s => (.ok a, s)

protected def bind (m : Prog σ ε α) (f : α → Prog σ ε β) : Prog σ ε β := fun s =>
  match m s with
  | (.ok a, s') => f a s'
  | (.error e, s') => (.error e, s')

instance : Monad (Prog σ ε) where
  pure := Prog.pure
  bind := Prog.bind

def fail (e : ε) : Prog σ ε α := fun s => (.error e, s)

/-- The result of reading the state, which may be an error. -/
def reads (f : σ → Except ε α) : Prog σ ε α := fun s => (f s, s)

def modify (f : σ → σ) : Prog σ ε Unit := fun s => (.ok (), f s)

/-- All or nothing: the state an error leaves behind is dropped. -/
def commit (m : Prog σ ε α) (s : σ) : σ :=
  match m s with
  | (.ok _, s') => s'
  | (.error _, _) => s

/-! ## Completed runs -/

theorem bind_ok {m : Prog σ ε α} {f : α → Prog σ ε β} {s s' : σ} {b : β} :
    (m >>= f) s = (.ok b, s') ↔ ∃ a s₁, m s = (.ok a, s₁) ∧ f a s₁ = (.ok b, s') := by
  show Prog.bind m f s = _ ↔ _
  simp only [Prog.bind]
  constructor
  · intro h
    split at h
    · rename_i a s₁ hm; exact ⟨a, s₁, hm, h⟩
    · cases h
  · intro hrun
    obtain ⟨a, s₁, hm, hf⟩ := hrun
    rw [hm]; exact hf

theorem pure_ok {s s' : σ} {a b : α} :
    (pure a : Prog σ ε α) s = (.ok b, s') ↔ a = b ∧ s = s' := by
  show Prog.pure a s = _ ↔ _
  simp [Prog.pure]

theorem fail_ok {s s' : σ} {e : ε} {a : α} :
    (fail e : Prog σ ε α) s = (.ok a, s') ↔ False := by
  simp [fail]

theorem reads_ok {f : σ → Except ε α} {s s' : σ} {a : α} :
    reads f s = (.ok a, s') ↔ f s = .ok a ∧ s = s' := by
  simp [reads]

theorem modify_ok {f : σ → σ} {s s' : σ} {u : Unit} :
    (modify f : Prog σ ε Unit) s = (.ok u, s') ↔ f s = s' := by
  simp [modify]

theorem ite_ok {c : Prop} [Decidable c] {m m' : Prog σ ε α} {s s' : σ} {a : α} :
    (if c then m else m') s = (.ok a, s') ↔
      (c ∧ m s = (.ok a, s')) ∨ (¬ c ∧ m' s = (.ok a, s')) := by
  by_cases h : c <;> simp [h]

/-! ## Running forward -/

theorem bind_of_ok {m : Prog σ ε α} {f : α → Prog σ ε β} {s s₁ : σ} {a : α}
    (h : m s = (.ok a, s₁)) : (m >>= f) s = f a s₁ := by
  show Prog.bind m f s = _
  simp [Prog.bind, h]

theorem bind_of_error {m : Prog σ ε α} {f : α → Prog σ ε β} {s s₁ : σ} {e : ε}
    (h : m s = (.error e, s₁)) : (m >>= f) s = (.error e, s₁) := by
  show Prog.bind m f s = _
  simp [Prog.bind, h]

theorem commit_of_ok {m : Prog σ ε α} {s s' : σ} {a : α} (h : m s = (.ok a, s')) :
    m.commit s = s' := by
  simp [commit, h]

theorem commit_of_error {m : Prog σ ε α} {s s' : σ} {e : ε} (h : m s = (.error e, s')) :
    m.commit s = s := by
  simp [commit, h]

/-- A run completes or stops with an error. -/
theorem outcome (m : Prog σ ε α) (s : σ) :
    (∃ a s', m s = (.ok a, s')) ∨ ∃ e s', m s = (.error e, s') := by
  rcases h : m s with ⟨r, s'⟩
  cases r with
  | ok a => exact .inl ⟨a, s', rfl⟩
  | error e => exact .inr ⟨e, s', rfl⟩

/-! ## Programs that only read -/

def ReadOnly (m : Prog σ ε α) : Prop := ∀ s, (m s).2 = s

theorem ReadOnly.pure (a : α) : ReadOnly (Pure.pure a : Prog σ ε α) := fun _ => rfl

theorem ReadOnly.fail (e : ε) : ReadOnly (fail e : Prog σ ε α) := fun _ => rfl

theorem ReadOnly.reads (f : σ → Except ε α) : ReadOnly (reads f) := fun _ => rfl

theorem ReadOnly.bind {m : Prog σ ε α} {f : α → Prog σ ε β} (hm : ReadOnly m)
    (hf : ∀ a, ReadOnly (f a)) : ReadOnly (m >>= f) := by
  intro s
  rcases outcome m s with ⟨a, s', h⟩ | ⟨e, s', h⟩
  · have hs : s' = s := by have := hm s; rw [h] at this; exact this
    rw [bind_of_ok h, hs]
    exact hf a s
  · have hs : s' = s := by have := hm s; rw [h] at this; exact this
    rw [bind_of_error h]; exact hs

end Prog
