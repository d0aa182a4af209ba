/-!
# Lib.Transaction

Transactions of message-passing programs. Handling a message changes the state and sends further
messages, which are handled depth first, each before the messages that were already waiting. Some
receivers are not part of the model: what they do is a reaction `ρ` that the caller supplies, so
a statement about every list of reactions is a statement about every behaviour of the outside.

A transaction commits when nothing is left waiting. One failing message, or reactions that run
out, revert it as a whole.

* `deliver_inv` : an invariant of the single steps holds when the deliveries stop.
* `run_inv` : an invariant between transactions, shown through an invariant of the configurations
  inside them. The steps may be restricted to those where `P` holds (`CleanRun`);
  `cleanRun_of_check` decides the restriction by running.
-/

structure Machine (σ μ ρ τ : Type) where
  handle : σ → μ → ρ → Option (σ × List μ)
  /-- The messages a transaction starts with. -/
  start : τ → List μ

namespace Machine

variable {σ μ ρ τ : Type} (M : Machine σ μ ρ τ)

def advance (r : ρ) : σ × List μ → Option (σ × List μ)
  | (_, []) => none
  | (s, m :: ms) =>
    match M.handle s m r with
    | some (s', out) => some (s', out ++ ms)
    | none => none

def deliver : List ρ → σ × List μ → Option (σ × List μ)
  | [], c => some c
  | r :: rs, c =>
    match M.advance r c with
    | some c' => deliver rs c'
    | none => none

def transact (s : σ) (ms : List μ) (rs : List ρ) : Option σ :=
  match M.deliver rs (s, ms) with
  | some (s', []) => some s'
  | _ => none

/-- A transaction with its reactions: the state after it, which is the state before if it fails. -/
def apply (s : σ) (t : τ × List ρ) : σ :=
  match M.transact s (M.start t.1) t.2 with
  | some s' => s'
  | none => s

def run (s : σ) (ts : List (τ × List ρ)) : σ := ts.foldl M.apply s

/-- `P` holds of every configuration that is stepped from. -/
def Along (P : σ × List μ → Prop) : List ρ → σ × List μ → Prop
  | [], _ => True
  | r :: rs, c => P c ∧ ∀ c', M.advance r c = some c' → Along P rs c'

/-- `P` holds at every step of every transaction of the run that commits. -/
def CleanRun (P : σ × List μ → Prop) : σ → List (τ × List ρ) → Prop
  | _, [] => True
  | s, t :: ts =>
    ((M.transact s (M.start t.1) t.2).isSome → M.Along P t.2 (s, M.start t.1)) ∧
      CleanRun P (M.apply s t) ts

variable {M}

theorem run_nil (s : σ) : M.run s [] = s := rfl

theorem run_append (s : σ) (ts us : List (τ × List ρ)) :
    M.run s (ts ++ us) = M.run (M.run s ts) us := by
  simp [run]

theorem run_singleton (s : σ) (t : τ × List ρ) : M.run s [t] = M.apply s t := rfl

/-- A transaction that fails changes nothing. -/
theorem apply_of_none {s : σ} {t : τ × List ρ} (h : M.transact s (M.start t.1) t.2 = none) :
    M.apply s t = s := by
  simp [apply, h]

theorem advance_eq_some {r : ρ} {c c' : σ × List μ} :
    M.advance r c = some c' ↔
      ∃ s m ms s' out, c = (s, m :: ms) ∧ M.handle s m r = some (s', out) ∧
        c' = (s', out ++ ms) := by
  obtain ⟨s, ms⟩ := c
  cases ms with
  | nil => simp [advance]
  | cons m ms =>
    simp only [advance, Prod.mk.injEq, List.cons.injEq]
    constructor
    · intro h
      split at h
      · rename_i s' out hh
        cases h
        exact ⟨s, m, ms, s', out, ⟨rfl, rfl, rfl⟩, hh, rfl⟩
      · cases h
    · intro hstep
      obtain ⟨_, _, _, s', out, ⟨rfl, rfl, rfl⟩, hh, rfl⟩ := hstep
      rw [hh]

theorem transact_eq_some {s s' : σ} {ms : List μ} {rs : List ρ} :
    M.transact s ms rs = some s' ↔ M.deliver rs (s, ms) = some (s', []) := by
  simp only [transact]
  constructor
  · intro h
    split at h
    · rename_i hd; cases h; exact hd
    · cases h
  · intro h; rw [h]

theorem transact_nil {s s' : σ} {rs : List ρ} :
    M.transact s [] rs = some s' ↔ rs = [] ∧ s' = s := by
  rw [transact_eq_some]
  cases rs with
  | nil => simp [deliver, eq_comm]
  | cons r rs => simp [deliver, advance]

/-- A transaction with a message waiting handles it first. -/
theorem transact_cons {s s' : σ} {m : μ} {ms : List μ} {rs : List ρ}
    (h : M.transact s (m :: ms) rs = some s') :
    ∃ r rs' s₁ out, rs = r :: rs' ∧ M.handle s m r = some (s₁, out) ∧
      M.transact s₁ (out ++ ms) rs' = some s' := by
  rw [transact_eq_some] at h
  cases rs with
  | nil => simp [deliver] at h
  | cons r rs =>
    simp only [deliver] at h
    split at h
    · rename_i c hc
      obtain ⟨_, _, _, s₁, out, heq, hh, rfl⟩ := advance_eq_some.mp hc
      cases heq
      exact ⟨r, rs, s₁, out, rfl, hh, transact_eq_some.mpr h⟩
    · cases h

theorem transact_cons_iff {s s' : σ} {m : μ} {ms : List μ} {rs : List ρ} :
    M.transact s (m :: ms) rs = some s' ↔
      ∃ r rs' s₁ out, rs = r :: rs' ∧ M.handle s m r = some (s₁, out) ∧
        M.transact s₁ (out ++ ms) rs' = some s' := by
  constructor
  · exact transact_cons
  · intro h
    obtain ⟨r, rs', s₁, out, rfl, hh, ht⟩ := h
    rw [transact_eq_some] at ht ⊢
    simp only [deliver, advance, hh]
    exact ht

/-- A transaction that commits handles every message that is waiting. -/
theorem transact_handles {s s' : σ} {m : μ} {ms : List μ} {rs : List ρ}
    (h : M.transact s ms rs = some s') (hm : m ∈ ms) :
    ∃ s₁ r s₂ out, r ∈ rs ∧ M.handle s₁ m r = some (s₂, out) := by
  induction rs generalizing s ms with
  | nil =>
    cases transact_eq_some.mp h
    cases hm
  | cons r rs ih =>
    cases ms with
    | nil => cases hm
    | cons m₀ ms =>
      obtain ⟨r', rs', s₁, out, heq, hh, ht⟩ := transact_cons h
      cases heq
      rcases List.mem_cons.mp hm with rfl | hm
      · exact ⟨s, r, s₁, out, .head _, hh⟩
      · obtain ⟨s₂, r₂, s₃, out₂, hr₂, hh₂⟩ := ih ht (List.mem_append_right _ hm)
        exact ⟨s₂, r₂, s₃, out₂, .tail _ hr₂, hh₂⟩

theorem along_true (rs : List ρ) (c : σ × List μ) : M.Along (fun _ => True) rs c := by
  induction rs generalizing c with
  | nil => trivial
  | cons r rs ih => exact ⟨trivial, fun c' _ => ih c'⟩

theorem cleanRun_true (s : σ) (ts : List (τ × List ρ)) : M.CleanRun (fun _ => True) s ts := by
  induction ts generalizing s with
  | nil => trivial
  | cons t ts ih => exact ⟨fun _ => along_true t.2 _, ih _⟩

/-! ## Checking a restriction by running -/

section Check

variable (M) (p : σ × List μ → Bool)

def checkAlong : List ρ → σ × List μ → Bool
  | [], _ => true
  | r :: rs, c =>
    p c && match M.advance r c with
      | some c' => checkAlong rs c'
      | none => true

def checkRun : σ → List (τ × List ρ) → Bool
  | _, [] => true
  | s, t :: ts => M.checkAlong p t.2 (s, M.start t.1) && checkRun (M.apply s t) ts

variable {M p} {P : σ × List μ → Prop}

theorem along_of_check (hp : ∀ c, p c = true → P c) :
    ∀ (rs : List ρ) (c : σ × List μ), M.checkAlong p rs c = true → M.Along P rs c := by
  intro rs
  induction rs with
  | nil => intro c _; trivial
  | cons r rs ih =>
    intro c h
    simp only [checkAlong, Bool.and_eq_true] at h
    refine ⟨hp c h.1, fun c' hc' => ih c' ?_⟩
    have hrest := h.2
    rw [hc'] at hrest
    exact hrest

theorem cleanRun_of_check (hp : ∀ c, p c = true → P c) :
    ∀ (ts : List (τ × List ρ)) (s : σ), M.checkRun p s ts = true → M.CleanRun P s ts := by
  intro ts
  induction ts with
  | nil => intro s _; trivial
  | cons t ts ih =>
    intro s h
    simp only [checkRun, Bool.and_eq_true] at h
    exact ⟨fun _ => along_of_check hp t.2 _ h.1, ih _ h.2⟩

end Check

section Invariants

variable {P I : σ × List μ → Prop}

theorem deliver_inv (hstep : ∀ r c c', P c → I c → M.advance r c = some c' → I c') :
    ∀ (rs : List ρ) (c c' : σ × List μ), M.Along P rs c → I c → M.deliver rs c = some c' →
      I c' := by
  intro rs
  induction rs with
  | nil => intro c c' _ hc h; cases h; exact hc
  | cons r rs ih =>
    intro c c' hP hc h
    simp only [deliver] at h
    split at h
    · rename_i c₁ h₁
      exact ih c₁ c' (hP.2 c₁ h₁) (hstep r c c₁ hP.1 hc h₁) h
    · cases h

/-- The invariant rule for runs: `J` between transactions, `I` inside them. -/
theorem run_inv {J : σ → Prop} (hstart : ∀ s t, J s → I (s, M.start t))
    (hstep : ∀ r c c', P c → I c → M.advance r c = some c' → I c')
    (hend : ∀ s, I (s, []) → J s) :
    ∀ (ts : List (τ × List ρ)) (s : σ), M.CleanRun P s ts → J s → J (M.run s ts) := by
  intro ts
  induction ts with
  | nil => intro s _ h; exact h
  | cons t ts ih =>
    intro s hP hs
    refine ih (M.apply s t) hP.2 ?_
    simp only [apply]
    split
    · rename_i s' h
      have hd := transact_eq_some.mp h
      exact hend s' (deliver_inv hstep t.2 _ _ (hP.1 (by simp [h])) (hstart s t.1 hs) hd)
    · exact hs

/-- The rule without a restriction on the steps. -/
theorem run_inv_all {J : σ → Prop} (hstart : ∀ s t, J s → I (s, M.start t))
    (hstep : ∀ r c c', I c → M.advance r c = some c' → I c') (hend : ∀ s, I (s, []) → J s)
    (ts : List (τ × List ρ)) (s : σ) (hs : J s) : J (M.run s ts) :=
  run_inv hstart (fun r c c' _ => hstep r c c') hend ts s (cleanRun_true s ts) hs

/-- What the invariant says of the configurations holds at every step of the run. -/
theorem along_of_inv (hstep : ∀ r c c', I c → M.advance r c = some c' → I c')
    (hP : ∀ c, I c → P c) : ∀ (rs : List ρ) (c : σ × List μ), I c → M.Along P rs c := by
  intro rs
  induction rs with
  | nil => intro c _; trivial
  | cons r rs ih =>
    intro c hc
    exact ⟨hP c hc, fun c' h => ih c' (hstep r c c' hc h)⟩

theorem cleanRun_of_inv {J : σ → Prop} (hstart : ∀ s t, J s → I (s, M.start t))
    (hstep : ∀ r c c', I c → M.advance r c = some c' → I c') (hend : ∀ s, I (s, []) → J s)
    (hP : ∀ c, I c → P c) : ∀ (ts : List (τ × List ρ)) (s : σ), J s → M.CleanRun P s ts := by
  intro ts
  induction ts with
  | nil => intro s _; trivial
  | cons t ts ih =>
    intro s hs
    have hnext : J (M.apply s t) := run_inv_all hstart hstep hend [t] s hs
    exact ⟨fun _ => along_of_inv hstep hP t.2 _ (hstart s t.1 hs), ih _ hnext⟩

end Invariants

end Machine
