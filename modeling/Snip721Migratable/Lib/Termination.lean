import Mathlib.Logic.Hydra
import Mathlib.Order.WellFounded
import Snip721Migratable.Lib.Transaction

/-!
# Lib.Termination

When the deliveries of a transaction come to an end. Messages have ranks, and handling a message
sends messages of lower rank only, any number of them. This holds for the deliveries in `Q`; others
may send what they like.

* `Descends` : the condition on the single steps.
* `Descends.often` : deliveries that never end are outside of `Q` again and again.
-/

namespace Machine

open Relation

variable {σ μ ρ τ κ : Type} {M : Machine σ μ ρ τ} {I : σ × List μ → Prop}
  {Q : μ → ρ → Prop}
  {rank : μ → κ} {lt : κ → κ → Prop}

structure Descends (M : Machine σ μ ρ τ) (I : σ × List μ → Prop) (Q : μ → ρ → Prop) (rank : μ → κ)
    (lt : κ → κ → Prop) : Prop where
  wellFounded : WellFounded lt
  keeps : ∀ {r c c'}, I c → M.advance r c = some c' → I c'
  lower : ∀ {r s m ms s' out}, Q m r → I (s, m :: ms) → M.handle s m r = some (s', out) →
    ∀ m' ∈ out, lt (rank m') (rank m)

/-- The ranks of the waiting messages. -/
def ranks (rank : μ → κ) (c : σ × List μ) : Multiset κ := (c.2.map rank : List κ)

theorem Descends.cutExpand (h : M.Descends I Q rank lt) {r : ρ} {c c' : σ × List μ}
    (hr : ∀ m ms, c.2 = m :: ms → Q m r) (hc : I c) (hstep : M.advance r c = some c') : CutExpand lt (ranks rank c') (ranks rank c) := by
  obtain ⟨s, m, ms, s', out, rfl, hh, rfl⟩ := advance_eq_some.mp hstep
  refine ⟨(out.map rank : List κ), rank m, ?_, ?_⟩
  · intro k hk
    obtain ⟨m', hm', rfl⟩ := List.mem_map.mp (Multiset.mem_coe.mp hk)
    exact h.lower (hr m ms rfl) hc hh m' hm'
  · simp only [ranks, List.map_append, List.map_cons]
    rw [← Multiset.cons_coe, ← Multiset.coe_add, ← Multiset.singleton_add]
    ac_rfl

theorem Descends.invariant (h : M.Descends I Q rank lt) {r : Nat → ρ} {c : Nat → σ × List μ}
    (h₀ : I (c 0)) (hstep : ∀ n, M.advance (r n) (c n) = some (c (n + 1))) (n : Nat) : I (c n) := by
  induction n with
  | zero => exact h₀
  | succ n ih => exact h.keeps ih (hstep n)

theorem Descends.often (h : M.Descends I Q rank lt) {r : Nat → ρ} {c : Nat → σ × List μ}
    (h₀ : I (c 0)) (hstep : ∀ n, M.advance (r n) (c n) = some (c (n + 1))) (n : Nat) :
    ∃ k m ms, n ≤ k ∧ (c k).2 = m :: ms ∧ ¬ Q m (r k) := by
  by_contra hnone
  have hQ : ∀ k, n ≤ k → ∀ m ms, (c k).2 = m :: ms → Q m (r k) := by
    intro k hk m ms hc
    by_contra hr
    exact hnone ⟨k, m, ms, hk, hc, hr⟩
  -- from `n` on the ranks descend forever
  have hwf : WellFounded (CutExpand lt) := h.wellFounded.cutExpand
  refine (wellFounded_iff_isEmpty_descending_chain.mp hwf).false
    ⟨fun k => ranks rank (c (n + k)), fun k => ?_⟩
  exact h.cutExpand (hQ (n + k) (by omega)) (h.invariant h₀ hstep (n + k)) (hstep (n + k))

end Machine
