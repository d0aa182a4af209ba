import Mathlib.Data.Set.Function
import Snip721Migratable.Lib.Program
import Snip721Migratable.Lib.Store

/-!
# Lib.Footprint

Programs over a map `κ → β` that keep to a set of keys, and runs in which programs with different
keys take turns.

* `Local K m` : under the keys outside of `K` nothing is written, and what `m` answers and writes
  depends on nothing but what is under `K`.
* `runAll`, `trace` : programs one after the other, each all or nothing, and what they answered.
* `Completes` : runs in which every program completes.
* `run_project` : if the programs of a component keep to `K` and all others leave `K` alone, then
  under `K` the run is the run of that component by itself, with the same answers.
-/

namespace Prog

section Footprint

variable {κ β ε α γ : Type} {K : Set κ}

structure Local (K : Set κ) (m : Prog (κ → β) ε α) : Prop where
  frame : ∀ s, Set.EqOn (m s).2 s Kᶜ
  answer : ∀ {s s'}, Set.EqOn s s' K → (m s).1 = (m s').1
  effect : ∀ {s s'}, Set.EqOn s s' K → Set.EqOn (m s).2 (m s').2 K

theorem Local.pure (a : α) : Local K (Pure.pure a : Prog (κ → β) ε α) where
  frame _ := Set.eqOn_refl _ _
  answer _ := rfl
  effect h := h

theorem Local.fail (e : ε) : Local K (Prog.fail e : Prog (κ → β) ε α) where
  frame _ := Set.eqOn_refl _ _
  answer _ := rfl
  effect h := h

theorem Local.reads {f : (κ → β) → Except ε α} (hf : ∀ {s s'}, Set.EqOn s s' K → f s = f s') :
    Local K (Prog.reads f) where
  frame _ := Set.eqOn_refl _ _
  answer h := hf h
  effect h := h

theorem Local.bind {m : Prog (κ → β) ε α} {f : α → Prog (κ → β) ε γ} (hm : Local K m)
    (hf : ∀ a, Local K (f a)) : Local K (m >>= f) where
  frame s := by
    rcases outcome m s with ⟨a, s₁, h⟩ | ⟨e, s₁, h⟩
    · have hs₁ := hm.frame s
      rw [bind_of_ok h]
      rw [h] at hs₁
      exact ((hf a).frame s₁).trans hs₁
    · have hs₁ := hm.frame s
      rw [bind_of_error h]
      rw [h] at hs₁
      exact hs₁
  answer := by
    intro s s' hs
    have ha := hm.answer hs
    have he := hm.effect hs
    rcases outcome m s with ⟨a, s₁, h⟩ | ⟨e, s₁, h⟩ <;>
      rcases outcome m s' with ⟨a', s₁', h'⟩ | ⟨e', s₁', h'⟩ <;>
      rw [h, h'] at ha he <;> cases ha
    · rw [bind_of_ok h, bind_of_ok h']
      exact (hf a).answer he
    · rw [bind_of_error h, bind_of_error h']
  effect := by
    intro s s' hs
    have ha := hm.answer hs
    have he := hm.effect hs
    rcases outcome m s with ⟨a, s₁, h⟩ | ⟨e, s₁, h⟩ <;>
      rcases outcome m s' with ⟨a', s₁', h'⟩ | ⟨e', s₁', h'⟩ <;>
      rw [h, h'] at ha he <;> cases ha
    · rw [bind_of_ok h, bind_of_ok h']
      exact (hf a).effect he
    · rw [bind_of_error h, bind_of_error h']
      exact he

theorem Local.ite {c : Prop} [Decidable c] {m m' : Prog (κ → β) ε α} (hm : Local K m)
    (hm' : Local K m') : Local K (if c then m else m') := by
  split
  · exact hm
  · exact hm'

/-- A program that keeps to some keys keeps to more of them. -/
theorem Local.mono {K' : Set κ} {m : Prog (κ → β) ε α} (hm : Local K m) (hK : K ⊆ K') :
    Local K' m where
  frame s := (hm.frame s).mono (Set.compl_subset_compl.mpr hK)
  answer h := hm.answer (h.mono hK)
  effect := by
    intro s s' h k hk
    by_cases hkK : k ∈ K
    · exact hm.effect (h.mono hK) hkK
    · rw [hm.frame s hkK, hm.frame s' hkK]
      exact h hk

/-- What completes on one state completes on every state that agrees with it under `K`. -/
theorem Local.ok_congr {m : Prog (κ → β) ε α} (hm : Local K m) {s s' s₁ : κ → β} {a : α}
    (hs : Set.EqOn s s' K) (hrun : m s = (.ok a, s₁)) :
    ∃ s₁', m s' = (.ok a, s₁') ∧ Set.EqOn s₁ s₁' K := by
  have ha := hm.answer hs
  have he := hm.effect hs
  rw [hrun] at ha he
  exact ⟨(m s').2, Prod.ext ha.symm rfl, he⟩

theorem Local.commit_frame {m : Prog (κ → β) ε α} (hm : Local K m) (s : κ → β) :
    Set.EqOn (m.commit s) s Kᶜ := by
  rcases outcome m s with ⟨a, s₁, h⟩ | ⟨e, s₁, h⟩
  · have hs₁ := hm.frame s
    rw [h] at hs₁
    rw [commit_of_ok h]
    exact hs₁
  · rw [commit_of_error h]
    exact Set.eqOn_refl _ _

theorem Local.commit_congr {m : Prog (κ → β) ε α} (hm : Local K m) {s s' : κ → β}
    (hs : Set.EqOn s s' K) : Set.EqOn (m.commit s) (m.commit s') K := by
  have ha := hm.answer hs
  have he := hm.effect hs
  rcases outcome m s with ⟨a, s₁, h⟩ | ⟨e, s₁, h⟩ <;>
    rcases outcome m s' with ⟨a', s₁', h'⟩ | ⟨e', s₁', h'⟩ <;>
    rw [h, h'] at ha he <;> cases ha
  · rw [commit_of_ok h, commit_of_ok h']
    exact he
  · rw [commit_of_error h, commit_of_error h']
    exact hs

end Footprint

/-! ## Runs -/

section Runs

variable {σ ε α ι : Type} (call : ι → Prog σ ε α)

def runAll (s : σ) (is : List ι) : σ := is.foldl (fun s i => (call i).commit s) s

def trace : σ → List ι → List (ι × Except ε α)
  | _, [] => []
  | s, i :: is => (i, (call i s).1) :: trace ((call i).commit s) is

/-- All the calls complete, one after the other. -/
inductive Completes (s : σ) : List ι → σ → Prop where
  | nil : Completes s [] s
  | snoc {s₁ s₂ : σ} {is : List ι} {i : ι} {a : α} :
      Completes s is s₁ → call i s₁ = (.ok a, s₂) → Completes s (is ++ [i]) s₂

variable {call}

theorem Completes.runAll_eq {s s' : σ} {is : List ι} (h : Completes call s is s') :
    runAll call s is = s' := by
  induction h with
  | nil => rfl
  | snoc _ hcall ih =>
    rw [runAll, List.foldl_append]
    show (call _).commit (runAll call _ _) = _
    rw [ih, commit_of_ok hcall]

end Runs

section Project

variable {κ β ε α ι ι' : Type}

/-- The calls that `proj` names make up a component with the keys `K`. -/
structure Component (K : Set κ) (call : ι → Prog (κ → β) ε α) (part : ι' → Prog (κ → β) ε α)
    (proj : ι → Option ι') : Prop where
  mine : ∀ {i j}, proj i = some j → call i = part j
  keeps : ∀ j, Local K (part j)
  others : ∀ {i}, proj i = none → ∀ s, Set.EqOn ((call i).commit s) s K

/-- The answers of the calls that `proj` names. -/
def answersOf (proj : ι → Option ι') (tr : List (ι × Except ε α)) : List (ι' × Except ε α) :=
  tr.filterMap fun p => (proj p.1).map fun j => (j, p.2)

theorem answersOf_some (tr : List (ι × Except ε α)) : answersOf some tr = tr := by
  simp [answersOf]

variable {K : Set κ} {call : ι → Prog (κ → β) ε α} {part : ι' → Prog (κ → β) ε α}
  {proj : ι → Option ι'}

theorem run_project (hc : Component K call part proj) (is : List ι) :
    ∀ {s s' : κ → β}, Set.EqOn s s' K →
      Set.EqOn (runAll call s is) (runAll part s' (is.filterMap proj)) K ∧
      answersOf proj (trace call s is) = trace part s' (is.filterMap proj) := by
  induction is with
  | nil => intro s s' hs; exact ⟨hs, rfl⟩
  | cons i is ih =>
    intro s s' hs
    cases hi : proj i with
    | none =>
      have hs₁ : Set.EqOn ((call i).commit s) s' K := (hc.others hi s).trans hs
      rw [List.filterMap_cons_none hi]
      simp only [trace, answersOf, List.filterMap_cons, hi, Option.map_none]
      exact ih hs₁
    | some j =>
      have hcall := hc.mine hi
      have hs₁ : Set.EqOn ((call i).commit s) ((part j).commit s') K := by
        rw [hcall]
        exact (hc.keeps j).commit_congr hs
      have hans : (call i s).1 = (part j s').1 := by
        rw [hcall]
        exact (hc.keeps j).answer hs
      obtain ⟨hrun, htrace⟩ := ih hs₁
      rw [List.filterMap_cons_some hi]
      refine ⟨hrun, ?_⟩
      simp only [trace, answersOf, List.filterMap_cons, hi, Option.map_some, hans]
      rw [← htrace]
      rfl

/-- A run of local calls leaves the keys outside alone. -/
theorem runAll_frame (hcall : ∀ i, Local K (call i)) (is : List ι) :
    ∀ s : κ → β, Set.EqOn (runAll call s is) s Kᶜ := by
  induction is with
  | nil => intro s; exact Set.eqOn_refl _ _
  | cons i is ih => intro s; exact (ih _).trans ((hcall i).commit_frame s)

end Project

end Prog

/-! ## Items -/

section Items

variable {α ε : Type} {K : Set String} (i : Item α)

theorem Item.save_local (hi : i.key ∈ K) (a : α) :
    (Prog.modify (i.save a) : Prog Store ε Unit).Local K where
  frame s := by
    intro k hk
    exact i.save_ne a s fun h => hk (h ▸ hi)
  answer _ := rfl
  effect := by
    intro s s' hs k hk
    show i.save a s k = i.save a s' k
    simp only [Item.save]
    split
    · rfl
    · exact hs hk

end Items
