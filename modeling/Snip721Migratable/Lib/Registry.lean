import Mathlib.Data.Nat.Find

/-!
# Lib.Registry

A list of owned entries that is appended to and updated in place, with an optional count of the
entries that may still be added.

* `add` takes a slot and appends the entry unless it is listed already.
* `Renamed owner k e l l'` : `l'` is `l` after the owner `k` announced the entry `e`. Only entries
  of `k` change, they change to `e`, and the first of them does. Whether the others of `k` follow
  is left open: with `renameAll` all of them do, with `renameFirst` none.
* `FirstOfOwner owner i l` : no entry before position `i` has the owner of the entry there.
* `Keeps R l l'` : every entry of `l` is still at its position in `l'`, up to `R`.
* `follow` : the history of one entry along a run, and `getElem?_run`, which says that the list at
  the end of the run holds exactly that, if every step of the run (`Along`) does its part.
-/

structure Registry (ε : Type) where
  entries : List ε
  slots : Option Nat

namespace Registry

variable {ε κ : Type}

section Add

variable [DecidableEq ε]

def insertNew (e : ε) (l : List ε) : List ε := if e ∈ l then l else l ++ [e]

/-- `none` when the slots are counted and none is left. A slot is taken even for a listed entry. -/
def add (r : Registry ε) (e : ε) : Option (Registry ε) :=
  match r.slots with
  | none => some { r with entries := insertNew e r.entries }
  | some 0 => none
  | some (n + 1) => some { entries := insertNew e r.entries, slots := some n }

theorem mem_insertNew_of_mem {e x : ε} {l : List ε} (h : x ∈ l) : x ∈ insertNew e l := by
  unfold insertNew
  split
  · exact h
  · simp [h]

theorem mem_insertNew_iff {e x : ε} {l : List ε} : x ∈ insertNew e l ↔ x ∈ l ∨ x = e := by
  unfold insertNew
  split
  · rename_i he
    constructor
    · intro h; exact .inl h
    · rintro (h | rfl)
      · exact h
      · exact he
  · simp

theorem getElem?_insertNew {e x : ε} {l : List ε} {i : Nat} (h : l[i]? = some x) :
    (insertNew e l)[i]? = some x := by
  unfold insertNew
  split
  · exact h
  · rw [List.getElem?_append_left]
    · exact h
    · exact (List.getElem?_eq_some_iff.mp h).1

theorem head?_insertNew {e x : ε} {l : List ε} (h : l.head? = some x) :
    (insertNew e l).head? = some x := by
  rw [List.head?_eq_getElem?] at h ⊢
  exact getElem?_insertNew h

theorem add_full {r : Registry ε} (h : r.slots = some 0) (e : ε) : r.add e = none := by
  simp [add, h]

theorem add_unlimited {r : Registry ε} (h : r.slots = none) (e : ε) :
    r.add e = some { entries := insertNew e r.entries, slots := none } := by
  simp [add, h]

theorem add_entries {r r' : Registry ε} {e : ε} (h : r.add e = some r') :
    r'.entries = insertNew e r.entries := by
  unfold add at h
  split at h
  · cases h; rfl
  · cases h
  · cases h; rfl

theorem add_slots_none {r r' : Registry ε} {e : ε} (h : r.add e = some r')
    (hs : r.slots = none) : r'.slots = none := by
  rw [add_unlimited hs] at h
  cases h; rfl

theorem length_insertNew_le (e : ε) (l : List ε) : (insertNew e l).length ≤ l.length + 1 := by
  unfold insertNew
  split <;> simp

/-- Counted slots are used up one at a time. -/
theorem add_counted {r : Registry ε} {n : Nat} (hs : r.slots = some n) (e : ε) :
    (n = 0 ∧ r.add e = none) ∨
      ∃ m, n = m + 1 ∧ r.add e = some { entries := insertNew e r.entries, slots := some m } := by
  cases n with
  | zero => exact .inl ⟨rfl, add_full hs e⟩
  | succ m => exact .inr ⟨m, rfl, by simp [add, hs]⟩

end Add

section Rename

variable (owner : ε → κ)

structure Renamed (k : κ) (e : ε) (l l' : List ε) : Prop where
  length : l'.length = l.length
  entrywise : ∀ (i : Nat) (x : ε), l[i]? = some x →
    ∃ y, l'[i]? = some y ∧ (y = x ∨ (owner x = k ∧ y = e))
  first : ∀ (i : Nat) (x : ε), l[i]? = some x → owner x = k →
    (∀ (j : Nat) (y : ε), j < i → l[j]? = some y → owner y ≠ k) → l'[i]? = some e

def renameAll [DecidableEq κ] (k : κ) (e : ε) (l : List ε) : List ε :=
  l.map fun x => if owner x = k then e else x

theorem getElem?_renameAll [DecidableEq κ] {k : κ} {e x : ε} {l : List ε} {i : Nat}
    (h : l[i]? = some x) :
    (renameAll owner k e l)[i]? = some (if owner x = k then e else x) := by
  simp [renameAll, h]

theorem renameAll_renamed [DecidableEq κ] (k : κ) (e : ε) (l : List ε) :
    Renamed owner k e l (renameAll owner k e l) where
  length := by simp [renameAll]
  entrywise := by
    intro i x hx
    refine ⟨_, getElem?_renameAll owner hx, ?_⟩
    split
    · rename_i hk; exact .inr ⟨hk, rfl⟩
    · exact .inl rfl
  first := by
    intro i x hx hk _
    rw [getElem?_renameAll owner hx, if_pos hk]

/-- The search stops at the first entry of `k`. -/
def renameFirst [DecidableEq κ] (k : κ) (e : ε) : List ε → List ε
  | [] => []
  | x :: l => if owner x = k then e :: l else x :: renameFirst k e l

theorem renameFirst_renamed [DecidableEq κ] (k : κ) (e : ε) (l : List ε) :
    Renamed owner k e l (renameFirst owner k e l) := by
  induction l with
  | nil => exact ⟨rfl, by simp, by simp⟩
  | cons x l ih =>
    by_cases hk : owner x = k
    · rw [renameFirst, if_pos hk]
      refine ⟨rfl, ?_, ?_⟩
      · intro i y hy
        cases i with
        | zero => cases hy; exact ⟨e, rfl, .inr ⟨hk, rfl⟩⟩
        | succ i => exact ⟨y, hy, .inl rfl⟩
      · intro i y hy _ hfirst
        cases i with
        | zero => rfl
        | succ i => exact absurd hk (hfirst 0 x (by omega) rfl)
    · rw [renameFirst, if_neg hk]
      refine ⟨by simp [ih.length], ?_, ?_⟩
      · intro i y hy
        cases i with
        | zero => exact ⟨x, rfl, .inl (Option.some.inj hy)⟩
        | succ i => exact ih.entrywise i y hy
      · intro i y hy hyk hfirst
        cases i with
        | zero => cases hy; exact absurd hyk hk
        | succ i => exact ih.first i y hy hyk fun j z hj hz => hfirst (j + 1) z (by omega) hz

example : renameFirst Prod.fst 1 (1, 9) [(0, 0), (1, 1), (1, 2)] = [(0, 0), (1, 9), (1, 2)] := by
  decide

/-- All entries of `k` are `e` afterwards exactly if those behind the first are already. -/
theorem renameFirst_forall_iff [DecidableEq κ] {k : κ} {e : ε} (l : List ε) :
    (∀ (i : Nat) (x : ε), l[i]? = some x → owner x = k → (renameFirst owner k e l)[i]? = some e) ↔
      l.Pairwise fun x y => owner x = k → owner y = k → y = e := by
  induction l with
  | nil => simp
  | cons x l ih =>
    rw [List.pairwise_cons]
    by_cases hk : owner x = k
    · rw [renameFirst, if_pos hk]
      constructor
      · intro h
        have hlater : ∀ y ∈ l, owner y = k → y = e := by
          intro y hy hyk
          obtain ⟨i, hi⟩ := List.getElem?_of_mem hy
          have he : l[i]? = some e := h (i + 1) y hi hyk
          exact Option.some.inj (hi.symm.trans he)
        exact ⟨fun y hy _ => hlater y hy,
          List.pairwise_of_forall_mem_list fun _ _ y hy _ => hlater y hy⟩
      · rintro ⟨hlater, _⟩ i y hy hyk
        cases i with
        | zero => rfl
        | succ i =>
          rw [← hlater y (List.mem_of_getElem? hy) hk hyk]
          exact hy
    · rw [renameFirst, if_neg hk]
      constructor
      · intro h
        exact ⟨fun _ _ hxk => (hk hxk).elim, ih.mp fun i y hy => h (i + 1) y hy⟩
      · rintro ⟨_, hlater⟩ i y hy hyk
        cases i with
        | zero => cases hy; exact (hk hyk).elim
        | succ i => exact ih.mpr hlater i y hy hyk

/-- The entry at `i`, if there is one, is the first of its owner. -/
def FirstOfOwner (i : Nat) (l : List ε) : Prop :=
  ∀ x ∈ l.take i, ∀ y ∈ l[i]?, owner x ≠ owner y

instance [DecidableEq κ] (i : Nat) (l : List ε) : Decidable (FirstOfOwner owner i l) :=
  inferInstanceAs (Decidable (∀ x ∈ l.take i, ∀ y ∈ l[i]?, owner x ≠ owner y))

variable {owner} {k : κ} {e : ε} {l l' : List ε}

/-- Nothing changes when `k` owns no entry. -/
theorem Renamed.eq_of_forall_ne (h : Renamed owner k e l l') (hk : ∀ x ∈ l, owner x ≠ k) :
    l' = l := by
  apply List.ext_getElem?
  intro i
  cases hx : l[i]? with
  | none =>
    rw [List.getElem?_eq_none_iff] at hx ⊢
    rw [h.length]; exact hx
  | some x =>
    obtain ⟨y, hy, rfl | ⟨hxk, _⟩⟩ := h.entrywise i x hx
    · exact hy
    · exact absurd hxk (hk x (List.mem_of_getElem? hx))

/-- An entry without an earlier one of its owner: it changes if its owner is `k`. -/
theorem Renamed.getElem?_first [DecidableEq κ] (h : Renamed owner k e l l') {i : Nat} {x : ε}
    (hfirst : FirstOfOwner owner i l) (hx : l[i]? = some x) :
    l'[i]? = some (if owner x = k then e else x) := by
  split
  · rename_i hk
    refine h.first i x hx hk fun j y hj hy => ?_
    have hmem : y ∈ l.take i := List.mem_of_getElem? ((List.getElem?_take_of_lt hj).trans hy)
    rw [← hk]
    exact hfirst y hmem x hx
  · rename_i hk
    obtain ⟨y, hy, rfl | ⟨hxk, _⟩⟩ := h.entrywise i x hx
    · exact hy
    · exact (hk hxk).elim

theorem Renamed.head? {x : ε} (h : Renamed owner k e l l') (hx : l.head? = some x)
    (hk : owner x = k) : l'.head? = some e := by
  rw [List.head?_eq_getElem?] at hx ⊢
  exact h.first 0 x hx hk (fun j y hj => absurd hj (by omega))

theorem Renamed.singleton {x : ε} (h : Renamed owner k e [x] l') (hk : owner x = k) :
    l' = [e] := by
  have hh := h.head? rfl hk
  have hl := h.length
  match l', hl with
  | [y], _ => cases hh; rfl

/-- If `k` owns an entry, then `e` is listed afterwards. -/
theorem Renamed.mem (h : Renamed owner k e l l') (hk : ∃ x ∈ l, owner x = k) : e ∈ l' := by
  classical
  obtain ⟨x, hx, hxk⟩ := hk
  obtain ⟨i, hi⟩ := List.getElem?_of_mem hx
  have hex : ∃ i x, l[i]? = some x ∧ owner x = k := ⟨i, x, hi, hxk⟩
  -- the first entry of `k`
  obtain ⟨x₀, hi₀, hx₀⟩ := Nat.find_spec hex
  refine List.mem_of_getElem? (h.first (Nat.find hex) x₀ hi₀ hx₀ ?_)
  intro j y hj hy hyk
  exact Nat.find_min hex hj ⟨y, hy, hyk⟩

end Rename

/-! ## Positions -/

def Keeps (R : ε → ε → Prop) (l l' : List ε) : Prop :=
  ∀ (i : Nat) (x : ε), l[i]? = some x → ∃ y, l'[i]? = some y ∧ R x y

theorem Keeps.refl {R : ε → ε → Prop} (hR : ∀ x, R x x) (l : List ε) : Keeps R l l :=
  fun _ x hx => ⟨x, hx, hR x⟩

theorem Keeps.mono {R R' : ε → ε → Prop} {l l' : List ε} (h : Keeps R l l')
    (hR : ∀ x y, R x y → R' x y) : Keeps R' l l' := by
  intro i x hx
  obtain ⟨y, hy, hxy⟩ := h i x hx
  exact ⟨y, hy, hR x y hxy⟩

theorem keeps_insertNew [DecidableEq ε] {R : ε → ε → Prop} (hR : ∀ x, R x x) (e : ε)
    (l : List ε) : Keeps R l (insertNew e l) :=
  fun _ x hx => ⟨x, getElem?_insertNew hx, hR x⟩

theorem Renamed.keeps {owner : ε → κ} {k : κ} {e : ε} {l l' : List ε}
    (h : Renamed owner k e l l') :
    Keeps (fun x y => y = x ∨ (owner x = k ∧ y = e)) l l' := h.entrywise

/-! ## Histories -/

section History

variable {σ ω : Type} (step : σ → ω → σ) (upd : σ → ω → ε → ε)

/-- What becomes of one entry along a run. -/
def follow : σ → List ω → ε → ε
  | _, [], e => e
  | s, o :: os, e => follow (step s o) os (upd s o e)

/-- `P` holds of every state that the run steps from. -/
def Along (P : σ → Prop) : σ → List ω → Prop
  | _, [] => True
  | s, o :: os => P s ∧ Along P (step s o) os

instance decidableAlong (P : σ → Prop) [DecidablePred P] :
    ∀ (s : σ) (os : List ω), Decidable (Along step P s os)
  | _, [] => isTrue trivial
  | s, o :: os =>
    have := decidableAlong P (step s o) os
    inferInstanceAs (Decidable (P s ∧ Along step P (step s o) os))

variable {step} in
theorem Along.mono {P Q : σ → Prop} (h : ∀ s, P s → Q s) {s : σ} {os : List ω}
    (hP : Along step P s os) : Along step Q s os := by
  induction os generalizing s with
  | nil => trivial
  | cons o os ih => exact ⟨h s hP.1, ih hP.2⟩

theorem along_of_forall {P : σ → Prop} (h : ∀ s, P s) (s : σ) (os : List ω) :
    Along step P s os := by
  induction os generalizing s with
  | nil => trivial
  | cons o os ih => exact ⟨h s, ih _⟩

/-- If each step from a state with `P` sends the entry at position `i` through `upd`, a run along
which `P` holds sends it through `follow`. -/
theorem getElem?_run (list : σ → List ε) {inv P : σ → Prop} {i : Nat}
    (hinv : ∀ s o, inv s → inv (step s o))
    (hstep : ∀ s o e, inv s → P s → (list s)[i]? = some e →
      (list (step s o))[i]? = some (upd s o e)) :
    ∀ (os : List ω) (s : σ) (e : ε), inv s → Along step P s os → (list s)[i]? = some e →
      (list (os.foldl step s))[i]? = some (follow step upd s os e) := by
  intro os
  induction os with
  | nil => intro s e _ _ h; exact h
  | cons o os ih =>
    intro s e hs hP h
    exact ih (step s o) (upd s o e) (hinv s o hs) hP.2 (hstep s o e hs hP.1 h)

end History

end Registry
