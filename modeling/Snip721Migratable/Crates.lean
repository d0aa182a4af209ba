import Mathlib.Data.List.Forall2
import Snip721Migratable.Dealer.State

/-!
# Crates

Everything the two contracts are linked against, in one parameter, and the `migrate` entry point,
which both contracts have word for word.
-/

namespace Snip721Migratable

structure Crates where
  api : Api
  /-- `serde_json_wasm` -/
  json : JsonText
  cw : CwMigratable
  impl : ReferenceImpl
  items : Dealer.Items

structure Crates.Documented (X : Crates) : Prop where
  api : X.api.Documented
  cw : X.cw.Documented X.api X.json
  impl : X.impl.Documented X.api X.json

/-- The variants of the three message enums, as the crates spell them on the wire. -/
structure Crates.Tagged (X : Crates) : Prop where
  impl : X.impl.executeMsg.tags = snip721Tags
  migratable : X.cw.migratableExecuteMsg.tags =
    ["subscribe_to_migration_complete_event", "broadcast_migration_complete_notification"]
  migrationListener : X.cw.migrationListenerExecuteMsg.tags = ["migration_complete_notification"]

/-- `collect::<StdResult<Vec<_>>>()` -/
def collect {α : Type} : List (StdResult α) → StdResult (List α)
  | [] => .ok []
  | .ok a :: rs =>
    match collect rs with
    | .ok as => .ok (a :: as)
    | .error e => .error e
  | .error e :: _ => .error e

theorem collect_map_ok {α β : Type} {f : α → StdResult β} {l : List α} {l' : List β} :
    collect (l.map f) = .ok l' ↔ List.Forall₂ (fun a b => f a = .ok b) l l' := by
  induction l generalizing l' with
  | nil => cases l' <;> simp [collect]
  | cons a l ih =>
    simp only [List.map_cons]
    cases ha : f a with
    | error e => cases l' <;> simp [collect, ha]
    | ok b =>
      simp only [collect]
      cases hl : collect (l.map f) with
      | error e =>
        cases l' with
        | nil => simp
        | cons b' l' =>
          simp only [reduceCtorEq, List.forall₂_cons, false_iff, not_and]
          intro _ h
          rw [ih.mpr h] at hl; cases hl
      | ok bs =>
        cases l' with
        | nil => simp
        | cons b' l' =>
          simp only [Except.ok.injEq, List.cons.injEq, List.forall₂_cons, ha, ← ih, hl]

theorem exists_of_forall₂ {α β : Type} {R : α → β → Prop} {l : List α} {l' : List β}
    (h : List.Forall₂ R l l') {a : α} (ha : a ∈ l) : ∃ b ∈ l', R a b := by
  induction h with
  | nil => cases ha
  | cons hab _ ih =>
    rcases List.mem_cons.mp ha with rfl | ha
    · exact ⟨_, .head _, hab⟩
    · obtain ⟨b, hb, hr⟩ := ih ha
      exact ⟨b, .tail _ hb, hr⟩

/-- One failure is enough. -/
theorem collect_map_error {α β : Type} {f : α → StdResult β} {l : List α} {a : α} (ha : a ∈ l)
    (hf : ∀ b, f a ≠ .ok b) : ∃ e, collect (l.map f) = .error e := by
  cases hl : collect (l.map f) with
  | error e => exact ⟨e, rfl⟩
  | ok l' =>
    obtain ⟨b, _, hb⟩ := exists_of_forall₂ (collect_map_ok.mp hl) ha
    exact (hf b hb).elim

/-- The `migrate` entry point: tell every subscriber where this contract is now. -/
def notifySubscribers (X : Crates) (env : Env) : ContractM Response := do
  let stored ← Prog.reads fun st => .ok (X.cw.subscribers st)
  let contractsToNotify ← attempt (collect (stored.map X.cw.intoHumanized))
  let deps ← Prog.reads fun st => .ok st
  let msgs ← attempt (X.cw.createBroadcastMigrationCompleteNotificationMsgs deps .never 0
    env.contract contractsToNotify none)
  pure (Response.new.addSubmessages msgs)

section Spec

variable {X : Crates}

/-- A migration ends where humanizing the subscribers does, and changes nothing. -/
theorem notifySubscribers_run (hcw : X.cw.Documented X.api X.json) (env : Env) (st : Store) :
    notifySubscribers X env st =
      match collect ((X.cw.subscribers st).map X.cw.intoHumanized) with
      | .ok cs => (.ok (Response.new.addSubmessages
          (cs.map (X.cw.notify X.json .never 0 env.contract none))), st)
      | .error e => (.error (.std e), st) := by
  have hstored : (Prog.reads fun st => .ok (X.cw.subscribers st) : ContractM _) st =
      (.ok (X.cw.subscribers st), st) := rfl
  have hdeps : (Prog.reads fun st => .ok st : ContractM Store) st = (.ok st, st) := rfl
  unfold notifySubscribers
  rw [Prog.bind_of_ok hstored]
  cases h : collect ((X.cw.subscribers st).map X.cw.intoHumanized) with
  | error e => rfl
  | ok cs =>
    rw [Prog.bind_of_ok (attempt_ok.mpr ⟨rfl, rfl⟩), Prog.bind_of_ok hdeps, hcw.broadcast]
    rfl

/-- A migration that completes sends one notification to each subscriber, in order, and changes
nothing. -/
theorem notifySubscribers_ok (hcw : X.cw.Documented X.api X.json) {env : Env} {st st' : Store}
    {r : Response} :
    notifySubscribers X env st = (.ok r, st') ↔
      st' = st ∧ ∃ cs,
        List.Forall₂ (fun c i => X.cw.intoHumanized c = .ok i) (X.cw.subscribers st) cs ∧
        r.messages = cs.map (X.cw.notify X.json .never 0 env.contract none) := by
  rw [notifySubscribers_run hcw]
  constructor
  · intro h
    split at h
    · rename_i cs hcs
      cases h
      exact ⟨rfl, cs, collect_map_ok.mp hcs, rfl⟩
    · cases h
  · intro h
    obtain ⟨rfl, cs, hcs, hr⟩ := h
    rw [collect_map_ok.mpr hcs]
    simp only [Response.addSubmessages, Response.new, List.nil_append, ← hr]

/-- The i-th message of a migration goes to the i-th subscriber. -/
theorem notified (hcw : X.cw.Documented X.api X.json) {env : Env} {st st' : Store} {r : Response}
    (h : notifySubscribers X env st = (.ok r, st')) {i : Nat} {c : CanonicalContractInfo}
    (hc : (X.cw.subscribers st)[i]? = some c) :
    ∃ address, X.api.addrHumanize c.address = .ok address ∧
      r.messages[i]? =
        some (X.cw.notify X.json .never 0 env.contract none ⟨address, c.codeHash⟩) := by
  obtain ⟨_, cs, hcs, hr⟩ := (notifySubscribers_ok hcw).mp h
  obtain ⟨hi, rfl⟩ := List.getElem?_eq_some_iff.mp hc
  have hi' : i < cs.length := by rw [← hcs.length_eq]; exact hi
  have hget := hcs.get hi hi'
  rw [hcw.intoHumanized] at hget
  simp only [List.get_eq_getElem] at hget
  cases hhum : X.api.addrHumanize (X.cw.subscribers st)[i].address with
  | error e => rw [hhum] at hget; cases hget
  | ok address =>
    rw [hhum] at hget
    have hcs : cs[i] = ⟨address, (X.cw.subscribers st)[i].codeHash⟩ := by
      injection hget with hget; exact hget.symm
    exact ⟨address, rfl, by rw [hr, List.getElem?_map, List.getElem?_eq_getElem hi', hcs]; rfl⟩

end Spec

end Snip721Migratable
