import Snip721Migratable.Footprints
import Snip721Migratable.Migratable.Minters

/-!
# Migratable.Layers

The migratable snip721 is two components that share a storage: the base contract, as it would be
without migrations, and a registry of subscribers. Neither notices the other, in whatever order
their messages arrive.

* `query` : the query entry point, which is that of the base contract.
* `baseCalls`, `registryCalls` : the two components of the migratable contract.
* `migratable_is_base_and_registry` : after every run the base contract has answered, stored and
  shows in its queries what the plain base contract does on the base messages alone, and the
  registry is that of the other messages alone.
-/

namespace Snip721Migratable
namespace Migratable

open Prog (Local)

/-- The queries of the base contract, with a state of their own. -/
structure BaseQueries where
  QueryMsg : Type
  query : Store → Env → QueryMsg → StdResult Binary
  own_state : ∀ {st st'}, Set.EqOn st st' (CwMigratable.keySet)ᶜ → ∀ env msg,
    query st env msg = query st' env msg

def query (base : BaseQueries) (deps : Store) (env : Env) (msg : base.QueryMsg) :
    StdResult Binary :=
  base.query deps env msg

/-! ## The components -/

/-- A message of the base contract. -/
structure BaseCall where
  env : Env
  info : MessageInfo
  msg : Snip721ExecuteMsg

def BaseCall.prog (X : Crates) (c : BaseCall) : ContractM Response :=
  X.impl.execute c.env c.info c.msg

def Op.base? : Op → Option BaseCall
  | .execute env info (.base msg) => some ⟨env, info, msg⟩
  | _ => none

/-- A message about migrations, or a migration. -/
abbrev RegistryCall := { o : Op // o.base? = none }

def RegistryCall.prog (X : Crates) (c : RegistryCall) : ContractM Response := c.1.call X

def Op.registry? (o : Op) : Option RegistryCall :=
  if h : o.base? = none then some ⟨o, h⟩ else none

def baseCalls (ops : List Op) : List BaseCall := ops.filterMap Op.base?

def registryCalls (ops : List Op) : List RegistryCall := ops.filterMap Op.registry?

section

variable {X : Crates}

theorem call_of_base? {o : Op} {c : BaseCall} (h : o.base? = some c) : o.call X = c.prog X := by
  unfold Op.base? at h
  split at h
  · cases h; rfl
  · cases h

/-- What is not for the base contract keeps to the keys of the migration crate. -/
theorem registry_call_local (hcw : X.cw.Documented X.api X.json) (hsep : X.Separate) {o : Op}
    (h : o.base? = none) : Local CwMigratable.keySet (o.call X) := by
  match o with
  | .migrate env => exact notifySubscribers_local hcw env
  | .execute env info (.base msg) => cases h
  | .execute env info (.migrate (.subscribeToMigrationCompleteEvent address codeHash)) =>
    exact register_local hcw hsep address codeHash
  | .execute env info (.migrate (.broadcastMigrationCompleteNotification ..)) =>
    exact failWith_local _
  | .execute env info (.migrateListener (.migrationCompleteNotification migratedTo data)) =>
    show Local _ (updateMigratedDependency X info migratedTo)
    unfold updateMigratedDependency
    refine .bind (attempt_local _) fun _ => .bind (attempt_local _) fun _ => ?_
    exact .bind (hsep.update _ _) fun _ => .pure _

theorem base_component (hcw : X.cw.Documented X.api X.json) (hsep : X.Separate) :
    Prog.Component (CwMigratable.keySet)ᶜ (Op.call X) (BaseCall.prog X) Op.base? where
  mine := call_of_base?
  keeps c := hsep.execute c.env c.info c.msg
  others := by
    intro o h s
    have hframe := (registry_call_local hcw hsep h).commit_frame s
    exact hframe

theorem registry_component (hcw : X.cw.Documented X.api X.json) (hsep : X.Separate) :
    Prog.Component CwMigratable.keySet (Op.call X) (RegistryCall.prog X) Op.registry? where
  mine := by
    intro o c h
    unfold Op.registry? at h
    split at h
    · cases h; rfl
    · cases h
  keeps c := registry_call_local hcw hsep c.2
  others := by
    intro o h s
    unfold Op.registry? at h
    cases hbase : o.base? with
    | none => simp [hbase] at h
    | some c =>
      rw [call_of_base? hbase]
      have hframe := (hsep.execute c.env c.info c.msg).commit_frame s
      rwa [compl_compl] at hframe

/-! ## Runs -/

/-- What the storages of the two components are when a run begins: the base contract without a
registry, and the registry with all its slots. -/
def newRegistry (X : Crates) (msg : InstantiateMsg) : Store :=
  X.cw.remainingMigrationCompleteEventSubSlots.save msg.maxMigrationCompleteEventSubscribers
    Store.empty

/-- A run from `st`, next to runs of the two components from `b` and `r`. -/
structure SideBySide (X : Crates) (base : BaseQueries) (st b r : Store) (ops : List Op) : Prop where
  answers : Prog.answersOf Op.base? (Prog.trace (Op.call X) st ops) =
    Prog.trace (BaseCall.prog X) b (baseCalls ops)
  storage : Set.EqOn (run X st ops) (Prog.runAll (BaseCall.prog X) b (baseCalls ops))
    (CwMigratable.keySet)ᶜ
  queries : ∀ env msg, query base (run X st ops) env msg =
    base.query (Prog.runAll (BaseCall.prog X) b (baseCalls ops)) env msg
  registryAnswers : Prog.answersOf Op.registry? (Prog.trace (Op.call X) st ops) =
    Prog.trace (RegistryCall.prog X) r (registryCalls ops)
  registryStorage : Set.EqOn (run X st ops)
    (Prog.runAll (RegistryCall.prog X) r (registryCalls ops)) CwMigratable.keySet

theorem sideBySide (hcw : X.cw.Documented X.api X.json) (hsep : X.Separate) (base : BaseQueries)
    {st b r : Store} (hb : Set.EqOn st b (CwMigratable.keySet)ᶜ)
    (hr : Set.EqOn st r CwMigratable.keySet) (ops : List Op) : SideBySide X base st b r ops := by
  obtain ⟨hstorage, hanswers⟩ := Prog.run_project (base_component hcw hsep) ops hb
  obtain ⟨hregistry, hregistryAnswers⟩ := Prog.run_project (registry_component hcw hsep) ops hr
  exact ⟨hanswers, hstorage, fun env msg => base.own_state hstorage env msg, hregistryAnswers,
    hregistry⟩

theorem newRegistry_eqOn (X : Crates) (msg : InstantiateMsg) :
    Set.EqOn (newRegistry X msg) Store.empty (CwMigratable.keySet)ᶜ := by
  intro k hk
  refine Item.save_ne _ _ _ ?_
  rintro rfl
  simp [CwMigratable.keySet, CwMigratable.keys] at hk

theorem instantiate_eq (env : Env) (info : MessageInfo) (msg : InstantiateMsg) :
    instantiate X env info msg Store.empty =
      X.impl.instantiate env info msg.instantiate (newRegistry X msg) :=
  Prog.bind_of_ok (save_run ..)

/-- Being migratable does not show: messages about migrations and migrations themselves, wherever
they come between the messages of the base contract, change neither what it answers, nor what it
stores, nor what its queries show. Nor do its messages change the registry. -/
theorem migratable_is_base_and_registry (hX : X.Documented) (hsep : X.Separate)
    (base : BaseQueries) (env : Env) (info : MessageInfo) (msg : InstantiateMsg) :
    (instantiate X env info msg Store.empty).1 =
      (X.impl.instantiate env info msg.instantiate Store.empty).1 ∧
    ∀ st, Instantiated X env info msg st →
      ∃ b r, X.impl.instantiate env info msg.instantiate Store.empty = (.ok r, b) ∧
        ∀ ops, SideBySide X base st b (newRegistry X msg) ops := by
  have hlocal := hsep.instantiate env info msg.instantiate
  rw [instantiate_eq]
  refine ⟨hlocal.answer (newRegistry_eqOn X msg), ?_⟩
  rintro st ⟨r, hinst⟩
  rw [instantiate_eq] at hinst
  obtain ⟨b, hbase, hb⟩ := hlocal.ok_congr (newRegistry_eqOn X msg) hinst
  have hr := hlocal.frame (newRegistry X msg)
  rw [compl_compl, hinst] at hr
  exact ⟨b, r, hbase, fun ops => sideBySide hX.cw hsep base hb hr ops⟩

end

/-! ## A run -/

section

open Reference

/-- The query for the number of tokens. -/
def numTokens : BaseQueries where
  QueryMsg := Unit
  query st _ _ := (loadItem mintedItem st).map fun tokens =>
    jsonBytes.render (.obj [("num_tokens", .obj [("count", .num tokens.length)])])
  own_state := by
    intro st st' h _ _
    rw [loadItem_congr impl_item_keys.2.2 h]

/-- The dealer subscribes, mints, is told of a migration, and mints again. -/
def mixedRun : List Op :=
  let mint : Op := .execute tokenEnv dealer
    (.base (Dealer.mintNftMsg "buyer" ⟨some Sale.publicMetadata, none⟩))
  [subscription, mint, .migrate tokenEnv,
    .execute tokenEnv dealer (announcement ⟨"dealer", "dealer_v2"⟩), mint]

theorem migratable_is_base_and_registry_run :
    (baseCalls mixedRun).length = 2 ∧ (registryCalls mixedRun).length = 3 ∧
      ∃ b r, crates.impl.instantiate tokenEnv dealer tokenMsg.instantiate Store.empty = (.ok r, b) ∧
        SideBySide crates numTokens token b (newRegistry crates tokenMsg) mixedRun := by
  obtain ⟨_, hrun⟩ := migratable_is_base_and_registry crates_documented crates_separate numTokens
    tokenEnv dealer tokenMsg
  obtain ⟨b, r, hb, hops⟩ := hrun token token_instantiated
  exact ⟨rfl, rfl, b, r, hb, hops mixedRun⟩

end

end Migratable
end Snip721Migratable
