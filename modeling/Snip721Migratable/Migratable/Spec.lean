import Snip721Migratable.Migratable.Contract

/-!
# Migratable.Spec

What each entry point of the migratable snip721 does to its registry of subscribers. The base
contract never touches the registry, and the migration messages touch nothing else.

* `execute_cases` : what a completed execute message can be.
* `Op`, `step`, `run` : runs of execute messages and migrations.
* `call_next`, `fail_next` : what one call does to the registry (`Next`).
* `Instantiated.run_registry` : every reachable storage holds a registry.
-/

namespace Snip721Migratable
namespace Migratable

open Registry

section

variable {X : Crates} {st st' : Store} {reg : Registry CanonicalContractInfo} {info : MessageInfo}
  {r : Response}

theorem updateMigratedDependency_ok (hcw : X.cw.Documented X.api X.json)
    (hreg : X.cw.registry st = some reg) {migratedTo : ContractInfo}
    (h : updateMigratedDependency X info migratedTo st = (.ok r, st')) :
    r.messages = [] ∧ Store.EqOff CwMigratable.keys st st' ∧ ∃ sender raw l',
      X.api.addrCanonicalize info.sender = .ok sender ∧
      X.api.addrCanonicalize migratedTo.address = .ok raw ∧
      X.cw.Updated sender ⟨raw, migratedTo.codeHash⟩ reg.entries l' ∧
      X.cw.registry st' = some { entries := l', slots := reg.slots } := by
  unfold updateMigratedDependency at h
  simp only [Prog.bind_ok, attempt_ok, Prog.pure_ok, hcw.canonicalize] at h
  obtain ⟨sender, _, ⟨hsender, rfl⟩, rawTo, _, ⟨hto, rfl⟩, _, st₁, hup, rfl, rfl⟩ := h
  obtain ⟨st₂, l', hok, hreg', hupd, hoff⟩ := hcw.update_run hreg sender rawTo
  rw [hok] at hup; cases hup
  cases hraw : X.api.addrCanonicalize migratedTo.address with
  | error e => rw [hraw] at hto; cases hto
  | ok raw =>
    rw [hraw] at hto; cases hto
    exact ⟨rfl, hoff, sender, raw, l', hsender, rfl, hupd, hreg'⟩

/-- Everybody is heard whose addresses canonicalize. -/
theorem updateMigratedDependency_accepts (hcw : X.cw.Documented X.api X.json)
    (hreg : X.cw.registry st = some reg) {migratedTo : ContractInfo} {sender raw : CanonicalAddr}
    (hsender : X.api.addrCanonicalize info.sender = .ok sender)
    (hto : X.api.addrCanonicalize migratedTo.address = .ok raw) :
    ∃ st', updateMigratedDependency X info migratedTo st = (.ok Response.new, st') := by
  have hcanon : X.cw.canonicalize migratedTo = .ok ⟨raw, migratedTo.codeHash⟩ := by
    rw [hcw.canonicalize, hto]; rfl
  obtain ⟨st', l', hok, _⟩ := hcw.update_run hreg sender ⟨raw, migratedTo.codeHash⟩
  refine ⟨st', ?_⟩
  unfold updateMigratedDependency
  rw [Prog.bind_of_ok (attempt_ok.mpr ⟨hsender, rfl⟩),
    Prog.bind_of_ok (attempt_ok.mpr ⟨hcanon, rfl⟩), Prog.bind_of_ok hok]
  rfl

/-- What a completed execute message can do. -/
theorem execute_cases (hX : X.Documented) (hreg : X.cw.registry st = some reg) (env : Env)
    {msg : ExecuteMsg} (h : execute X env info msg st = (.ok r, st')) :
    -- a message of the base contract
    (∃ baseMsg, msg = .base baseMsg ∧ X.impl.execute env info baseMsg st = (.ok r, st') ∧
      X.cw.registry st' = some reg) ∨
    -- a subscription
    (∃ address codeHash raw reg',
      msg = .migrate (.subscribeToMigrationCompleteEvent address codeHash) ∧ r.messages = [] ∧
      X.api.addrValidate address = .ok address ∧ X.api.addrCanonicalize address = .ok raw ∧
      reg.add ⟨raw, codeHash⟩ = some reg' ∧ X.cw.registry st' = some reg' ∧
      Store.EqOff CwMigratable.keys st st') ∨
    -- a notification
    (∃ migratedTo data sender raw l',
      msg = .migrateListener (.migrationCompleteNotification migratedTo data) ∧
      r.messages = [] ∧ X.api.addrCanonicalize info.sender = .ok sender ∧
      X.api.addrCanonicalize migratedTo.address = .ok raw ∧
      X.cw.Updated sender ⟨raw, migratedTo.codeHash⟩ reg.entries l' ∧
      X.cw.registry st' = some { entries := l', slots := reg.slots } ∧
      Store.EqOff CwMigratable.keys st st') := by
  match msg with
  | .base baseMsg =>
    refine .inl ⟨baseMsg, rfl, h, ?_⟩
    rw [← hreg]
    exact CwMigratable.registry_congr (hX.impl.execute_frame h)
  | .migrate (.subscribeToMigrationCompleteEvent address codeHash) =>
    obtain ⟨hr, hoff, valid, raw, reg', hv, hraw, hadd, hreg'⟩ := hX.cw.register_ok hreg h
    obtain ⟨rfl, _⟩ := hX.api.validate hv
    exact .inr (.inl ⟨valid, codeHash, raw, reg', rfl, hr, hv, hraw, hadd, hreg', hoff⟩)
  | .migrate (.broadcastMigrationCompleteNotification ..) =>
    exact (failWith_ok.mp h).elim
  | .migrateListener (.migrationCompleteNotification migratedTo data) =>
    obtain ⟨hr, hoff, sender, raw, l', hsender, hto, hup, hreg'⟩ :=
      updateMigratedDependency_ok hX.cw hreg h
    exact .inr (.inr ⟨migratedTo, data, sender, raw, l', rfl, hr, hsender, hto, hup, hreg', hoff⟩)

/-- A migration reads the registry and changes nothing. -/
theorem migrate_ok (hcw : X.cw.Documented X.api X.json) (hreg : X.cw.registry st = some reg)
    {env : Env} :
    migrate X env st = (.ok r, st') ↔
      st' = st ∧ ∃ cs,
        List.Forall₂ (fun c i => X.cw.intoHumanized c = .ok i) reg.entries cs ∧
        r.messages = cs.map (X.cw.notify X.json .never 0 env.contract none) := by
  unfold migrate
  rw [notifySubscribers_ok hcw, CwMigratable.subscribers_of_registry hreg]

theorem instantiate_ok (hX : X.Documented) {env : Env} {msg : InstantiateMsg}
    (h : instantiate X env info msg Store.empty = (.ok r, st')) :
    X.cw.registry st' = some
      { entries := [], slots := some msg.maxMigrationCompleteEventSubscribers.toNat } ∧
    X.impl.instantiate env info msg.instantiate
      (X.cw.remainingMigrationCompleteEventSubSlots.save
        msg.maxMigrationCompleteEventSubscribers Store.empty) = (.ok r, st') := by
  unfold instantiate at h
  simp only [Prog.bind_ok, save_ok] at h
  obtain ⟨_, st₁, rfl, h⟩ := h
  refine ⟨?_, h⟩
  rw [CwMigratable.registry_congr (hX.impl.instantiate_frame h)]
  exact CwMigratable.registry_save_slots _ _ (CwMigratable.registry_empty X.cw)

end

/-! ## Runs -/

inductive Op where
  | execute (env : Env) (info : MessageInfo) (msg : ExecuteMsg)
  | migrate (env : Env)

section Calls

variable (X : Crates)

def Op.call : Op → ContractM Response
  | .execute env info msg => Migratable.execute X env info msg
  | .migrate env => Migratable.migrate X env

def step (st : Store) (o : Op) : Store := (o.call X).commit st

def run (st : Store) (ops : List Op) : Store := ops.foldl (step X) st

/-- `st` is the storage after a migratable snip721 was instantiated. -/
def Instantiated (env : Env) (info : MessageInfo) (msg : InstantiateMsg) (st : Store) : Prop :=
  ∃ r, instantiate X env info msg Store.empty = (.ok r, st)

end Calls

/-- What one call does to the registry. -/
inductive Next (X : Crates) (reg : Registry CanonicalContractInfo) :
    Op → Registry CanonicalContractInfo → Prop where
  | base (env : Env) (info : MessageInfo) (msg : Snip721ExecuteMsg) :
      Next X reg (.execute env info (.base msg)) reg
  | subscribed {env : Env} {info : MessageInfo} {address codeHash : String} {raw : CanonicalAddr}
      {reg' : Registry CanonicalContractInfo} :
      X.api.addrCanonicalize address = .ok raw → reg.add ⟨raw, codeHash⟩ = some reg' →
      Next X reg
        (.execute env info (.migrate (.subscribeToMigrationCompleteEvent address codeHash))) reg'
  | refused (env : Env) (info : MessageInfo) (msg : MigratableExecuteMsg) :
      Next X reg (.execute env info (.migrate msg)) reg
  | heard {env : Env} {info : MessageInfo} {migratedTo : ContractInfo} {data : Option Binary}
      {sender raw : CanonicalAddr} {l' : List CanonicalContractInfo} :
      X.api.addrCanonicalize info.sender = .ok sender →
      X.api.addrCanonicalize migratedTo.address = .ok raw →
      X.cw.Updated sender ⟨raw, migratedTo.codeHash⟩ reg.entries l' →
      Next X reg
        (.execute env info (.migrateListener (.migrationCompleteNotification migratedTo data)))
        { entries := l', slots := reg.slots }
  | ignored {env : Env} {info : MessageInfo} {migratedTo : ContractInfo} {data : Option Binary} :
      (¬ ∃ sender raw, X.api.addrCanonicalize info.sender = .ok sender ∧
        X.api.addrCanonicalize migratedTo.address = .ok raw) →
      Next X reg
        (.execute env info (.migrateListener (.migrationCompleteNotification migratedTo data))) reg
  | migrated (env : Env) : Next X reg (.migrate env) reg

section

variable {X : Crates} {st st' : Store} {reg : Registry CanonicalContractInfo}

theorem call_next (hX : X.Documented) (hreg : X.cw.registry st = some reg) {o : Op} {r : Response}
    (h : o.call X st = (.ok r, st')) :
    ∃ reg', X.cw.registry st' = some reg' ∧ Next X reg o reg' := by
  cases o with
  | migrate env =>
    obtain ⟨rfl, _⟩ := (migrate_ok hX.cw hreg).mp h
    exact ⟨reg, hreg, .migrated env⟩
  | execute env info msg =>
    rcases execute_cases hX hreg env h with ⟨baseMsg, rfl, _, hreg'⟩ |
      ⟨address, codeHash, raw, reg', rfl, _, _, hraw, hadd, hreg', _⟩ |
      ⟨migratedTo, data, sender, raw, l', rfl, _, hsender, hto, hup, hreg', _⟩
    · exact ⟨reg, hreg', .base env info baseMsg⟩
    · exact ⟨reg', hreg', .subscribed hraw hadd⟩
    · exact ⟨_, hreg', .heard hsender hto hup⟩

theorem fail_next (hX : X.Documented) (hreg : X.cw.registry st = some reg) {o : Op} {e : Fault}
    (h : o.call X st = (.error e, st')) : Next X reg o reg := by
  match o with
  | .migrate env => exact .migrated env
  | .execute env info (.base msg) => exact .base env info msg
  | .execute env info (.migrate msg) => exact .refused env info msg
  | .execute env info (.migrateListener (.migrationCompleteNotification migratedTo data)) =>
    refine .ignored ?_
    intro hheard
    obtain ⟨sender, raw, hsender, hto⟩ := hheard
    obtain ⟨st₁, hok⟩ := updateMigratedDependency_accepts hX.cw hreg hsender hto
    rw [Op.call, execute, hok] at h
    cases h

theorem step_next (hX : X.Documented) (hreg : X.cw.registry st = some reg) (o : Op) :
    ∃ reg', X.cw.registry (step X st o) = some reg' ∧ Next X reg o reg' := by
  rcases Prog.outcome (o.call X) st with ⟨r, st', h⟩ | ⟨e, st', h⟩
  · rw [step, Prog.commit_of_ok h]
    exact call_next hX hreg h
  · rw [step, Prog.commit_of_error h]
    exact ⟨reg, hreg, fail_next hX hreg h⟩

theorem Instantiated.registry (hX : X.Documented) {env : Env} {info : MessageInfo}
    {msg : InstantiateMsg} (h : Instantiated X env info msg st) :
    ∃ reg, X.cw.registry st = some reg := by
  obtain ⟨r, h⟩ := h
  exact ⟨_, (instantiate_ok hX h).1⟩

theorem run_registry (hX : X.Documented) (ops : List Op) (hreg : X.cw.registry st = some reg) :
    ∃ reg', X.cw.registry (run X st ops) = some reg' := by
  induction ops generalizing st reg with
  | nil => exact ⟨reg, hreg⟩
  | cons o ops ih =>
    obtain ⟨reg', hreg', _⟩ := step_next hX hreg o
    exact ih hreg'

/-- Every reachable storage holds a registry. -/
theorem Instantiated.run_registry (hX : X.Documented) {env : Env} {info : MessageInfo}
    {msg : InstantiateMsg} (h : Instantiated X env info msg st) (ops : List Op) :
    ∃ reg, X.cw.registry (run X st ops) = some reg := by
  obtain ⟨reg, hreg⟩ := h.registry hX
  exact Migratable.run_registry hX ops hreg

end

end Migratable
end Snip721Migratable
