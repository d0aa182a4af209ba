import Snip721Migratable.Dealer.Spec

/-!
# Dealer.Run

Runs of an instantiated dealer: any sequence of execute messages and migrations. A call that fails
leaves the storage as it was.

* `Next X s o s'` : the abstract step. It has one constructor for each thing a call can do to the
  state, refusals included.
* `step_next`, `run_nexts` : the storage follows the abstract steps. What holds along every chain
  of `Next` steps holds along every run of the code.
* `Instantiated` : the storage a successful `instantiate` and its `reply` leave behind, and
  `Instantiated.holds`, the state it holds.
-/

namespace Snip721Migratable
namespace Dealer

open Registry

inductive Op where
  | execute (env : Env) (info : MessageInfo) (msg : ExecuteMsg)
  | migrate (env : Env)

section Calls

variable (X : Crates)

def Op.call : Op → ContractM Response
  | .execute env info msg => Dealer.execute X env info msg
  | .migrate env => Dealer.migrate X env

def step (st : Store) (o : Op) : Store := (o.call X).commit st

def run (st : Store) (ops : List Op) : Store := ops.foldl (step X) st

end Calls

/-- Whom the dealer listens to, and for which announcements. -/
def Heard (X : Crates) (s : State) (info : MessageInfo) (migratedTo : ContractInfo) : Prop :=
  X.api.addrCanonicalize info.sender = .ok s.child.address ∧
    ∃ raw, X.api.addrCanonicalize migratedTo.address = .ok raw

/-- Which subscriptions are taken. -/
def Admitted (X : Crates) (s : State) (msg : MigratableExecuteMsg) : Prop :=
  ∃ address codeHash raw reg', msg = .subscribeToMigrationCompleteEvent address codeHash ∧
    X.api.addrValidate address = .ok address ∧ X.api.addrCanonicalize address = .ok raw ∧
    s.registry.add ⟨raw, codeHash⟩ = some reg'

inductive Next (X : Crates) (s : State) : Op → State → Prop where
  | purchase (env : Env) (info : MessageInfo) :
      Next X s (.execute env info (.dealer .purchaseMint)) s
  | subscribed {env : Env} {info : MessageInfo} {address codeHash : String} {raw : CanonicalAddr}
      {reg' : Registry CanonicalContractInfo} :
      X.api.addrValidate address = .ok address → X.api.addrCanonicalize address = .ok raw →
      s.registry.add ⟨raw, codeHash⟩ = some reg' →
      Next X s (.execute env info (.migrate (.subscribeToMigrationCompleteEvent address codeHash)))
        { s with registry := reg' }
  | refused {env : Env} {info : MessageInfo} {msg : MigratableExecuteMsg} :
      ¬ Admitted X s msg → Next X s (.execute env info (.migrate msg)) s
  | heard {env : Env} {info : MessageInfo} {migratedTo : ContractInfo} {data : Option Binary}
      {raw : CanonicalAddr} {l' : List CanonicalContractInfo} :
      X.api.addrCanonicalize info.sender = .ok s.child.address →
      X.api.addrCanonicalize migratedTo.address = .ok raw →
      X.cw.Updated s.child.address ⟨raw, migratedTo.codeHash⟩ s.registry.entries l' →
      Next X s
        (.execute env info (.migrateListener (.migrationCompleteNotification migratedTo data)))
        { s with
          child := ⟨raw, migratedTo.codeHash⟩,
          registry := { entries := l', slots := s.registry.slots } }
  | ignored {env : Env} {info : MessageInfo} {migratedTo : ContractInfo} {data : Option Binary} :
      ¬ Heard X s info migratedTo →
      Next X s
        (.execute env info (.migrateListener (.migrationCompleteNotification migratedTo data))) s
  | migrated (env : Env) : Next X s (.migrate env) s

inductive Nexts (X : Crates) : State → List Op → State → Prop where
  | nil (s : State) : Nexts X s [] s
  | cons {s s₁ s' : State} {o : Op} {os : List Op} :
      Next X s o s₁ → Nexts X s₁ os s' → Nexts X s (o :: os) s'

/-- The invariant rule of the abstract dealer. -/
theorem Nexts.inv {X : Crates} {I : State → Prop}
    (hstep : ∀ s o s', I s → Next X s o s' → I s') {s s' : State} {os : List Op}
    (h : Nexts X s os s') (hs : I s) : I s' := by
  induction h with
  | nil s => exact hs
  | cons hn _ ih => exact ih (hstep _ _ _ hs hn)

section

variable {X : Crates} {st st' : Store} {s : State} {info : MessageInfo}

theorem notification_ok_iff (hX : X.Documented) (hs : Holds X st s) (env : Env)
    (data : Option Binary) {migratedTo : ContractInfo} :
    (∃ r st', execute X env info
        (.migrateListener (.migrationCompleteNotification migratedTo data)) st = (.ok r, st')) ↔
      Heard X s info migratedTo := by
  constructor
  · intro hok
    obtain ⟨r, st', h⟩ := hok
    obtain ⟨hsender, _, raw, _, hto, _⟩ := updateChildSnip721_ok hX.cw hs h
    exact ⟨hsender, raw, hto⟩
  · intro hheard
    obtain ⟨hsender, raw, hto⟩ := hheard
    obtain ⟨st', h⟩ := updateChildSnip721_accepts hX.cw hs hsender hto
    exact ⟨_, st', h⟩

/-- A completed call takes the storage along an abstract step. -/
theorem call_next (hX : X.Documented) (hs : Holds X st s) {o : Op} {r : Response}
    (h : o.call X st = (.ok r, st')) : ∃ s', Holds X st' s' ∧ Next X s o s' := by
  cases o with
  | migrate env =>
    obtain ⟨rfl, _⟩ := (migrate_ok hX.cw hs).mp h
    exact ⟨s, hs, .migrated env⟩
  | execute env info msg =>
    rcases execute_cases hX.cw hs env h with ⟨rfl, rfl, _⟩ |
      ⟨address, codeHash, valid, raw, reg', rfl, _, hv, hraw, hadd, hs'⟩ |
      ⟨migratedTo, data, raw, l', rfl, _, hsender, hto, hren, hs'⟩
    · exact ⟨s, hs, .purchase env info⟩
    · obtain ⟨rfl, _⟩ := hX.api.validate hv
      exact ⟨_, hs', .subscribed hv hraw hadd⟩
    · exact ⟨_, hs', .heard hsender hto hren⟩

/-- A call that fails was of a kind that leaves the state alone. -/
theorem fail_next (hX : X.Documented) (hs : Holds X st s) {o : Op} {e : Fault}
    (h : o.call X st = (.error e, st')) : Next X s o s := by
  cases o with
  | migrate env => exact .migrated env
  | execute env info msg =>
    match msg with
    | .dealer .purchaseMint => exact .purchase env info
    | .migrate msg =>
      refine .refused ?_
      intro hadmitted
      obtain ⟨address, codeHash, raw, reg', rfl, hv, hraw, hadd⟩ := hadmitted
      obtain ⟨st₁, hok⟩ := hX.cw.register_run hs.registry hv hraw hadd
      rw [Op.call, execute, hok] at h
      cases h
    | .migrateListener (.migrationCompleteNotification migratedTo data) =>
      refine .ignored fun hh => ?_
      obtain ⟨r, st₁, hok⟩ := (notification_ok_iff hX hs env data).mpr hh
      rw [Op.call, hok] at h
      cases h

theorem step_next (hX : X.Documented) (hs : Holds X st s) (o : Op) :
    ∃ s', Holds X (step X st o) s' ∧ Next X s o s' := by
  rcases Prog.outcome (o.call X) st with ⟨r, st', h⟩ | ⟨e, st', h⟩
  · rw [step, Prog.commit_of_ok h]
    exact call_next hX hs h
  · rw [step, Prog.commit_of_error h]
    exact ⟨s, hs, fail_next hX hs h⟩

theorem run_nexts (hX : X.Documented) (ops : List Op) (hs : Holds X st s) :
    ∃ s', Holds X (run X st ops) s' ∧ Nexts X s ops s' := by
  induction ops generalizing st s with
  | nil => exact ⟨s, hs, .nil s⟩
  | cons o ops ih =>
    obtain ⟨s₁, hs₁, hn⟩ := step_next hX hs o
    obtain ⟨s', hs', hns⟩ := ih hs₁
    exact ⟨s', hs', .cons hn hns⟩

end

/-! ## Where runs start -/

/-- `st` is the storage after a dealer was instantiated and got the reply about its child. -/
def Instantiated (X : Crates) (env : Env) (info : MessageInfo) (msg : InstantiateMsg)
    (replyEnv : Env) (rep : Reply) (st : Store) : Prop :=
  ∃ r st₀ r', instantiate X env info msg Store.empty = (.ok r, st₀) ∧
    reply X replyEnv rep st₀ = (.ok r', st)

/-- The address a reply reports. -/
def reportedChild (rep : Reply) : Option String :=
  match rep.result with
  | .ok result => instantiatedAddress result.events
  | .err _ => none

/-- The state of a dealer that was just instantiated. -/
structure Initial (X : Crates) (info : MessageInfo) (msg : InstantiateMsg) (rep : Reply)
    (s : State) : Prop where
  prices_ne_nil : msg.prices ≠ []
  admin : ∃ a, trueAdmin X info msg = .ok a ∧ X.api.addrCanonicalize a = .ok s.admin
  admin_humanizes : ∃ a, X.api.addrHumanize s.admin = .ok a
  prices : s.prices = msg.prices
  metadata : s.metadata = ⟨msg.publicMetadata, msg.privateMetadata⟩
  childAddress : ∃ a, reportedChild rep = some a ∧
    X.api.addrCanonicalize a = .ok s.child.address
  child_humanizes : ∃ a, X.api.addrHumanize s.child.address = .ok a
  childCodeHash : s.child.codeHash = msg.snip721CodeHash
  registry : s.registry = { entries := [s.child], slots := none }

theorem Instantiated.holds {X : Crates} (hX : X.Documented) {env replyEnv : Env}
    {info : MessageInfo} {msg : InstantiateMsg} {rep : Reply} {st : Store}
    (h : Instantiated X env info msg replyEnv rep st) :
    ∃ s, Holds X st s ∧ Initial X info msg rep s := by
  obtain ⟨r, st₀, r', hinst, hrep⟩ := h
  obtain ⟨hne, admin, rawAdmin, hadm, hraw, _, ha, hp, hm, hh, hreg⟩ := instantiate_ok hinst
  obtain ⟨result, contractAddress, child, raw, adminAddr, hres, haddr, hchild, hcraw, hhum, _,
    hs⟩ := reply_ok hX.cw ha hp hm hh hreg hrep
  obtain ⟨rfl, raw', hraw', hchum⟩ := hX.api.validate hchild
  cases hcraw.symm.trans hraw'
  refine ⟨_, hs, hne, ⟨admin, hadm, hraw⟩, ⟨adminAddr, hhum⟩, rfl, rfl, ⟨child, ?_, hcraw⟩,
    ⟨child, hchum⟩, rfl, rfl⟩
  simp [reportedChild, hres, haddr]

/-- The messages of the two calls: one instantiates the child, two go to it. -/
theorem instantiated_messages {X : Crates} (hX : X.Documented) {env replyEnv : Env}
    {info : MessageInfo} {msg : InstantiateMsg} {rep : Reply} {st₀ st : Store} {r r' : Response}
    (hinst : instantiate X env info msg Store.empty = (.ok r, st₀))
    (hrep : reply X replyEnv rep st₀ = (.ok r', st)) :
    (∃ admin, trueAdmin X info msg = .ok admin ∧
      r.messages = [SubMsg.replyOnSuccess (.wasm (instantiateChildMsg X env msg admin))
        instantiateSnip721ReplyId]) ∧
    ∃ child admin, reportedChild rep = some child ∧
      r'.messages = replyMessages X replyEnv child msg.snip721CodeHash admin := by
  obtain ⟨_, admin, rawAdmin, hadm, _, hr, ha, hp, hm, hh, hreg⟩ := instantiate_ok hinst
  obtain ⟨result, contractAddress, child, raw, adminAddr, hres, haddr, hchild, _, _, hr', _⟩ :=
    reply_ok hX.cw ha hp hm hh hreg hrep
  obtain ⟨rfl, _⟩ := hX.api.validate hchild
  exact ⟨⟨admin, hadm, hr⟩, child, adminAddr, by simp [reportedChild, hres, haddr], hr'⟩

/-- Instantiation goes through for every message with a price whose admin is a valid address, if
the chain reports a valid address for the child. -/
theorem instantiated_of {X : Crates} (hX : X.Documented) (env replyEnv : Env) {info : MessageInfo}
    {msg : InstantiateMsg} {rep : Reply} {admin adminAddr child : Addr} {rawAdmin : CanonicalAddr}
    (hprices : msg.prices ≠ []) (hadmin : trueAdmin X info msg = .ok admin)
    (hraw : X.api.addrCanonicalize admin = .ok rawAdmin)
    (hhum : X.api.addrHumanize rawAdmin = .ok adminAddr)
    (hid : rep.id = instantiateSnip721ReplyId) (hrep : reportedChild rep = some child)
    (hchild : X.api.addrValidate child = .ok child) :
    ∃ st, Instantiated X env info msg replyEnv rep st := by
  obtain ⟨_, rawChild, hrawChild, _⟩ := hX.api.validate hchild
  obtain ⟨r, st₀, hinst⟩ : ∃ r st₀, instantiate X env info msg Store.empty = (.ok r, st₀) := by
    unfold instantiate
    rw [if_neg (by simpa using hprices), Prog.bind_of_ok (attempt_ok.mpr ⟨hadmin, rfl⟩),
      Prog.bind_of_ok (attempt_ok.mpr ⟨hraw, rfl⟩)]
    exact ⟨_, _, rfl⟩
  obtain ⟨_, a, raw, ha, hr, _, hsa, hsp, hsm, hsh, hreg⟩ := instantiate_ok hinst
  cases hadmin.symm.trans ha
  cases hraw.symm.trans hr
  obtain ⟨st₁, hadd, _⟩ := hX.cw.add (X.items.childSnip721Address.save rawChild st₀) _ _ rawChild
    msg.snip721CodeHash
    ((CwMigratable.registry_congr fun k hk => Item.save_ne _ _ _ (by
      rintro rfl; simp [CwMigratable.keys] at hk)).trans hreg) (Registry.add_unlimited rfl _)
  unfold reportedChild at hrep
  cases hres : rep.result with
  | err e => rw [hres] at hrep; cases hrep
  | ok result =>
    simp only [hres] at hrep
    refine ⟨st₁, r, st₀, ⟨replyMessages X replyEnv child msg.snip721CodeHash adminAddr⟩, hinst, ?_⟩
    unfold reply onInstantiatedSnip721Reply
    rw [if_pos hid]
    simp only [hres, hrep]
    rw [Prog.bind_of_ok (attempt_ok.mpr ⟨hchild, rfl⟩),
      Prog.bind_of_ok (attempt_ok.mpr ⟨hrawChild, rfl⟩), Prog.bind_of_ok (save_run ..),
      Prog.bind_of_ok (load_ok.mpr ⟨(Item.load_save_ne _ _ _ _ (by simp)).trans hsh, rfl⟩),
      Prog.bind_of_ok (load_ok.mpr ⟨(Item.load_save_ne _ _ _ _ (by simp)).trans hsa, rfl⟩),
      Prog.bind_of_ok (attempt_ok.mpr ⟨hhum, rfl⟩), Prog.bind_of_ok hadd]
    rfl

end Dealer
end Snip721Migratable
