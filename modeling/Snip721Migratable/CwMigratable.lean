import Snip721Migratable.Std
import Snip721Migratable.Lib.Registry

/-!
# CwMigratable

The crate `cw_migratable_contract_std`: its messages, its two storage items and the functions the
contracts call. The crate is not part of the repository, so its functions are the fields of a
parameter (`CwMigratable`), and `CwMigratable.Documented` states what the contracts rely on:
registering adds to the stored registry of subscribers, a notification renames entries in it, and
a broadcast makes one message for each contract it is given. Which entries of its sender a
notification reaches is left open there: at least the first. What depends on it asks for
`RenamesFirst`, the behaviour of the crate that the contracts are built with, or for `RenamesAll`.

The registry is what the two items hold together (`CwMigratable.registry`); it is `none` only when
one of them holds bytes that do not decode.
-/

namespace Snip721Migratable

open Registry

structure CanonicalContractInfo where
  address : CanonicalAddr
  codeHash : String
  deriving DecidableEq, Repr

inductive MigratableExecuteMsg where
  | subscribeToMigrationCompleteEvent (address codeHash : String)
  | broadcastMigrationCompleteNotification (addresses : List String) (codeHash : String)
      (data : Option Binary)
  deriving DecidableEq, Repr

inductive MigrationListenerExecuteMsg where
  | migrationCompleteNotification (migratedTo : ContractInfo) (data : Option Binary)
  deriving DecidableEq, Repr

structure CwMigratable where
  subscribersCodec : Codec (List CanonicalContractInfo)
  slotsCodec : Codec UInt8
  migratableExecuteMsg : TaggedEnum MigratableExecuteMsg
  migrationListenerExecuteMsg : TaggedEnum MigrationListenerExecuteMsg
  canonicalize : ContractInfo → StdResult CanonicalContractInfo
  intoHumanized : CanonicalContractInfo → StdResult ContractInfo
  addMigrationCompleteEventSubscriber : CanonicalAddr → String → ContractM Unit
  registerToNotifyOnMigrationComplete : String → String → ContractM Response
  updateMigratedSubscriber : CanonicalAddr → CanonicalContractInfo → ContractM Unit
  createBroadcastMigrationCompleteNotificationMsgs :
    Store → ReplyOn → Nat → ContractInfo → List ContractInfo → Option Binary →
      StdResult (List SubMsg)

namespace CwMigratable

variable (cw : CwMigratable)

def migrationCompleteEventSubscribers : Item (List CanonicalContractInfo) where
  key := "ntifyOnMigrtd"
  typeName := "alloc::vec::Vec<cw_migratable_contract_std::state::CanonicalContractInfo>"
  codec := cw.subscribersCodec

def remainingMigrationCompleteEventSubSlots : Item UInt8 where
  key := "ntifyMigrtdSlts"
  typeName := "u8"
  codec := cw.slotsCodec

@[simp] theorem migrationCompleteEventSubscribers_key :
    cw.migrationCompleteEventSubscribers.key = "ntifyOnMigrtd" := rfl

@[simp] theorem remainingMigrationCompleteEventSubSlots_key :
    cw.remainingMigrationCompleteEventSubSlots.key = "ntifyMigrtdSlts" := rfl

/-- The storage keys of the crate. -/
def keys : List String := ["ntifyOnMigrtd", "ntifyMigrtdSlts"]

def registry (st : Store) : Option (Registry CanonicalContractInfo) :=
  match cw.migrationCompleteEventSubscribers.mayLoad st,
    cw.remainingMigrationCompleteEventSubSlots.mayLoad st with
  | .ok l, .ok n => some { entries := l.getD [], slots := n.map UInt8.toNat }
  | _, _ => none

/-- The listed subscribers, as `load(..).unwrap_or_default()` reads them. -/
def subscribers (st : Store) : List CanonicalContractInfo :=
  match cw.migrationCompleteEventSubscribers.load st with
  | .ok l => l
  | .error _ => []

/-- The message that tells one contract where `migratedTo` now is. -/
def notification (json : JsonText) (migratedTo : ContractInfo) (data : Option Binary) : Binary :=
  json.toBytes cw.migrationListenerExecuteMsg.codec (.migrationCompleteNotification migratedTo data)

def notify (json : JsonText) (replyOn : ReplyOn) (id : Nat) (migratedTo : ContractInfo)
    (data : Option Binary) (c : ContractInfo) : SubMsg :=
  { id, replyOn, gasLimit := none,
    msg := .wasm (.execute c.address c.codeHash (cw.notification json migratedTo data) []) }

/-- What the contracts rely on. -/
structure Documented (api : Api) (json : JsonText) : Prop where
  canonicalize : ∀ info, cw.canonicalize info =
    (api.addrCanonicalize info.address).map fun raw => ⟨raw, info.codeHash⟩
  intoHumanized : ∀ c, cw.intoHumanized c =
    (api.addrHumanize c.address).map fun a => ⟨a, c.codeHash⟩
  broadcast : ∀ st replyOn id migratedTo cs data,
    cw.createBroadcastMigrationCompleteNotificationMsgs st replyOn id migratedTo cs data =
      .ok (cs.map (cw.notify json replyOn id migratedTo data))
  register : ∀ address codeHash, cw.registerToNotifyOnMigrationComplete address codeHash = do
    let valid ← attempt (api.addrValidate address)
    let raw ← attempt (api.addrCanonicalize valid)
    cw.addMigrationCompleteEventSubscriber raw codeHash
    pure Response.new
  add_full : ∀ st reg raw codeHash, cw.registry st = some reg → reg.add ⟨raw, codeHash⟩ = none →
    ∃ e st', cw.addMigrationCompleteEventSubscriber raw codeHash st = (.error e, st')
  add : ∀ st reg reg' raw codeHash, cw.registry st = some reg →
    reg.add ⟨raw, codeHash⟩ = some reg' →
    ∃ st', cw.addMigrationCompleteEventSubscriber raw codeHash st = (.ok (), st') ∧
      cw.registry st' = some reg' ∧ Store.EqOff keys st st'
  update : ∀ st reg raw migratedTo, cw.registry st = some reg →
    ∃ st' l', cw.updateMigratedSubscriber raw migratedTo st = (.ok (), st') ∧
      cw.registry st' = some { entries := l', slots := reg.slots } ∧
      Renamed CanonicalContractInfo.address raw migratedTo reg.entries l' ∧ Store.EqOff keys st st'

/-- The update reaches every entry of the sender, not only the first. -/
def RenamesAll : Prop :=
  ∀ st reg raw migratedTo, cw.registry st = some reg →
    ∃ st', cw.updateMigratedSubscriber raw migratedTo st = (.ok (), st') ∧
      cw.registry st' = some
        { entries := renameAll CanonicalContractInfo.address raw migratedTo reg.entries,
          slots := reg.slots }

/-- The update stops at the first entry of the sender. -/
def RenamesFirst : Prop :=
  ∀ st reg raw migratedTo, cw.registry st = some reg →
    ∃ st', cw.updateMigratedSubscriber raw migratedTo st = (.ok (), st') ∧
      cw.registry st' = some
        { entries := renameFirst CanonicalContractInfo.address raw migratedTo reg.entries,
          slots := reg.slots }

/-- `l'` is what the update of the entries of `raw` makes of the list `l`. -/
def Updated (raw : CanonicalAddr) (migratedTo : CanonicalContractInfo)
    (l l' : List CanonicalContractInfo) : Prop :=
  ∃ st st' slots, cw.registry st = some { entries := l, slots } ∧
    cw.updateMigratedSubscriber raw migratedTo st = (.ok (), st') ∧
    cw.registry st' = some { entries := l', slots }

variable {cw}

theorem Updated.renamed {api : Api} {json : JsonText} (hcw : cw.Documented api json)
    {raw : CanonicalAddr} {migratedTo : CanonicalContractInfo} {l l' : List CanonicalContractInfo}
    (h : cw.Updated raw migratedTo l l') :
    Renamed CanonicalContractInfo.address raw migratedTo l l' := by
  obtain ⟨st, st', slots, hreg, hup, hreg'⟩ := h
  obtain ⟨st₂, l₂, hok, hreg₂, hren, _⟩ := hcw.update _ _ raw migratedTo hreg
  rw [hok] at hup
  cases hup
  cases hreg'.symm.trans hreg₂
  exact hren

theorem Updated.eq_of_run {raw : CanonicalAddr} {migratedTo : CanonicalContractInfo}
    {f : List CanonicalContractInfo → List CanonicalContractInfo}
    (hf : ∀ st reg, cw.registry st = some reg →
      ∃ st', cw.updateMigratedSubscriber raw migratedTo st = (.ok (), st') ∧
        cw.registry st' = some { entries := f reg.entries, slots := reg.slots })
    {l l' : List CanonicalContractInfo} (h : cw.Updated raw migratedTo l l') : l' = f l := by
  obtain ⟨st, st', slots, hreg, hup, hreg'⟩ := h
  obtain ⟨st₂, hok, hreg₂⟩ := hf _ _ hreg
  rw [hok] at hup
  cases hup
  cases hreg'.symm.trans hreg₂
  rfl

theorem Updated.eq_renameAll (hall : cw.RenamesAll) {raw : CanonicalAddr}
    {migratedTo : CanonicalContractInfo} {l l' : List CanonicalContractInfo}
    (h : cw.Updated raw migratedTo l l') :
    l' = renameAll CanonicalContractInfo.address raw migratedTo l :=
  h.eq_of_run fun st reg => hall st reg raw migratedTo

theorem Updated.eq_renameFirst (hfirst : cw.RenamesFirst) {raw : CanonicalAddr}
    {migratedTo : CanonicalContractInfo} {l l' : List CanonicalContractInfo}
    (h : cw.Updated raw migratedTo l l') :
    l' = renameFirst CanonicalContractInfo.address raw migratedTo l :=
  h.eq_of_run fun st reg => hfirst st reg raw migratedTo

/-- An update goes through on every registry. -/
theorem Documented.update_run {api : Api} {json : JsonText} (hcw : cw.Documented api json)
    {st : Store} {reg : Registry CanonicalContractInfo} (hreg : cw.registry st = some reg)
    (raw : CanonicalAddr) (migratedTo : CanonicalContractInfo) :
    ∃ st' l', cw.updateMigratedSubscriber raw migratedTo st = (.ok (), st') ∧
      cw.registry st' = some { entries := l', slots := reg.slots } ∧
      cw.Updated raw migratedTo reg.entries l' ∧ Store.EqOff keys st st' := by
  obtain ⟨st', l', hok, hreg', _, hoff⟩ := hcw.update _ _ raw migratedTo hreg
  exact ⟨st', l', hok, hreg', ⟨st, st', reg.slots, hreg, hok, hreg'⟩, hoff⟩

theorem subscribers_of_registry {st : Store} {reg : Registry CanonicalContractInfo}
    (h : cw.registry st = some reg) : cw.subscribers st = reg.entries := by
  unfold registry at h
  split at h
  · rename_i l n hl _
    cases h
    simp only [Item.mayLoad] at hl
    unfold subscribers
    split at hl
    · rename_i l' hl'; cases hl; rw [hl']; rfl
    · rename_i hl'; cases hl; rw [hl']; rfl
    · cases hl
  · cases h

theorem registry_congr {st st' : Store} (h : ∀ k ∈ keys, st' k = st k) :
    cw.registry st' = cw.registry st := by
  have hl := cw.migrationCompleteEventSubscribers.mayLoad_congr (h "ntifyOnMigrtd" (by simp [keys]))
  have hn := cw.remainingMigrationCompleteEventSubSlots.mayLoad_congr
    (h "ntifyMigrtdSlts" (by simp [keys]))
  simp only [registry, hl, hn]

variable (cw) in
@[simp] theorem registry_empty :
    cw.registry Store.empty = some { entries := [], slots := none } := rfl

theorem registry_save_slots (st : Store) (n : UInt8) {reg : Registry CanonicalContractInfo}
    (h : cw.registry st = some reg) :
    cw.registry (cw.remainingMigrationCompleteEventSubSlots.save n st) =
      some { entries := reg.entries, slots := some n.toNat } := by
  have hl : cw.migrationCompleteEventSubscribers.mayLoad
      (cw.remainingMigrationCompleteEventSubSlots.save n st) =
      cw.migrationCompleteEventSubscribers.mayLoad st :=
    Item.mayLoad_congr _ (Item.save_ne _ _ _ (by simp))
  unfold registry at h ⊢
  rw [hl, Item.mayLoad_of_load (Item.load_save _ n st)]
  split at h
  · rename_i l _ hl' _; cases h; rw [hl']; rfl
  · cases h

/-- A registration that goes through is an addition to the registry. -/
theorem Documented.register_ok {api : Api} {json : JsonText} (hcw : cw.Documented api json)
    {st st' : Store} {reg : Registry CanonicalContractInfo} {address codeHash : String}
    {r : Response} (hreg : cw.registry st = some reg)
    (h : cw.registerToNotifyOnMigrationComplete address codeHash st = (.ok r, st')) :
    r.messages = [] ∧ Store.EqOff keys st st' ∧ ∃ valid raw reg',
      api.addrValidate address = .ok valid ∧ api.addrCanonicalize valid = .ok raw ∧
      reg.add ⟨raw, codeHash⟩ = some reg' ∧ cw.registry st' = some reg' := by
  rw [hcw.register] at h
  simp only [Prog.bind_ok, attempt_ok, Prog.pure_ok] at h
  obtain ⟨valid, _, ⟨hv, rfl⟩, raw, _, ⟨hr, rfl⟩, u, st₁, hadd, rfl, rfl⟩ := h
  cases hadd' : reg.add ⟨raw, codeHash⟩ with
  | none =>
    obtain ⟨e, st₂, he⟩ := hcw.add_full _ _ _ _ hreg hadd'
    rw [he] at hadd; cases hadd
  | some reg' =>
    obtain ⟨st₂, hok, hreg', hoff⟩ := hcw.add _ _ _ _ _ hreg hadd'
    rw [hok] at hadd; cases hadd
    exact ⟨rfl, hoff, valid, raw, reg', hv, hr, hadd', hreg'⟩

/-- A registration of a valid address goes through if the registry has room. -/
theorem Documented.register_run {api : Api} {json : JsonText} (hcw : cw.Documented api json)
    {st : Store} {reg reg' : Registry CanonicalContractInfo} {address codeHash : String}
    {valid : Addr} {raw : CanonicalAddr} (hreg : cw.registry st = some reg)
    (hv : api.addrValidate address = .ok valid) (hr : api.addrCanonicalize valid = .ok raw)
    (hadd : reg.add ⟨raw, codeHash⟩ = some reg') :
    ∃ st', cw.registerToNotifyOnMigrationComplete address codeHash st = (.ok Response.new, st') := by
  obtain ⟨st', hok, _⟩ := hcw.add _ _ _ _ _ hreg hadd
  refine ⟨st', ?_⟩
  rw [hcw.register, Prog.bind_of_ok (attempt_ok.mpr ⟨hv, rfl⟩),
    Prog.bind_of_ok (attempt_ok.mpr ⟨hr, rfl⟩), Prog.bind_of_ok hok]
  rfl

end CwMigratable

end Snip721Migratable
