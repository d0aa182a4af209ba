import Snip721Migratable.Crates

/-!
# Migratable.Contract

The migratable snip721: its messages, how its untagged execute message is read, and its entry
points. Everything that is not about migration goes to the base contract.
-/

namespace Snip721Migratable
namespace Migratable

structure InstantiateMsg where
  instantiate : Snip721InstantiateMsg
  maxMigrationCompleteEventSubscribers : UInt8

inductive ExecuteMsg where
  | base (msg : Snip721ExecuteMsg)
  | migrate (msg : MigratableExecuteMsg)
  | migrateListener (msg : MigrationListenerExecuteMsg)

/-- Reads the two fields by name; a number that is no `u8` is an error. -/
def InstantiateMsg.ofJson (impl : ReferenceImpl) (j : Json) : Option InstantiateMsg :=
  match (j.field? "instantiate").bind impl.instantiateMsg.ofJson,
    (j.field? "max_migration_complete_event_subscribers").bind Json.nat? with
  | some instantiate, some n =>
    if n < 256 then
      some { instantiate, maxMigrationCompleteEventSubscribers := UInt8.ofNat n }
    else none
  | _, _ => none

variable (X : Crates)

def ExecuteMsg.toBytes : ExecuteMsg → Binary
  | .base msg => X.json.toBytes X.impl.executeMsg.codec msg
  | .migrate msg => X.json.toBytes X.cw.migratableExecuteMsg.codec msg
  | .migrateListener msg => X.json.toBytes X.cw.migrationListenerExecuteMsg.codec msg

def visitBytes (v : Binary) : StdResult ExecuteMsg :=
  match X.json.fromSlice X.impl.executeMsg.codec v with
  | some baseMsg => .ok (.base baseMsg)
  | none =>
    match X.json.fromSlice X.cw.migratableExecuteMsg.codec v with
    | some migratableMsg => .ok (.migrate migratableMsg)
    | none =>
      match X.json.fromSlice X.cw.migrationListenerExecuteMsg.codec v with
      | some migrationListenerMsg => .ok (.migrateListener migrationListenerMsg)
      | none => .error (.genericErr "Unsupported Execute message")

def instantiate (env : Env) (info : MessageInfo) (msg : InstantiateMsg) : ContractM Response := do
  save X.cw.remainingMigrationCompleteEventSubSlots msg.maxMigrationCompleteEventSubscribers
  X.impl.instantiate env info msg.instantiate

def updateMigratedDependency (info : MessageInfo) (migratedTo : ContractInfo) :
    ContractM Response := do
  let fromRaw ← attempt (X.api.addrCanonicalize info.sender)
  let migratedToRaw ← attempt (X.cw.canonicalize migratedTo)
  -- update any matching subscribers
  X.cw.updateMigratedSubscriber fromRaw migratedToRaw
  pure Response.new

def execute (env : Env) (info : MessageInfo) : ExecuteMsg → ContractM Response
  | .base baseMsg => X.impl.execute env info baseMsg
  | .migrate (.subscribeToMigrationCompleteEvent address codeHash) =>
    X.cw.registerToNotifyOnMigrationComplete address codeHash
  | .migrate _ => failWith "Unsupported Migrate message"
  | .migrateListener (.migrationCompleteNotification migratedTo _) =>
    updateMigratedDependency X info migratedTo

def migrate (env : Env) : ContractM Response := notifySubscribers X env

end Migratable
end Snip721Migratable
