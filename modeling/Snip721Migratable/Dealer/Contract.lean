import Snip721Migratable.Dealer.Msg

/-!
# Dealer.Contract

The entry points of the dealer: `instantiate`, `execute`, `reply`, `query` and `migrate`.
-/

namespace Snip721Migratable
namespace Dealer

variable (X : Crates)

def instantiateSnip721ReplyId : Nat := 1

/-- The child is instantiated with the dealer as its admin, which makes the dealer one of its
minters; `reply` then hands the admin rights to the true admin. -/
def childInstantiateMsg (env : Env) (msg : InstantiateMsg) : MigratableSnip721InstantiateMsg where
  instantiate :=
    { name := "PurchasableSnip721"
      symbol := "PUR721"
      admin := some env.contract.address
      entropy := msg.entropy
      royaltyInfo := msg.royaltyInfo
      config := some
        { publicTokenSupply := some true
          publicOwner := some true
          enableSealedMetadata := none
          unwrappedMetadataIsPrivate := none
          minterMayUpdateMetadata := none
          ownerMayUpdateMetadata := none
          enableBurn := some false }
      postInitCallback := none
      postInitData := none }
  maxMigrationCompleteEventSubscribers := 1

/-- The admin an instantiate message names, or its sender. -/
def trueAdmin (info : MessageInfo) (msg : InstantiateMsg) : StdResult Addr :=
  match msg.admin with
  | some admin => X.api.addrValidate admin
  | none => .ok info.sender

def instantiate (env : Env) (info : MessageInfo) (msg : InstantiateMsg) : ContractM Response :=
  if msg.prices.isEmpty then
    failWith "No purchase prices were specified"
  else do
    let admin ← attempt (trueAdmin X info msg)
    let rawAdmin ← attempt (X.api.addrCanonicalize admin)
    save X.items.admin rawAdmin
    save X.items.purchasePrices msg.prices
    save X.items.childSnip721CodeHash msg.snip721CodeHash
    save X.items.purchasableMetadata
      { publicMetadata := msg.publicMetadata, privateMetadata := msg.privateMetadata }
    let instantiateWasmMsg : WasmMsg :=
      .instantiate (some admin) msg.snip721CodeId msg.snip721CodeHash
        (X.json.render ((childInstantiateMsg env msg).toJson X.impl)) [] msg.snip721Label
    pure (Response.new.addSubmessages
      [SubMsg.replyOnSuccess (.wasm instantiateWasmMsg) instantiateSnip721ReplyId])

def updateChildSnip721 (info : MessageInfo) (migratedTo : ContractInfo) : ContractM Response := do
  let currentChildSnip721Address ← load X.items.childSnip721Address
  let rawSender ← attempt (X.api.addrCanonicalize info.sender)
  if rawSender ≠ currentChildSnip721Address then
    failWith "Only the migrated child snip721 is allowed to trigger an update"
  else do
    let rawMigratedTo ← attempt (X.cw.canonicalize migratedTo)
    save X.items.childSnip721Address rawMigratedTo.address
    save X.items.childSnip721CodeHash rawMigratedTo.codeHash
    X.cw.updateMigratedSubscriber rawSender rawMigratedTo
    pure Response.new

/-- The message that mints a token for `owner`. -/
def mintNftMsg (owner : Addr) (m : PurchasableMetadata) : Snip721ExecuteMsg :=
  .mintNft
    { tokenId := none
      owner := some owner
      publicMetadata := m.publicMetadata
      privateMetadata := m.privateMetadata
      serialNumber := none
      royaltyInfo := none
      transferable := none
      memo := none
      padding := none }

/-- The checks of a purchase: one coin, of a denom with a price, in the amount of the first price
of that denom. -/
def checkFunds (prices : List Coin) (msgFund : Coin) : StdResult Unit :=
  match prices.find? (fun c => c.denom = msgFund.denom) with
  | some selectedCoinPrice =>
    if msgFund.amount ≠ selectedCoinPrice.amount then
      .error (.genericErr ("Purchase price in " ++ selectedCoinPrice.denom ++ " is " ++
        toString selectedCoinPrice.amount.toNat ++ ", but " ++ msgFund.display ++ " was sent"))
    else .ok ()
  | none => .error (.genericErr ("Purchasing in denom:" ++ msgFund.denom ++ " is not allowed"))

def purchaseAndMint (info : MessageInfo) : ContractM Response :=
  match info.funds with
  | [msgFund] => do
    let prices ← load X.items.purchasePrices
    attempt (checkFunds prices msgFund)
    let rawAdmin ← load X.items.admin
    let adminAddr ← attempt (X.api.addrHumanize rawAdmin)
    let sendFundsBankMsg : CosmosMsg := .bank (.send adminAddr info.funds)
    let purchasableMetadata ← load X.items.purchasableMetadata
    let childSnip721CodeHash ← load X.items.childSnip721CodeHash
    let childSnip721Address ← load X.items.childSnip721Address
    let contractAddr ← attempt (X.api.addrHumanize childSnip721Address)
    let mintWasmMsg : CosmosMsg :=
      .wasm (.execute contractAddr childSnip721CodeHash
        (X.json.toBytes X.impl.executeMsg.codec (mintNftMsg info.sender purchasableMetadata)) [])
    pure (Response.new.addSubmessages [SubMsg.new sendFundsBankMsg, SubMsg.new mintWasmMsg])
  | funds =>
    failWith ("Purchase requires one coin denom to be sent with transaction, " ++
      toString funds.length ++ " were sent.")

def execute (_env : Env) (info : MessageInfo) : ExecuteMsg → ContractM Response
  | .dealer .purchaseMint => purchaseAndMint X info
  | .migrate (.subscribeToMigrationCompleteEvent address codeHash) =>
    X.cw.registerToNotifyOnMigrationComplete address codeHash
  | .migrate _ => failWith "Unsupported Migrate message"
  | .migrateListener (.migrationCompleteNotification migratedTo _) =>
    updateChildSnip721 X info migratedTo

/-- The address the chain reports for the instantiated child. -/
def instantiatedAddress (events : List Event) : Option String :=
  match events.find? (fun e => e.ty = "instantiate") with
  | some e =>
    match e.attributes.find? (fun a => a.key = "contract_address") with
    | some a => some a.value
    | none => none
  | none => none

def onInstantiatedSnip721Reply (env : Env) (reply : Reply) : ContractM Response :=
  match reply.result with
  | .err _ => Prog.fail (.panic "called `Result::unwrap()` on an `Err` value")
  | .ok result =>
    match instantiatedAddress result.events with
    | none => Prog.fail (.panic "called `Option::unwrap()` on a `None` value")
    | some contractAddress => do
      let childSnip721Address ← attempt (X.api.addrValidate contractAddress)
      let rawChildSnip721Address ← attempt (X.api.addrCanonicalize childSnip721Address)
      save X.items.childSnip721Address rawChildSnip721Address
      let childSnip721CodeHash ← load X.items.childSnip721CodeHash
      let rawAdmin ← load X.items.admin
      let admin ← attempt (X.api.addrHumanize rawAdmin)
      X.cw.addMigrationCompleteEventSubscriber rawChildSnip721Address childSnip721CodeHash
      let subscribeMsg : WasmMsg :=
        .execute childSnip721Address childSnip721CodeHash
          (X.json.toBytes X.cw.migratableExecuteMsg.codec
            (.subscribeToMigrationCompleteEvent env.contract.address env.contract.codeHash)) []
      let changeAdminToTrueAdminMsg : WasmMsg :=
        .execute childSnip721Address childSnip721CodeHash
          (X.json.toBytes X.impl.executeMsg.codec (.changeAdmin admin none)) []
      pure (Response.new.addSubmessages
        [SubMsg.new (.wasm subscribeMsg), SubMsg.new (.wasm changeAdminToTrueAdminMsg)])

def reply (env : Env) (msg : Reply) : ContractM Response :=
  if msg.id = instantiateSnip721ReplyId then onInstantiatedSnip721Reply X env msg
  else failWith ("Unknown reply id: " ++ toString msg.id)

def migrate (env : Env) : ContractM Response := notifySubscribers X env

/-! ## Queries -/

def queryChildSnip721 (deps : Store) : StdResult Binary :=
  match loadItem X.items.childSnip721Address deps with
  | .error e => .error e
  | .ok raw =>
    match X.api.addrHumanize raw with
    | .error e => .error e
    | .ok address =>
      match loadItem X.items.childSnip721CodeHash deps with
      | .error e => .error e
      | .ok codeHash =>
        .ok (X.json.render (QueryAnswer.contractInfo { address, codeHash }).toJson)

def queryPrices (deps : Store) : StdResult Binary :=
  match loadItem X.items.purchasePrices deps with
  | .error e => .error e
  | .ok prices => .ok (X.json.render (QueryAnswer.getPrices prices).toJson)

def query (deps : Store) : QueryMsg → StdResult Binary
  | .getPrices => queryPrices X deps
  | .getChildSnip721 => queryChildSnip721 X deps

end Dealer
end Snip721Migratable
