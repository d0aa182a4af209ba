import Snip721Migratable.Reference.Sale
import Snip721Migratable.System.Deployment

/-!
# Reference.Chain

A dealer and its child over the reference crates, with three outsiders: the seller, a buyer, and a
contract called tracker, which is the chain-level admin of the dealer.
-/

namespace Snip721Migratable
namespace Reference
namespace Chain

def parties : Parties crates where
  dealer := "dealer"
  child := "child"
  dealerRaw := Json.stringBytes "dealer"
  childRaw := Json.stringBytes "child"
  dealer_canonicalize := canonicalize_ok (by decide)
  dealer_humanize := humanize_ok (by decide)
  child_validate := validate_ok (by decide)
  child_canonicalize := canonicalize_ok (by decide)
  child_humanize := humanize_ok (by decide)
  distinct := by decide +kernel

def outsider (addr : Addr) (h : 3 ≤ (Json.stringBytes addr).length)
    (hd : Json.stringBytes addr ≠ Json.stringBytes "dealer")
    (hc : Json.stringBytes addr ≠ Json.stringBytes "child") : Outsider parties where
  addr := addr
  raw := Json.stringBytes addr
  canonicalize := canonicalize_ok h
  humanize := humanize_ok h
  ne_dealer := hd
  ne_child := hc

def seller : Outsider parties :=
  outsider "seller" (by decide) (by decide +kernel) (by decide +kernel)

def buyer : Outsider parties :=
  outsider "buyer" (by decide) (by decide +kernel) (by decide +kernel)

def tracker : Outsider parties :=
  outsider "tracker" (by decide) (by decide +kernel) (by decide +kernel)

/-- A receiver that accepts everything and does nothing. -/
def silent : Reaction parties where
  block := Sale.env.block
  transaction := none
  accepts _ := true
  sends := []

def deployment : Deployment parties where
  block := Sale.env.block
  transaction := none
  dealerHash := "dealer_v1"
  dealerAdmin := some "tracker"
  info := Sale.seller
  msg := Sale.msg [Sale.price]
  events := [⟨"instantiate", [⟨"code_id", "7"⟩, ⟨"contract_address", "child"⟩]⟩]
  data := none
  reports := rfl
  childReactions := []
  replyReactions := [silent, silent]

theorem deploy_isSome : deployment.deploy.isSome := by decide +kernel

/-- The two contracts after the deployment. -/
def world : World := deployment.deploy.get deploy_isSome

theorem deploy_eq : deployment.deploy = some world := (Option.some_get deploy_isSome).symm

/-! ## Messages of outsiders -/

def executeDealer (codeHash : String) (msg : Dealer.ExecuteMsg) (funds : List Coin) : CosmosMsg :=
  .wasm (.execute "dealer" codeHash (msg.toBytes crates) funds)

def subscribe (dealerHash address codeHash : String) : CosmosMsg :=
  executeDealer dealerHash (.migrate (.subscribeToMigrationCompleteEvent address codeHash)) []

def purchase (dealerHash : String) (funds : List Coin) : CosmosMsg :=
  executeDealer dealerHash (.dealer .purchaseMint) funds

/-- The bytes of `{}`. -/
def emptyMsg : Binary := crates.json.toBytes Empty.codec {}

theorem emptyMsg_read : crates.json.fromSlice Empty.codec emptyMsg = some {} :=
  crates.json.fromSlice_toBytes Empty.codec {}

def migrate (contractAddr codeHash : String) : CosmosMsg :=
  .wasm (.migrate contractAddr 7 codeHash emptyMsg)

end Chain
end Reference
end Snip721Migratable
