import Snip721Migratable.System.World

/-!
# System.Deployment

The transaction that creates a dealer and its child: the dealer's `instantiate`, the child's
`instantiate` from the document that the dealer built, the dealer's `reply`, and the two messages
of the reply.
-/

namespace Snip721Migratable

/-- What the sender and the chain bring to the transaction. The chain reports the address that it
gave to the child. -/
structure Deployment {X : Crates} (P : Parties X) where
  block : BlockInfo
  transaction : Option TransactionInfo
  dealerHash : String
  dealerAdmin : Option Addr
  info : MessageInfo
  msg : Dealer.InstantiateMsg
  events : List Event
  data : Option Binary
  reports : Dealer.instantiatedAddress events = some P.child
  childReactions : List (Reaction P)
  replyReactions : List (Reaction P)

namespace Deployment

variable {X : Crates} {P : Parties X} (d : Deployment P)

def env (contract : ContractInfo) : Env where
  block := d.block
  transaction := d.transaction
  contract := contract

def dealerEnv : Env := d.env ⟨P.dealer, d.dealerHash⟩

/-- The reply the chain gives the dealer when the child was instantiated. -/
def childReply (id : Nat) : Reply where
  id := id
  result := .ok { events := d.events, data := d.data }

/-- The child's `instantiate`, with the dealer as sender. -/
def instantiateChild (codeHash : String) (b : Binary) (funds : List Coin) :
    Option (Response × Store) :=
  match (X.json.parse b).bind (Migratable.InstantiateMsg.ofJson X.impl) with
  | none => none
  | some msg =>
    match Migratable.instantiate X (d.env ⟨P.child, codeHash⟩) { sender := P.dealer, funds } msg
        Store.empty with
    | (.error _, _) => none
    | (.ok r, st) => some (r, st)

/-- The dealer's `reply`, and the delivery of its messages. -/
def replyDealer (w : World) (id : Nat) : Option World :=
  match Dealer.reply X d.dealerEnv (d.childReply id) w.dealer with
  | (.error _, _) => none
  | (.ok r, st) => (machine X P).transact { w with dealer := st } (mailFrom .dealer r) d.replyReactions

def deploy : Option World :=
  match Dealer.instantiate X d.dealerEnv d.info d.msg Store.empty with
  | (.error _, _) => none
  | (.ok r, st) =>
    match r.messages with
    | [⟨id, .wasm (.instantiate admin _ codeHash b funds _), _, .success⟩] =>
      match d.instantiateChild codeHash b funds with
      | none => none
      | some (rc, child) =>
        let w : World :=
          { dealer := st, dealerHash := d.dealerHash, dealerAdmin := d.dealerAdmin, child,
            childHash := codeHash, childAdmin := admin, log := [] }
        match (machine X P).transact w (mailFrom .child rc) d.childReactions with
        | none => none
        | some w => d.replyDealer w id
    | _ => none

end Deployment

end Snip721Migratable
