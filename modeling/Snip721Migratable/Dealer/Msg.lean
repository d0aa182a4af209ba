import Snip721Migratable.Lib.JsonCodec
import Snip721Migratable.Crates

/-!
# Dealer.Msg

The dealer's messages and how they travel. The execute message is untagged: it is written as
whichever of its three enums it holds, and `visitBytes` reads it by trying the three in turn.
-/

namespace Snip721Migratable
namespace Dealer

structure InstantiateMsg where
  snip721CodeHash : String
  snip721CodeId : Nat
  snip721Label : String
  prices : List Coin
  publicMetadata : Option Metadata
  privateMetadata : Option Metadata
  admin : Option String
  entropy : String
  royaltyInfo : Option RoyaltyInfo

inductive DealerExecuteMsg where
  | purchaseMint
  deriving DecidableEq, Repr

inductive ExecuteMsg where
  | dealer (msg : DealerExecuteMsg)
  | migrate (msg : MigratableExecuteMsg)
  | migrateListener (msg : MigrationListenerExecuteMsg)
  deriving DecidableEq, Repr

inductive QueryMsg where
  | getPrices
  | getChildSnip721
  deriving DecidableEq, Repr

inductive QueryAnswer where
  | getPrices (prices : List Coin)
  | contractInfo (info : ContractInfo)
  deriving DecidableEq, Repr

/-- The dealer's copy of the child's instantiate message. -/
structure MigratableSnip721InstantiateMsg where
  instantiate : Snip721InstantiateMsg
  maxMigrationCompleteEventSubscribers : UInt8

/-! ## Documents -/

/-- `PurchaseMint {}` has no fields; the reader ignores any it is given. -/
def dealerExecuteMsg : TaggedEnum DealerExecuteMsg where
  tags := ["purchase_mint"]
  tag := fun .purchaseMint => "purchase_mint"
  payload := fun .purchaseMint => .obj []
  read := fun
    | "purchase_mint", .obj _ => some .purchaseMint
    | _, _ => none
  tag_mem := by rintro ⟨⟩; simp
  read_payload := by rintro ⟨⟩; rfl
  tag_of_read := by
    intro t p a h
    split at h
    · rfl
    · cases h

def coinJson (c : Coin) : Json :=
  .obj [("denom", .str c.denom), ("amount", .str (toString c.amount.toNat))]

def contractInfoJson (info : ContractInfo) : Json :=
  .obj [("address", .str info.address), ("code_hash", .str info.codeHash)]

def QueryAnswer.toJson : QueryAnswer → Json
  | .getPrices prices => .obj [("get_prices", .obj [("prices", .arr (prices.map coinJson))])]
  | .contractInfo info => .obj [("contract_info", contractInfoJson info)]

def MigratableSnip721InstantiateMsg.toJson (impl : ReferenceImpl)
    (m : MigratableSnip721InstantiateMsg) : Json :=
  .obj [("instantiate", impl.instantiateMsg.toJson m.instantiate),
    ("max_migration_complete_event_subscribers",
      .num m.maxMigrationCompleteEventSubscribers.toNat)]

/-! ## Queries -/

/-- Queries have no fields either. -/
def queryMsg : TaggedEnum QueryMsg where
  tags := ["get_prices", "get_child_snip721"]
  tag
    | .getPrices => "get_prices"
    | .getChildSnip721 => "get_child_snip721"
  payload _ := .obj []
  read
    | "get_prices", .obj _ => some .getPrices
    | "get_child_snip721", .obj _ => some .getChildSnip721
    | _, _ => none
  tag_mem := by rintro ⟨⟩ <;> simp
  read_payload := by rintro ⟨⟩ <;> rfl
  tag_of_read := by
    intro t p a h
    split at h
    · cases h; rfl
    · cases h; rfl
    · cases h

def coin : JsonCodec Coin where
  toJson := coinJson
  ofJson j :=
    match (j.field? "denom").bind Json.str?,
      (j.field? "amount").bind (JsonCodec.decimal 128).ofJson with
    | some denom, some amount => some { denom, amount }
    | _, _ => none
  ofJson_toJson c := by
    have hdenom : (coinJson c).field? "denom" = some (.str c.denom) := by
      simp [coinJson, Json.field?]
    have hamount : (coinJson c).field? "amount" =
        some ((JsonCodec.decimal 128).toJson c.amount) := by
      simp [coinJson, Json.field?, JsonCodec.decimal]
    rw [hdenom, hamount, Option.bind_some, Option.bind_some, (JsonCodec.decimal 128).ofJson_toJson]
    rfl

/-- A document without a code hash is read as one with an empty code hash. -/
def contractInfo : JsonCodec ContractInfo where
  toJson := contractInfoJson
  ofJson j :=
    match (j.field? "address").bind Json.str?, JsonCodec.string.defaultField "code_hash" "" j with
    | some address, some codeHash => some { address, codeHash }
    | _, _ => none
  ofJson_toJson info := by
    rw [JsonCodec.defaultField_toJson (b := info.codeHash)
      (by simp [contractInfoJson, Json.field?, JsonCodec.string])]
    simp [contractInfoJson, Json.field?, Json.str?]

example : contractInfo.ofJson (.obj [("address", .str "child")]) = some ⟨"child", ""⟩ := by
  decide +kernel

def queryAnswer : TaggedEnum QueryAnswer where
  tags := ["get_prices", "contract_info"]
  tag
    | .getPrices _ => "get_prices"
    | .contractInfo _ => "contract_info"
  payload
    | .getPrices prices => .obj [("prices", coin.list.toJson prices)]
    | .contractInfo info => contractInfo.toJson info
  read t j :=
    if t = "get_prices" then ((j.field? "prices").bind coin.list.ofJson).map .getPrices
    else if t = "contract_info" then (contractInfo.ofJson j).map .contractInfo
    else none
  tag_mem := by rintro (_ | _) <;> simp
  read_payload := by
    rintro (prices | info)
    · simp [Json.field?, coin.list.ofJson_toJson]
    · simp [contractInfo.ofJson_toJson]
  tag_of_read := by
    intro t j a h
    split at h
    · rename_i ht
      obtain ⟨prices, _, rfl⟩ := Option.map_eq_some_iff.mp h
      exact ht.symm
    · split at h
      · rename_i ht
        obtain ⟨info, _, rfl⟩ := Option.map_eq_some_iff.mp h
        exact ht.symm
      · cases h

/-- The reader of answers reads what the queries write. -/
theorem queryAnswer_toJson (a : QueryAnswer) : queryAnswer.codec.toJson a = a.toJson := by
  cases a <;> rfl

/-! ## The untagged execute message -/

variable (X : Crates)

def ExecuteMsg.toBytes : ExecuteMsg → Binary
  | .dealer msg => X.json.toBytes dealerExecuteMsg.codec msg
  | .migrate msg => X.json.toBytes X.cw.migratableExecuteMsg.codec msg
  | .migrateListener msg => X.json.toBytes X.cw.migrationListenerExecuteMsg.codec msg

def visitBytes (v : Binary) : StdResult ExecuteMsg :=
  match X.json.fromSlice dealerExecuteMsg.codec v with
  | some dealerMsg => .ok (.dealer dealerMsg)
  | none =>
    match X.json.fromSlice X.cw.migratableExecuteMsg.codec v with
    | some migratableMsg => .ok (.migrate migratableMsg)
    | none =>
      match X.json.fromSlice X.cw.migrationListenerExecuteMsg.codec v with
      | some migrationListenerMsg => .ok (.migrateListener migrationListenerMsg)
      | none => .error (.genericErr "Unsupported Execute message")

end Dealer
end Snip721Migratable
