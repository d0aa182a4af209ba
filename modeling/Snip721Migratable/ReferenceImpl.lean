import Snip721Migratable.CwMigratable

/-!
# ReferenceImpl

The crate `snip721_reference_impl`, the base contract of the migratable snip721. Its code is not
part of the repository: `ReferenceImpl` is its entry points and the encodings of its messages, with
two views of its storage (the admin, the minters) and the tokens that each message mints, and
`ReferenceImpl.Documented` is what the contracts rely on.

Of the execute messages the variants that mint or hand over rights are spelled out; the others are
kept as their tag with the document of their fields.
-/

namespace Snip721Migratable

/-- Records of the crate that nothing here looks into, as the fields they are sent with. -/
abbrev Extension := List (String × Json)
abbrev RoyaltyInfo := List (String × Json)
abbrev SerialNumber := List (String × Json)

structure Metadata where
  tokenUri : Option String
  extension : Option Extension

structure PostInstantiateCallback where
  msg : Binary
  contractAddress : String
  codeHash : String
  send : List Coin

structure InstantiateConfig where
  publicTokenSupply : Option Bool
  publicOwner : Option Bool
  enableSealedMetadata : Option Bool
  unwrappedMetadataIsPrivate : Option Bool
  minterMayUpdateMetadata : Option Bool
  ownerMayUpdateMetadata : Option Bool
  enableBurn : Option Bool

structure Snip721InstantiateMsg where
  name : String
  symbol : String
  admin : Option String
  entropy : String
  royaltyInfo : Option RoyaltyInfo
  config : Option InstantiateConfig
  postInitCallback : Option PostInstantiateCallback
  postInitData : Option Binary

/-- The tags of the execute messages that neither contract names. -/
def otherSnip721Tags : List String :=
  ["batch_mint_nft", "mint_nft_clones", "set_metadata", "set_royalty_info", "reveal",
    "make_ownership_private", "set_global_approval", "set_whitelisted_approval", "approve",
    "revoke", "approve_all", "revoke_all", "transfer_nft", "batch_transfer_nft", "send_nft",
    "batch_send_nft", "burn_nft", "batch_burn_nft", "register_receive_nft",
    "create_viewing_key", "set_viewing_key", "set_contract_status", "revoke_permit"]

/-- The tags of all execute messages. -/
def snip721Tags : List String :=
  ["mint_nft", "add_minters", "remove_minters", "set_minters", "change_admin"] ++
    otherSnip721Tags

structure MintNft where
  tokenId : Option String
  owner : Option String
  publicMetadata : Option Metadata
  privateMetadata : Option Metadata
  serialNumber : Option SerialNumber
  royaltyInfo : Option RoyaltyInfo
  transferable : Option Bool
  memo : Option String
  padding : Option String

inductive Snip721ExecuteMsg where
  | mintNft (mint : MintNft)
  | addMinters (minters : List String) (padding : Option String)
  | removeMinters (minters : List String) (padding : Option String)
  | setMinters (minters : List String) (padding : Option String)
  | changeAdmin (address : String) (padding : Option String)
  | other (tag : { t : String // t ∈ otherSnip721Tags }) (fields : Json)

/-- The messages that change who may mint, or who may say so. -/
def Snip721ExecuteMsg.SetsRights : Snip721ExecuteMsg → Prop
  | .addMinters .. => True
  | .removeMinters .. => True
  | .setMinters .. => True
  | .changeAdmin .. => True
  | _ => False

/-- One minted token: who minted it, for whom, with which metadata. -/
structure Minted where
  minter : CanonicalAddr
  owner : CanonicalAddr
  publicMetadata : Option Metadata
  privateMetadata : Option Metadata

structure ReferenceImpl where
  executeMsg : TaggedEnum Snip721ExecuteMsg
  instantiateMsg : JsonCodec Snip721InstantiateMsg
  instantiate : Env → MessageInfo → Snip721InstantiateMsg → ContractM Response
  execute : Env → MessageInfo → Snip721ExecuteMsg → ContractM Response
  admin : Store → Option CanonicalAddr
  minters : Store → List CanonicalAddr
  /-- The tokens that an accepted message mints. -/
  mints : Env → MessageInfo → Snip721ExecuteMsg → Store → List Minted

/-- The messages the base contract sends to token receivers. -/
def receiverTags : List String := ["receive_nft", "batch_receive_nft"]

namespace ReferenceImpl

/-- What the contracts rely on. The base contract stays off the storage keys of the migration
crate, and what it stores is not under them. -/
structure Documented (api : Api) (json : JsonText) (impl : ReferenceImpl) : Prop where
  instantiate_frame : ∀ {env info msg st st' r}, impl.instantiate env info msg st = (.ok r, st') →
    ∀ k ∈ CwMigratable.keys, st' k = st k
  execute_frame : ∀ {env info msg st st' r}, impl.execute env info msg st = (.ok r, st') →
    ∀ k ∈ CwMigratable.keys, st' k = st k
  own_state : ∀ {st st'}, Store.EqOff CwMigratable.keys st st' →
    impl.admin st' = impl.admin st ∧ impl.minters st' = impl.minters st
  /-- The admin argument becomes the admin and a minter. -/
  instantiate_admin : ∀ {env info msg st st' r a}, msg.admin = some a →
    impl.instantiate env info msg st = (.ok r, st') →
    ∃ raw, api.addrCanonicalize a = .ok raw ∧ impl.admin st' = some raw ∧ raw ∈ impl.minters st'
  instantiate_quiet : ∀ {env info msg st st' r}, msg.postInitCallback = none →
    impl.instantiate env info msg st = (.ok r, st') → r.messages = []
  changeAdmin : ∀ {env info address padding st st' r},
    impl.execute env info (.changeAdmin address padding) st = (.ok r, st') →
    r.messages = [] ∧ impl.mints env info (.changeAdmin address padding) st = [] ∧
      ∃ raw, api.addrCanonicalize address = .ok raw ∧ impl.admin st' = some raw ∧
        impl.minters st' = impl.minters st
  mintNft : ∀ {env info mint o st st' r}, mint.owner = some o →
    impl.execute env info (.mintNft mint) st = (.ok r, st') →
    ∃ minter owner, api.addrCanonicalize info.sender = .ok minter ∧
      api.addrCanonicalize o = .ok owner ∧
      impl.mints env info (.mintNft mint) st =
        [⟨minter, owner, mint.publicMetadata, mint.privateMetadata⟩]
  /-- Whatever a message mints, its sender minted. -/
  mints_by_sender : ∀ {env info msg st st' r}, impl.execute env info msg st = (.ok r, st') →
    ∀ m ∈ impl.mints env info msg st, api.addrCanonicalize info.sender = .ok m.minter
  /-- The base contract calls token receivers, and nothing else. -/
  callbacks : ∀ {env info msg st st' r}, impl.execute env info msg st = (.ok r, st') →
    ∀ sm ∈ r.messages, sm.replyOn = .never ∧ ∃ addr hash b funds t,
      sm.msg = .wasm (.execute addr hash b funds) ∧ json.tagOf b = some t ∧ t ∈ receiverTags

/-- How the base contract guards minting: its minters mint, and its admin names them. -/
structure Guarded (api : Api) (impl : ReferenceImpl) : Prop where
  /-- The admin argument becomes the only minter. -/
  instantiate : ∀ {env info msg st st' r a}, msg.admin = some a →
    impl.instantiate env info msg st = (.ok r, st') →
    ∃ raw, api.addrCanonicalize a = .ok raw ∧ impl.minters st' = [raw]
  rights : ∀ {env info msg st st' r}, impl.execute env info msg st = (.ok r, st') →
    (impl.minters st' = impl.minters st ∧ impl.admin st' = impl.admin st) ∨
    (msg.SetsRights ∧ ∃ sender, api.addrCanonicalize info.sender = .ok sender ∧
      impl.admin st = some sender)
  mints : ∀ {env info msg st st' r}, impl.execute env info msg st = (.ok r, st') →
    ∀ t ∈ impl.mints env info msg st, t.minter ∈ impl.minters st

end ReferenceImpl

end Snip721Migratable
