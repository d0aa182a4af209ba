import Snip721Migratable.Dealer.Msg

/-!
# Reference.Codecs

Documents of the types whose encodings the model leaves open, in the shape a derived serializer
gives them: a struct is an object with its fields, an absent option is `null`, an enum is an object
with the variant's tag.
-/

namespace Snip721Migratable
namespace Reference

open JsonCodec
open Dealer (coin contractInfo)

theorem notNull_string : string.NotNull := by rintro _ ⟨⟩
theorem notNull_bool : bool.NotNull := by rintro _ ⟨⟩
theorem notNull_bytes : bytes.NotNull := by rintro _ ⟨⟩
theorem notNull_record : record.NotNull := by rintro _ ⟨⟩

/-! ## Stored types -/

def canonicalContractInfo : JsonCodec CanonicalContractInfo where
  toJson c := .obj [("address", bytes.toJson c.address), ("code_hash", .str c.codeHash)]
  ofJson j :=
    match (j.field? "address").bind bytes.ofJson, (j.field? "code_hash").bind Json.str? with
    | some address, some codeHash => some { address, codeHash }
    | _, _ => none
  ofJson_toJson c := by simp [Json.field?, Json.str?, bytes.ofJson_toJson]

def metadata : JsonCodec Metadata where
  toJson m := .obj [("token_uri", string.ofOption m.tokenUri),
    ("extension", record.ofOption m.extension)]
  ofJson j :=
    match string.optField "token_uri" j, record.optField "extension" j with
    | some tokenUri, some extension => some { tokenUri, extension }
    | _, _ => none
  ofJson_toJson m := by
    rw [optField_ofOption notNull_string _ m.tokenUri (by simp [Json.field?]),
      optField_ofOption notNull_record _ m.extension (by simp [Json.field?])]

theorem notNull_metadata : metadata.NotNull := by rintro _ ⟨⟩

def purchasableMetadata : JsonCodec Dealer.PurchasableMetadata where
  toJson m := .obj [("public_metadata", metadata.ofOption m.publicMetadata),
    ("private_metadata", metadata.ofOption m.privateMetadata)]
  ofJson j :=
    match metadata.optField "public_metadata" j, metadata.optField "private_metadata" j with
    | some publicMetadata, some privateMetadata => some { publicMetadata, privateMetadata }
    | _, _ => none
  ofJson_toJson m := by
    rw [optField_ofOption notNull_metadata _ m.publicMetadata (by simp [Json.field?]),
      optField_ofOption notNull_metadata _ m.privateMetadata (by simp [Json.field?])]

def minted : JsonCodec Minted where
  toJson m := .obj [("minter", bytes.toJson m.minter), ("owner", bytes.toJson m.owner),
    ("public_metadata", metadata.ofOption m.publicMetadata),
    ("private_metadata", metadata.ofOption m.privateMetadata)]
  ofJson j :=
    match (j.field? "minter").bind bytes.ofJson, (j.field? "owner").bind bytes.ofJson,
      metadata.optField "public_metadata" j, metadata.optField "private_metadata" j with
    | some minter, some owner, some publicMetadata, some privateMetadata =>
      some { minter, owner, publicMetadata, privateMetadata }
    | _, _, _, _ => none
  ofJson_toJson m := by
    rw [optField_ofOption notNull_metadata _ m.publicMetadata (by simp [Json.field?]),
      optField_ofOption notNull_metadata _ m.privateMetadata (by simp [Json.field?])]
    simp [Json.field?, bytes.ofJson_toJson]

/-! ## Messages of the migration crate -/

def migratableExecuteMsg : TaggedEnum MigratableExecuteMsg where
  tags := ["subscribe_to_migration_complete_event", "broadcast_migration_complete_notification"]
  tag
    | .subscribeToMigrationCompleteEvent .. => "subscribe_to_migration_complete_event"
    | .broadcastMigrationCompleteNotification .. => "broadcast_migration_complete_notification"
  payload
    | .subscribeToMigrationCompleteEvent address codeHash =>
      .obj [("address", .str address), ("code_hash", .str codeHash)]
    | .broadcastMigrationCompleteNotification addresses codeHash data =>
      .obj [("addresses", string.list.toJson addresses), ("code_hash", .str codeHash),
        ("data", bytes.ofOption data)]
  read t j :=
    if t = "subscribe_to_migration_complete_event" then
      match (j.field? "address").bind Json.str?, (j.field? "code_hash").bind Json.str? with
      | some address, some codeHash => some (.subscribeToMigrationCompleteEvent address codeHash)
      | _, _ => none
    else if t = "broadcast_migration_complete_notification" then
      match (j.field? "addresses").bind string.list.ofJson,
        (j.field? "code_hash").bind Json.str?, bytes.optField "data" j with
      | some addresses, some codeHash, some data =>
        some (.broadcastMigrationCompleteNotification addresses codeHash data)
      | _, _, _ => none
    else none
  tag_mem := by rintro (_ | _) <;> simp
  read_payload := by
    rintro (_ | ⟨addresses, codeHash, data⟩)
    · simp [Json.field?, Json.str?]
    · have hd := optField_ofOption notNull_bytes "data" data
        (j := .obj [("addresses", string.list.toJson addresses), ("code_hash", .str codeHash),
          ("data", bytes.ofOption data)]) (by simp [Json.field?])
      simp only [hd]
      simp [Json.field?, Json.str?, string.list.ofJson_toJson]
  tag_of_read := by
    intro t j a h
    split at h
    · rename_i ht; split at h <;> cases h; exact ht.symm
    · split at h
      · rename_i ht; split at h <;> cases h; exact ht.symm
      · cases h

def migrationListenerExecuteMsg : TaggedEnum MigrationListenerExecuteMsg where
  tags := ["migration_complete_notification"]
  tag _ := "migration_complete_notification"
  payload
    | .migrationCompleteNotification migratedTo data =>
      .obj [("to", contractInfo.toJson migratedTo), ("data", bytes.ofOption data)]
  read t j :=
    if t = "migration_complete_notification" then
      match (j.field? "to").bind contractInfo.ofJson, bytes.optField "data" j with
      | some migratedTo, some data => some (.migrationCompleteNotification migratedTo data)
      | _, _ => none
    else none
  tag_mem := by simp
  read_payload := by
    rintro ⟨migratedTo, data⟩
    have hd := optField_ofOption notNull_bytes "data" data
      (j := .obj [("to", contractInfo.toJson migratedTo), ("data", bytes.ofOption data)])
      (by simp [Json.field?])
    simp only [hd]
    simp [Json.field?, contractInfo.ofJson_toJson]
  tag_of_read := by
    intro t j a h
    split at h
    · rename_i ht; exact ht.symm
    · cases h

/-! ## Messages of the base contract -/

def instantiateConfig : JsonCodec InstantiateConfig where
  toJson c := .obj [("public_token_supply", bool.ofOption c.publicTokenSupply),
    ("public_owner", bool.ofOption c.publicOwner),
    ("enable_sealed_metadata", bool.ofOption c.enableSealedMetadata),
    ("unwrapped_metadata_is_private", bool.ofOption c.unwrappedMetadataIsPrivate),
    ("minter_may_update_metadata", bool.ofOption c.minterMayUpdateMetadata),
    ("owner_may_update_metadata", bool.ofOption c.ownerMayUpdateMetadata),
    ("enable_burn", bool.ofOption c.enableBurn)]
  ofJson j :=
    match bool.optField "public_token_supply" j, bool.optField "public_owner" j,
      bool.optField "enable_sealed_metadata" j, bool.optField "unwrapped_metadata_is_private" j,
      bool.optField "minter_may_update_metadata" j, bool.optField "owner_may_update_metadata" j,
      bool.optField "enable_burn" j with
    | some publicTokenSupply, some publicOwner, some enableSealedMetadata,
      some unwrappedMetadataIsPrivate, some minterMayUpdateMetadata,
      some ownerMayUpdateMetadata, some enableBurn =>
      some { publicTokenSupply, publicOwner, enableSealedMetadata, unwrappedMetadataIsPrivate,
             minterMayUpdateMetadata, ownerMayUpdateMetadata, enableBurn }
    | _, _, _, _, _, _, _ => none
  ofJson_toJson c := by
    rw [optField_ofOption notNull_bool _ c.publicTokenSupply (by simp [Json.field?]),
      optField_ofOption notNull_bool _ c.publicOwner (by simp [Json.field?]),
      optField_ofOption notNull_bool _ c.enableSealedMetadata (by simp [Json.field?]),
      optField_ofOption notNull_bool _ c.unwrappedMetadataIsPrivate (by simp [Json.field?]),
      optField_ofOption notNull_bool _ c.minterMayUpdateMetadata (by simp [Json.field?]),
      optField_ofOption notNull_bool _ c.ownerMayUpdateMetadata (by simp [Json.field?]),
      optField_ofOption notNull_bool _ c.enableBurn (by simp [Json.field?])]

theorem notNull_instantiateConfig : instantiateConfig.NotNull := by rintro _ ⟨⟩

def postInstantiateCallback : JsonCodec PostInstantiateCallback where
  toJson c := .obj [("msg", bytes.toJson c.msg), ("contract_address", .str c.contractAddress),
    ("code_hash", .str c.codeHash), ("send", coin.list.toJson c.send)]
  ofJson j :=
    match (j.field? "msg").bind bytes.ofJson, (j.field? "contract_address").bind Json.str?,
      (j.field? "code_hash").bind Json.str?, (j.field? "send").bind coin.list.ofJson with
    | some msg, some contractAddress, some codeHash, some send =>
      some { msg, contractAddress, codeHash, send }
    | _, _, _, _ => none
  ofJson_toJson c := by
    simp [Json.field?, Json.str?, bytes.ofJson_toJson, coin.list.ofJson_toJson]

theorem notNull_postInstantiateCallback : postInstantiateCallback.NotNull := by rintro _ ⟨⟩

def instantiateMsg : JsonCodec Snip721InstantiateMsg where
  toJson m := .obj [("name", .str m.name), ("symbol", .str m.symbol),
    ("admin", string.ofOption m.admin), ("entropy", .str m.entropy),
    ("royalty_info", record.ofOption m.royaltyInfo),
    ("config", instantiateConfig.ofOption m.config),
    ("post_init_callback", postInstantiateCallback.ofOption m.postInitCallback),
    ("post_init_data", bytes.ofOption m.postInitData)]
  ofJson j :=
    match (j.field? "name").bind Json.str?, (j.field? "symbol").bind Json.str?,
      string.optField "admin" j, (j.field? "entropy").bind Json.str?,
      record.optField "royalty_info" j, instantiateConfig.optField "config" j,
      postInstantiateCallback.optField "post_init_callback" j,
      bytes.optField "post_init_data" j with
    | some name, some symbol, some admin, some entropy, some royaltyInfo, some config,
      some postInitCallback, some postInitData =>
      some { name, symbol, admin, entropy, royaltyInfo, config, postInitCallback, postInitData }
    | _, _, _, _, _, _, _, _ => none
  ofJson_toJson m := by
    rw [optField_ofOption notNull_string _ m.admin (by simp [Json.field?]),
      optField_ofOption notNull_record _ m.royaltyInfo (by simp [Json.field?]),
      optField_ofOption notNull_instantiateConfig _ m.config (by simp [Json.field?]),
      optField_ofOption notNull_postInstantiateCallback _ m.postInitCallback
        (by simp [Json.field?]),
      optField_ofOption notNull_bytes _ m.postInitData (by simp [Json.field?])]
    simp [Json.field?, Json.str?]

def mintNft : JsonCodec MintNft where
  toJson m := .obj [("token_id", string.ofOption m.tokenId), ("owner", string.ofOption m.owner),
    ("public_metadata", metadata.ofOption m.publicMetadata),
    ("private_metadata", metadata.ofOption m.privateMetadata),
    ("serial_number", record.ofOption m.serialNumber),
    ("royalty_info", record.ofOption m.royaltyInfo),
    ("transferable", bool.ofOption m.transferable), ("memo", string.ofOption m.memo),
    ("padding", string.ofOption m.padding)]
  ofJson j :=
    match string.optField "token_id" j, string.optField "owner" j,
      metadata.optField "public_metadata" j, metadata.optField "private_metadata" j,
      record.optField "serial_number" j, record.optField "royalty_info" j,
      bool.optField "transferable" j, string.optField "memo" j, string.optField "padding" j with
    | some tokenId, some owner, some publicMetadata, some privateMetadata, some serialNumber,
      some royaltyInfo, some transferable, some memo, some padding =>
      some { tokenId, owner, publicMetadata, privateMetadata, serialNumber, royaltyInfo,
             transferable, memo, padding }
    | _, _, _, _, _, _, _, _, _ => none
  ofJson_toJson m := by
    rw [optField_ofOption notNull_string _ m.tokenId (by simp [Json.field?]),
      optField_ofOption notNull_string _ m.owner (by simp [Json.field?]),
      optField_ofOption notNull_metadata _ m.publicMetadata (by simp [Json.field?]),
      optField_ofOption notNull_metadata _ m.privateMetadata (by simp [Json.field?]),
      optField_ofOption notNull_record _ m.serialNumber (by simp [Json.field?]),
      optField_ofOption notNull_record _ m.royaltyInfo (by simp [Json.field?]),
      optField_ofOption notNull_bool _ m.transferable (by simp [Json.field?]),
      optField_ofOption notNull_string _ m.memo (by simp [Json.field?]),
      optField_ofOption notNull_string _ m.padding (by simp [Json.field?])]

/-- The documents of the three messages that change the list of minters. -/
def minterFields (minters : List String) (padding : Option String) : Json :=
  .obj [("minters", string.list.toJson minters), ("padding", string.ofOption padding)]

def readMinters (make : List String → Option String → Snip721ExecuteMsg) (j : Json) :
    Option Snip721ExecuteMsg :=
  match (j.field? "minters").bind string.list.ofJson, string.optField "padding" j with
  | some minters, some padding => some (make minters padding)
  | _, _ => none

theorem readMinters_minterFields (make : List String → Option String → Snip721ExecuteMsg)
    (minters : List String) (padding : Option String) :
    readMinters make (minterFields minters padding) = some (make minters padding) := by
  unfold readMinters
  rw [optField_ofOption notNull_string _ padding (by simp [minterFields, Json.field?])]
  simp [minterFields, Json.field?, string.list.ofJson_toJson]

def snip721Tag : Snip721ExecuteMsg → String
  | .mintNft _ => "mint_nft"
  | .addMinters .. => "add_minters"
  | .removeMinters .. => "remove_minters"
  | .setMinters .. => "set_minters"
  | .changeAdmin .. => "change_admin"
  | .other tag _ => tag

def snip721Payload : Snip721ExecuteMsg → Json
  | .mintNft mint => mintNft.toJson mint
  | .addMinters minters padding => minterFields minters padding
  | .removeMinters minters padding => minterFields minters padding
  | .setMinters minters padding => minterFields minters padding
  | .changeAdmin address padding =>
    .obj [("address", .str address), ("padding", string.ofOption padding)]
  | .other _ fields => fields

def readSnip721 (t : String) (j : Json) : Option Snip721ExecuteMsg :=
  if h : t ∈ otherSnip721Tags then some (.other ⟨t, h⟩ j)
  else if t = "mint_nft" then (mintNft.ofJson j).map .mintNft
  else if t = "add_minters" then readMinters .addMinters j
  else if t = "remove_minters" then readMinters .removeMinters j
  else if t = "set_minters" then readMinters .setMinters j
  else if t = "change_admin" then
    match (j.field? "address").bind Json.str?, string.optField "padding" j with
    | some address, some padding => some (.changeAdmin address padding)
    | _, _ => none
  else none

theorem readSnip721_payload (m : Snip721ExecuteMsg) :
    readSnip721 (snip721Tag m) (snip721Payload m) = some m := by
  cases m with
  | mintNft mint =>
    simp [readSnip721, snip721Tag, snip721Payload, otherSnip721Tags, mintNft.ofJson_toJson]
  | addMinters minters padding =>
    simp [readSnip721, snip721Tag, snip721Payload, otherSnip721Tags, readMinters_minterFields]
  | removeMinters minters padding =>
    simp [readSnip721, snip721Tag, snip721Payload, otherSnip721Tags, readMinters_minterFields]
  | setMinters minters padding =>
    simp [readSnip721, snip721Tag, snip721Payload, otherSnip721Tags, readMinters_minterFields]
  | changeAdmin address padding =>
    have hp := optField_ofOption notNull_string "padding" padding
      (j := .obj [("address", .str address), ("padding", string.ofOption padding)])
      (by simp [Json.field?])
    simp only [readSnip721, snip721Tag, snip721Payload, hp]
    simp [otherSnip721Tags, Json.field?, Json.str?]
  | other tag fields => simp [readSnip721, snip721Tag, snip721Payload, tag.2]

theorem snip721Tag_of_readMinters {make : List String → Option String → Snip721ExecuteMsg}
    {t : String} {j : Json} {m : Snip721ExecuteMsg} (h : readMinters make j = some m)
    (ht : ∀ minters padding, snip721Tag (make minters padding) = t) : snip721Tag m = t := by
  unfold readMinters at h
  split at h
  · cases h; exact ht _ _
  · cases h

theorem snip721Tag_of_read {t : String} {j : Json} {m : Snip721ExecuteMsg}
    (h : readSnip721 t j = some m) : snip721Tag m = t := by
  unfold readSnip721 at h
  split at h
  · cases h; rfl
  · split at h
    · rename_i ht
      obtain ⟨mint, _, rfl⟩ := Option.map_eq_some_iff.mp h
      exact ht.symm
    · split at h
      · rename_i ht; subst ht; exact snip721Tag_of_readMinters h fun _ _ => rfl
      · split at h
        · rename_i ht; subst ht; exact snip721Tag_of_readMinters h fun _ _ => rfl
        · split at h
          · rename_i ht; subst ht; exact snip721Tag_of_readMinters h fun _ _ => rfl
          · split at h
            · rename_i ht; split at h <;> cases h; exact ht.symm
            · cases h

def snip721ExecuteMsg : TaggedEnum Snip721ExecuteMsg where
  tags := snip721Tags
  tag := snip721Tag
  payload := snip721Payload
  read := readSnip721
  tag_mem := by
    intro m
    cases m with
    | other tag fields => exact List.mem_append_right _ tag.2
    | _ => exact List.mem_append_left _ (by simp [snip721Tag])
  read_payload := readSnip721_payload
  tag_of_read := snip721Tag_of_read

end Reference
end Snip721Migratable
