import Snip721Migratable.Lib.JsonBytes
import Snip721Migratable.Reference.Codecs
import Snip721Migratable.Crates

/-!
# Reference.Crates

One choice of the linked crates (`Reference.crates`) with a proof that it behaves as documented, so
that what is proved about the contracts under that documentation is about something.

* `api` : addresses are strings of at least three bytes, their canonical form is their UTF-8 text.
* `cw` : the migration crate. Its update stops at the first entry of the sender (`renamesFirst`).
* `cwWith` : the same with another update; `eager` has one that reaches every entry (`renamesAll`).
* `impl` : as much of the base contract as minting and its rights need.
-/

namespace Snip721Migratable
namespace Reference

open Registry

/-! ## Addresses -/

def checkLength (bs : Bytes) : StdResult Unit :=
  if bs.length < 3 then
    .error (.genericErr "Invalid input: human address too short (must be >= 3).")
  else .ok ()

def addrCanonicalize (s : String) : StdResult CanonicalAddr :=
  (checkLength (Json.stringBytes s)).map fun _ => Json.stringBytes s

def addrHumanize (raw : CanonicalAddr) : StdResult Addr :=
  match checkLength raw, Json.ofStringBytes raw with
  | .ok _, some s => .ok s
  | .ok _, none => .error (.genericErr "Invalid canonical address")
  | .error e, _ => .error e

def api : Api where
  addrValidate s := (checkLength (Json.stringBytes s)).map fun _ => s
  addrCanonicalize := addrCanonicalize
  addrHumanize := addrHumanize

theorem stringBytes_of_ofStringBytes {raw : Bytes} {s : String}
    (h : Json.ofStringBytes raw = some s) : Json.stringBytes s = raw := by
  simp only [Json.ofStringBytes, String.fromUTF8?] at h
  split at h
  · cases h; simp [Json.stringBytes, String.fromUTF8]
  · cases h

theorem addrHumanize_stringBytes {s : String} (h : checkLength (Json.stringBytes s) = .ok ()) :
    addrHumanize (Json.stringBytes s) = .ok s := by
  simp [addrHumanize, h, Json.ofStringBytes_stringBytes]

section LongEnough

variable {s : String} (h : 3 ≤ (Json.stringBytes s).length)

include h

theorem checkLength_ok : checkLength (Json.stringBytes s) = .ok () := if_neg (by omega)

theorem validate_ok : api.addrValidate s = .ok s := by
  simp only [api, checkLength_ok h]; rfl

theorem canonicalize_ok : api.addrCanonicalize s = .ok (Json.stringBytes s) := by
  simp only [api, addrCanonicalize, checkLength_ok h]; rfl

theorem humanize_ok : api.addrHumanize (Json.stringBytes s) = .ok s :=
  addrHumanize_stringBytes (checkLength_ok h)

end LongEnough

theorem api_documented : api.Documented where
  validate := by
    intro s a h
    cases hl : checkLength (Json.stringBytes s) with
    | error e => simp [api, hl, Except.map] at h
    | ok u =>
      simp only [api, hl, Except.map, Except.ok.injEq] at h
      exact ⟨h.symm, _, by simp [api, addrCanonicalize, hl, Except.map],
        addrHumanize_stringBytes hl⟩
  humanize := by
    intro raw a h
    simp only [api, addrHumanize] at h
    split at h
    · rename_i u s hl hs
      cases h
      simp [api, addrCanonicalize, stringBytes_of_ofStringBytes hs, hl, Except.map]
    · cases h
    · cases h

/-! ## The migration crate -/

section Cw

def subscribers : Item (List CanonicalContractInfo) where
  key := "ntifyOnMigrtd"
  typeName := "alloc::vec::Vec<cw_migratable_contract_std::state::CanonicalContractInfo>"
  codec := jsonBytes.codec canonicalContractInfo.list

def slots : Item UInt8 where
  key := "ntifyMigrtdSlts"
  typeName := "u8"
  codec := jsonBytes.codec JsonCodec.byte

def mayLoad {α : Type} (i : Item α) : ContractM (Option α) :=
  Prog.reads fun st => match i.mayLoad st with
    | .ok a => .ok a
    | .error _ => .error (.std (.parseErr i.typeName))

def takeSlot : Option UInt8 → ContractM Unit
  | none => pure ()
  | some n =>
    if n = 0 then failWith "No migration complete notification slots available"
    else save slots (n - 1)

def addMigrationCompleteEventSubscriber (address : CanonicalAddr) (codeHash : String) :
    ContractM Unit := do
  let remaining ← mayLoad slots
  takeSlot remaining
  let stored ← mayLoad subscribers
  save subscribers (insertNew ⟨address, codeHash⟩ (stored.getD []))

section Rename

-- what an update makes of the list of subscribers
variable (rename : CanonicalAddr → CanonicalContractInfo → List CanonicalContractInfo →
  List CanonicalContractInfo)

def updateMigratedSubscriber (address : CanonicalAddr) (migratedTo : CanonicalContractInfo) :
    ContractM Unit := do
  let stored ← mayLoad subscribers
  save subscribers (rename address migratedTo (stored.getD []))

def cwWith : CwMigratable where
  subscribersCodec := jsonBytes.codec canonicalContractInfo.list
  slotsCodec := jsonBytes.codec JsonCodec.byte
  migratableExecuteMsg := migratableExecuteMsg
  migrationListenerExecuteMsg := migrationListenerExecuteMsg
  canonicalize info := (addrCanonicalize info.address).map fun raw => ⟨raw, info.codeHash⟩
  intoHumanized c := (addrHumanize c.address).map fun a => ⟨a, c.codeHash⟩
  addMigrationCompleteEventSubscriber := addMigrationCompleteEventSubscriber
  registerToNotifyOnMigrationComplete address codeHash := do
    let valid ← attempt (api.addrValidate address)
    let raw ← attempt (addrCanonicalize valid)
    addMigrationCompleteEventSubscriber raw codeHash
    pure Response.new
  updateMigratedSubscriber := updateMigratedSubscriber rename
  createBroadcastMigrationCompleteNotificationMsgs _ replyOn id migratedTo cs data :=
    .ok (cs.map fun c =>
      { id, replyOn, gasLimit := none,
        msg := .wasm (.execute c.address c.codeHash
          (jsonBytes.toBytes migrationListenerExecuteMsg.codec
            (.migrationCompleteNotification migratedTo data)) []) })

end Rename

def cw : CwMigratable := cwWith (renameFirst CanonicalContractInfo.address)

variable {rename : CanonicalAddr → CanonicalContractInfo → List CanonicalContractInfo →
  List CanonicalContractInfo}

theorem registry_cw (st : Store) {reg : Registry CanonicalContractInfo} :
    (cwWith rename).registry st = some reg ↔ ∃ l n, subscribers.mayLoad st = .ok l ∧
      slots.mayLoad st = .ok n ∧ reg = { entries := l.getD [], slots := n.map UInt8.toNat } := by
  have hl : (cwWith rename).migrationCompleteEventSubscribers = subscribers := rfl
  have hn : (cwWith rename).remainingMigrationCompleteEventSubSlots = slots := rfl
  rw [CwMigratable.registry, hl, hn]
  cases subscribers.mayLoad st <;> cases slots.mayLoad st <;> simp [eq_comm]

theorem mayLoad_run {α : Type} {i : Item α} {st : Store} {a : Option α}
    (h : i.mayLoad st = .ok a) : mayLoad i st = (.ok a, st) := by
  simp [mayLoad, Prog.reads, h]

theorem mayLoad_save_ne {α β : Type} (i : Item α) (j : Item β) (b : β) (st : Store)
    (h : i.key ≠ j.key) : i.mayLoad (j.save b st) = i.mayLoad st :=
  i.mayLoad_congr (j.save_ne b st h)

theorem save_keys_eqOff {α : Type} (i : Item α) (a : α) (st : Store)
    (h : i.key ∈ CwMigratable.keys) : Store.EqOff CwMigratable.keys st (i.save a st) :=
  (i.save_eqOff a st).mono fun _ hk => by rwa [List.mem_singleton.mp hk]

theorem takeSlot_ok {st : Store} {l : Option (List CanonicalContractInfo)} {n : Option UInt8}
    (hl : subscribers.mayLoad st = .ok l) (hn : slots.mayLoad st = .ok n) :
    (n = some 0 ∧ ∃ e st', takeSlot n st = (.error e, st')) ∨
    (n ≠ some 0 ∧ ∃ st', takeSlot n st = (.ok (), st') ∧ subscribers.mayLoad st' = .ok l ∧
      slots.mayLoad st' = .ok (n.map (· - 1)) ∧ Store.EqOff CwMigratable.keys st st') := by
  cases n with
  | none => exact .inr ⟨by simp, st, rfl, hl, hn, .refl _ _⟩
  | some m =>
    by_cases hm : m = 0
    · subst hm
      exact .inl ⟨rfl, _, _, rfl⟩
    · refine .inr ⟨by simpa using hm, slots.save (m - 1) st, ?_, ?_, ?_, ?_⟩
      · simp only [takeSlot, if_neg hm]; rfl
      · rw [mayLoad_save_ne _ _ _ _ (by decide)]; exact hl
      · exact Item.mayLoad_of_load (Item.load_save _ _ _)
      · exact save_keys_eqOff _ _ _ (by decide)

theorem UInt8.toNat_sub_one {m : UInt8} (h : m ≠ 0) : (m - 1).toNat + 1 = m.toNat := by
  have h0 : m.toNat ≠ 0 := fun h0 => h (UInt8.toNat_inj.mp h0)
  rw [UInt8.toNat_sub_of_le _ _ (by rw [UInt8.le_iff_toNat_le]; simp; omega)]
  simp; omega

theorem saveSubscribers {st : Store} (n : Option UInt8) (l' : List CanonicalContractInfo)
    (hn : slots.mayLoad st = .ok n) :
    (cwWith rename).registry (subscribers.save l' st) =
      some { entries := l', slots := n.map UInt8.toNat } := by
  rw [registry_cw]
  refine ⟨some l', n, Item.mayLoad_of_load (Item.load_save _ _ _), ?_, rfl⟩
  rw [mayLoad_save_ne _ _ _ _ (by decide)]; exact hn

theorem update_run (raw : CanonicalAddr) (migratedTo : CanonicalContractInfo) {st : Store}
    {reg : Registry CanonicalContractInfo} (hreg : (cwWith rename).registry st = some reg) :
    ∃ st', (cwWith rename).updateMigratedSubscriber raw migratedTo st = (.ok (), st') ∧
      (cwWith rename).registry st' =
        some { entries := rename raw migratedTo reg.entries, slots := reg.slots } ∧
      Store.EqOff CwMigratable.keys st st' := by
  obtain ⟨l, n, hl, hn, rfl⟩ := (registry_cw st).mp hreg
  exact ⟨_, Prog.bind_of_ok (mayLoad_run hl), saveSubscribers n _ hn,
    save_keys_eqOff _ _ _ (by decide)⟩

theorem renamesFirst : cw.RenamesFirst := by
  intro st reg raw migratedTo hreg
  obtain ⟨st', hup, hreg', _⟩ := update_run raw migratedTo hreg
  exact ⟨st', hup, hreg'⟩

theorem cwWith_documented
    (hrename : ∀ raw migratedTo l,
      Renamed CanonicalContractInfo.address raw migratedTo l (rename raw migratedTo l)) :
    (cwWith rename).Documented api jsonBytes where
  canonicalize _ := rfl
  intoHumanized _ := rfl
  broadcast _ _ _ _ _ _ := rfl
  register _ _ := rfl
  add_full := by
    intro st reg raw codeHash hreg hfull
    obtain ⟨l, n, hl, hn, rfl⟩ := (registry_cw st).mp hreg
    rcases takeSlot_ok hl hn with ⟨rfl, e, st', he⟩ | ⟨h0, _⟩
    · exact ⟨e, st', (Prog.bind_of_ok (mayLoad_run hn)).trans (Prog.bind_of_error he)⟩
    · cases n with
      | none => simp [Registry.add] at hfull
      | some m =>
        have hm := UInt8.toNat_sub_one (m := m) (by simpa using h0)
        simp only [Option.map_some, ← hm] at hfull
        simp [Registry.add] at hfull
  add := by
    intro st reg reg' raw codeHash hreg hadd
    obtain ⟨l, n, hl, hn, rfl⟩ := (registry_cw st).mp hreg
    rcases takeSlot_ok hl hn with ⟨rfl, _⟩ | ⟨h0, st₁, htake, hl₁, hn₁, hoff⟩
    · simp [Registry.add] at hadd
    · refine ⟨subscribers.save (insertNew ⟨raw, codeHash⟩ (l.getD [])) st₁, ?_, ?_, ?_⟩
      · exact (Prog.bind_of_ok (mayLoad_run hn)).trans
          ((Prog.bind_of_ok htake).trans (Prog.bind_of_ok (mayLoad_run hl₁)))
      · rw [saveSubscribers _ _ hn₁]
        cases n with
        | none => simp [Registry.add] at hadd; simp [hadd]
        | some m =>
          have hm := UInt8.toNat_sub_one (m := m) (by simpa using h0)
          simp only [Option.map_some, ← hm] at hadd
          simpa [Registry.add] using hadd
      · exact hoff.trans (save_keys_eqOff _ _ _ (by decide))
  update := by
    intro st reg raw migratedTo hreg
    obtain ⟨st', hup, hreg', hoff⟩ := update_run raw migratedTo hreg
    exact ⟨st', _, hup, hreg', hrename _ _ _, hoff⟩

theorem cw_documented : cw.Documented api jsonBytes := cwWith_documented (renameFirst_renamed _)

end Cw

/-! ## The base contract -/

section Impl

def adminItem : Item CanonicalAddr where
  key := "snip721_admin"
  typeName := "cosmwasm_std::addresses::CanonicalAddr"
  codec := jsonBytes.codec JsonCodec.bytes

def mintersItem : Item (List CanonicalAddr) where
  key := "snip721_minters"
  typeName := "alloc::vec::Vec<cosmwasm_std::addresses::CanonicalAddr>"
  codec := jsonBytes.codec JsonCodec.bytes.list

def mintedItem : Item (List Minted) where
  key := "snip721_tokens"
  typeName := "alloc::vec::Vec<snip721_reference_impl::token::Token>"
  codec := jsonBytes.codec minted.list

def implInstantiate (info : MessageInfo) (msg : Snip721InstantiateMsg) : ContractM Response := do
  let rawAdmin ← attempt (addrCanonicalize (msg.admin.getD info.sender))
  save adminItem rawAdmin
  save mintersItem [rawAdmin]
  save mintedItem []
  match msg.postInitCallback with
  | none => pure Response.new
  | some cb =>
    pure (Response.new.addSubmessages
      [SubMsg.new (.wasm (.execute cb.contractAddress cb.codeHash cb.msg cb.send))])

def mint (info : MessageInfo) (m : MintNft) : ContractM Response := do
  let sender ← attempt (addrCanonicalize info.sender)
  let minters ← load mintersItem
  if sender ∉ minters then
    failWith "Only designated minters are allowed to mint"
  else do
    let owner ← attempt (addrCanonicalize (m.owner.getD info.sender))
    let tokens ← load mintedItem
    save mintedItem (tokens ++ [⟨sender, owner, m.publicMetadata, m.privateMetadata⟩])
    pure Response.new

/-- The admin may replace the minters by a function of what they were and of the addresses given. -/
def changeMinters (info : MessageInfo) (addresses : List String)
    (f : List CanonicalAddr → List CanonicalAddr → List CanonicalAddr) : ContractM Response := do
  let sender ← attempt (addrCanonicalize info.sender)
  let current ← load adminItem
  if sender ≠ current then
    failWith "This is an admin command and can only be run from the admin address"
  else do
    let raws ← attempt (collect (addresses.map addrCanonicalize))
    let minters ← load mintersItem
    save mintersItem (f minters raws)
    pure Response.new

def changeAdmin (info : MessageInfo) (address : String) : ContractM Response := do
  let sender ← attempt (addrCanonicalize info.sender)
  let current ← load adminItem
  if sender ≠ current then
    failWith "This is an admin command and can only be run from the admin address"
  else do
    let raw ← attempt (addrCanonicalize address)
    save adminItem raw
    pure Response.new

def implExecute (info : MessageInfo) : Snip721ExecuteMsg → ContractM Response
  | .mintNft m => mint info m
  | .addMinters addresses _ => changeMinters info addresses (· ++ ·)
  | .removeMinters addresses _ => changeMinters info addresses (fun ms raws => ms.removeAll raws)
  | .setMinters addresses _ => changeMinters info addresses (fun _ raws => raws)
  | .changeAdmin address _ => changeAdmin info address
  -- transfers, approvals and the like are not carried out
  | .other .. => failWith "Not supported"

def implMints (info : MessageInfo) : Snip721ExecuteMsg → List Minted
  | .mintNft m =>
    match addrCanonicalize info.sender, addrCanonicalize (m.owner.getD info.sender) with
    | .ok sender, .ok owner => [⟨sender, owner, m.publicMetadata, m.privateMetadata⟩]
    | _, _ => []
  | _ => []

def impl : ReferenceImpl where
  executeMsg := snip721ExecuteMsg
  instantiateMsg := instantiateMsg
  instantiate _ info msg := implInstantiate info msg
  execute _ info msg := implExecute info msg
  admin st := (adminItem.load st).toOption
  minters st := ((mintersItem.load st).toOption).getD []
  mints _ info msg _ := implMints info msg

variable {info : MessageInfo} {st st' : Store} {r : Response}

theorem implInstantiate_ok {msg : Snip721InstantiateMsg}
    (h : implInstantiate info msg st = (.ok r, st')) :
    ∃ raw, addrCanonicalize (msg.admin.getD info.sender) = .ok raw ∧
      st' = mintedItem.save [] (mintersItem.save [raw] (adminItem.save raw st)) ∧
      (msg.postInitCallback = none → r.messages = []) := by
  unfold implInstantiate at h
  simp only [Prog.bind_ok, attempt_ok, save_ok] at h
  obtain ⟨raw, _, ⟨hraw, rfl⟩, _, _, rfl, _, _, rfl, _, _, rfl, h⟩ := h
  cases hcb : msg.postInitCallback with
  | none =>
    rw [hcb] at h
    obtain ⟨rfl, rfl⟩ := Prog.pure_ok.mp h
    exact ⟨raw, hraw, rfl, fun _ => rfl⟩
  | some cb =>
    rw [hcb] at h
    obtain ⟨rfl, rfl⟩ := Prog.pure_ok.mp h
    exact ⟨raw, hraw, rfl, fun h => by cases h⟩

theorem mint_ok {m : MintNft} (h : mint info m st = (.ok r, st')) :
    ∃ sender owner tokens, addrCanonicalize info.sender = .ok sender ∧
      addrCanonicalize (m.owner.getD info.sender) = .ok owner ∧ mintedItem.load st = .ok tokens ∧
      st' = mintedItem.save
        (tokens ++ [⟨sender, owner, m.publicMetadata, m.privateMetadata⟩]) st ∧
      r.messages = [] := by
  unfold mint at h
  simp only [Prog.bind_ok, attempt_ok, load_ok, save_ok, Prog.ite_ok, Prog.pure_ok, failWith_ok,
    and_false, false_or] at h
  obtain ⟨sender, _, ⟨hsender, rfl⟩, _, _, ⟨_, rfl⟩, _, owner, _, ⟨howner, rfl⟩, tokens, _,
    ⟨htokens, rfl⟩, _, _, rfl, rfl, rfl⟩ := h
  exact ⟨sender, owner, tokens, hsender, howner, htokens, rfl, rfl⟩

theorem changeMinters_ok {addresses : List String}
    {f : List CanonicalAddr → List CanonicalAddr → List CanonicalAddr}
    (h : changeMinters info addresses f st = (.ok r, st')) :
    r.messages = [] ∧ ∃ l, st' = mintersItem.save l st := by
  unfold changeMinters at h
  simp only [Prog.bind_ok, attempt_ok, load_ok, save_ok, Prog.ite_ok, Prog.pure_ok, failWith_ok,
    and_false, false_or] at h
  obtain ⟨_, _, ⟨_, rfl⟩, _, _, ⟨_, rfl⟩, _, _, _, ⟨_, rfl⟩, _, _, ⟨_, rfl⟩, _, _, rfl, rfl, rfl⟩ := h
  exact ⟨rfl, _, rfl⟩

theorem changeAdmin_ok {address : String} (h : changeAdmin info address st = (.ok r, st')) :
    r.messages = [] ∧ ∃ raw, addrCanonicalize address = .ok raw ∧
      st' = adminItem.save raw st := by
  unfold changeAdmin at h
  simp only [Prog.bind_ok, attempt_ok, load_ok, save_ok, Prog.ite_ok, Prog.pure_ok, failWith_ok,
    and_false, false_or] at h
  obtain ⟨_, _, ⟨_, rfl⟩, _, _, ⟨_, rfl⟩, _, raw, _, ⟨hraw, rfl⟩, _, _, rfl, rfl, rfl⟩ := h
  exact ⟨rfl, raw, hraw, rfl⟩

/-- What a message of the base contract does: one of its items is written, and no message sent. -/
theorem implExecute_ok {msg : Snip721ExecuteMsg} (h : implExecute info msg st = (.ok r, st')) :
    r.messages = [] ∧
      ((∃ m sender owner tokens, msg = .mintNft m ∧ addrCanonicalize info.sender = .ok sender ∧
        addrCanonicalize (m.owner.getD info.sender) = .ok owner ∧
        mintedItem.load st = .ok tokens ∧
        st' = mintedItem.save
          (tokens ++ [⟨sender, owner, m.publicMetadata, m.privateMetadata⟩]) st) ∨
      (∃ l, st' = mintersItem.save l st) ∨
      (∃ address padding raw, msg = .changeAdmin address padding ∧
        addrCanonicalize address = .ok raw ∧ st' = adminItem.save raw st)) := by
  cases msg with
  | mintNft m =>
    obtain ⟨sender, owner, tokens, hs, ho, ht, hst, hr⟩ := mint_ok h
    exact ⟨hr, .inl ⟨m, sender, owner, tokens, rfl, hs, ho, ht, hst⟩⟩
  | addMinters addresses padding =>
    obtain ⟨hr, l, hst⟩ := changeMinters_ok h; exact ⟨hr, .inr (.inl ⟨l, hst⟩)⟩
  | removeMinters addresses padding =>
    obtain ⟨hr, l, hst⟩ := changeMinters_ok h; exact ⟨hr, .inr (.inl ⟨l, hst⟩)⟩
  | setMinters addresses padding =>
    obtain ⟨hr, l, hst⟩ := changeMinters_ok h; exact ⟨hr, .inr (.inl ⟨l, hst⟩)⟩
  | changeAdmin address padding =>
    obtain ⟨hr, raw, hraw, hst⟩ := changeAdmin_ok h
    exact ⟨hr, .inr (.inr ⟨address, padding, raw, rfl, hraw, hst⟩)⟩
  | other tag fields => exact (failWith_ok.mp h).elim

/-- The three items lie outside the storage of the migration crate. -/
theorem save_frame {α : Type} {i : Item α} (a : α) (st : Store) (hi : i.key ∉ CwMigratable.keys) :
    ∀ k ∈ CwMigratable.keys, i.save a st k = st k := by
  intro k hk
  exact i.save_ne a st fun h => hi (h ▸ hk)

theorem implMints_mintNft {m : MintNft} {sender owner : CanonicalAddr}
    (hs : addrCanonicalize info.sender = .ok sender)
    (ho : addrCanonicalize (m.owner.getD info.sender) = .ok owner) :
    implMints info (.mintNft m) = [⟨sender, owner, m.publicMetadata, m.privateMetadata⟩] := by
  simp [implMints, hs, ho]

theorem impl_documented : impl.Documented api jsonBytes where
  instantiate_frame := by
    intro env info msg st st' r h
    obtain ⟨raw, _, rfl, _⟩ := implInstantiate_ok h
    intro k hk
    rw [save_frame _ _ (by decide) k hk, save_frame _ _ (by decide) k hk,
      save_frame _ _ (by decide) k hk]
  execute_frame := by
    intro env info msg st st' r h
    obtain ⟨_, ⟨_, _, _, _, _, _, _, _, rfl⟩ | ⟨_, rfl⟩ | ⟨_, _, _, _, _, rfl⟩⟩ := implExecute_ok h
    all_goals exact save_frame _ _ (by decide)
  own_state := by
    intro st st' h
    have ha : adminItem.load st' = adminItem.load st := Item.load_of_eqOff _ h (by decide)
    have hm : mintersItem.load st' = mintersItem.load st := Item.load_of_eqOff _ h (by decide)
    simp [impl, ha, hm]
  instantiate_admin := by
    intro env info msg st st' r a ha h
    obtain ⟨raw, hraw, rfl, _⟩ := implInstantiate_ok h
    rw [ha] at hraw
    refine ⟨raw, hraw, ?_, ?_⟩
    · simp only [impl]
      rw [Item.load_save_ne _ _ _ _ (by decide), Item.load_save_ne _ _ _ _ (by decide),
        Item.load_save]
      rfl
    · simp only [impl]
      rw [Item.load_save_ne _ _ _ _ (by decide), Item.load_save]
      simp [Except.toOption]
  instantiate_quiet := by
    intro env info msg st st' r hcb h
    obtain ⟨_, _, _, hr⟩ := implInstantiate_ok h
    exact hr hcb
  changeAdmin := by
    intro env info address padding st st' r h
    obtain ⟨hr, raw, hraw, rfl⟩ := changeAdmin_ok h
    refine ⟨hr, rfl, raw, hraw, by simp [impl, Except.toOption], ?_⟩
    simp only [impl]
    rw [Item.load_save_ne _ _ _ _ (by decide)]
  mintNft := by
    intro env info m o st st' r ho h
    obtain ⟨sender, owner, tokens, hs, how, ht, rfl, _⟩ := mint_ok h
    have hmints := implMints_mintNft hs how
    rw [ho] at how
    exact ⟨sender, owner, hs, how, hmints⟩
  mints_by_sender := by
    intro env info msg st st' r h t ht
    cases msg with
    | mintNft m =>
      obtain ⟨sender, owner, tokens, hs, how, _⟩ := mint_ok h
      simp only [impl, implMints_mintNft hs how, List.mem_singleton] at ht
      rw [ht]
      exact hs
    | _ => cases ht
  callbacks := by
    intro env info msg st st' r h sm hsm
    rw [(implExecute_ok h).1] at hsm
    cases hsm

/-- Minters mint. -/
theorem mint_minter {m : MintNft} (h : mint info m st = (.ok r, st')) :
    ∃ sender l, addrCanonicalize info.sender = .ok sender ∧ mintersItem.load st = .ok l ∧
      sender ∈ l := by
  unfold mint at h
  simp only [Prog.bind_ok, attempt_ok, load_ok, save_ok, Prog.ite_ok, Prog.pure_ok, failWith_ok,
    and_false, false_or, not_not] at h
  obtain ⟨sender, _, ⟨hs, rfl⟩, l, _, ⟨hl, rfl⟩, hmem, _⟩ := h
  exact ⟨sender, l, hs, hl, hmem⟩

theorem changeMinters_admin {addresses : List String}
    {f : List CanonicalAddr → List CanonicalAddr → List CanonicalAddr}
    (h : changeMinters info addresses f st = (.ok r, st')) :
    ∃ sender, addrCanonicalize info.sender = .ok sender ∧ impl.admin st = some sender := by
  unfold changeMinters at h
  simp only [Prog.bind_ok, attempt_ok, load_ok, save_ok, Prog.ite_ok, Prog.pure_ok, failWith_ok,
    and_false, false_or, ne_eq, not_not] at h
  obtain ⟨sender, _, ⟨hs, rfl⟩, current, _, ⟨hc, rfl⟩, rfl, _⟩ := h
  exact ⟨_, hs, by simp [impl, hc, Except.toOption]⟩

theorem changeAdmin_admin {address : String} (h : changeAdmin info address st = (.ok r, st')) :
    ∃ sender, addrCanonicalize info.sender = .ok sender ∧ impl.admin st = some sender := by
  unfold changeAdmin at h
  simp only [Prog.bind_ok, attempt_ok, load_ok, save_ok, Prog.ite_ok, Prog.pure_ok, failWith_ok,
    and_false, false_or, ne_eq, not_not] at h
  obtain ⟨sender, _, ⟨hs, rfl⟩, current, _, ⟨hc, rfl⟩, rfl, _⟩ := h
  exact ⟨_, hs, by simp [impl, hc, Except.toOption]⟩

theorem impl_guarded : impl.Guarded api where
  instantiate := by
    intro env info msg st st' r a ha h
    obtain ⟨raw, hraw, rfl, _⟩ := implInstantiate_ok h
    rw [ha] at hraw
    refine ⟨raw, hraw, ?_⟩
    simp only [impl]
    rw [Item.load_save_ne _ _ _ _ (by decide), Item.load_save]
    rfl
  rights := by
    intro env info msg st st' r h
    cases msg with
    | mintNft m =>
      obtain ⟨_, _, _, _, _, _, rfl, _⟩ := mint_ok h
      refine .inl ⟨?_, ?_⟩
      · simp only [impl]
        rw [Item.load_save_ne _ _ _ _ (by decide)]
      · simp only [impl]
        rw [Item.load_save_ne _ _ _ _ (by decide)]
    | addMinters addresses _ => exact .inr ⟨trivial, changeMinters_admin h⟩
    | removeMinters addresses _ => exact .inr ⟨trivial, changeMinters_admin h⟩
    | setMinters addresses _ => exact .inr ⟨trivial, changeMinters_admin h⟩
    | changeAdmin address _ => exact .inr ⟨trivial, changeAdmin_admin h⟩
    | other tag fields => exact (failWith_ok.mp h).elim
  mints := by
    intro env info msg st st' r h t ht
    cases msg with
    | mintNft m =>
      obtain ⟨sender, owner, _, hs, ho, _⟩ := mint_ok h
      obtain ⟨sender', l, hs', hl, hmem⟩ := mint_minter h
      cases hs.symm.trans hs'
      simp only [impl, implMints_mintNft hs ho, List.mem_singleton] at ht
      rw [ht]
      simp only [impl, hl, Except.toOption, Option.getD_some]
      exact hmem
    | _ => cases ht

end Impl

/-! ## All of them -/

def items : Dealer.Items where
  canonicalAddr := jsonBytes.codec JsonCodec.bytes
  string := jsonBytes.codec JsonCodec.string
  coins := jsonBytes.codec Dealer.coin.list
  metadata := jsonBytes.codec purchasableMetadata

def crates : Crates := { api, json := jsonBytes, cw, impl, items }

theorem crates_documented : crates.Documented :=
  ⟨api_documented, cw_documented, impl_documented⟩

theorem crates_tagged : crates.Tagged := ⟨rfl, rfl, rfl⟩

/-- A migration crate whose update reaches every entry of the sender. -/
def eager : Crates := { crates with cw := cwWith (renameAll CanonicalContractInfo.address) }

theorem eager_documented : eager.Documented :=
  ⟨api_documented, cwWith_documented (renameAll_renamed _), impl_documented⟩

theorem renamesAll : eager.cw.RenamesAll := by
  intro st reg raw migratedTo hreg
  obtain ⟨st', hup, hreg', _⟩ := update_run raw migratedTo hreg
  exact ⟨st', hup, hreg'⟩

end Reference
end Snip721Migratable
