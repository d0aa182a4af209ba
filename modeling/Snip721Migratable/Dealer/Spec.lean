import Snip721Migratable.Dealer.Contract

/-!
# Dealer.Spec

What each entry point of the dealer does, said once. `Holds X st s` reads the storage `st` as an
abstract state `s`: the five items and the registry of subscribers. Every entry point that
completes takes a storage that holds a state to one that holds a state, and the lemmas here say
which, under which conditions, and with which messages.

* `purchaseAndMint_ok`, `updateChildSnip721_ok`, `execute_cases` : the execute messages.
* `instantiate_ok`, `reply_ok` : how an instantiated dealer starts (`Instantiated`).
-/

namespace Snip721Migratable
namespace Dealer

open Registry

/-- The state of an instantiated dealer. -/
structure State where
  admin : CanonicalAddr
  prices : List Coin
  metadata : PurchasableMetadata
  child : CanonicalContractInfo
  registry : Registry CanonicalContractInfo

structure Holds (X : Crates) (st : Store) (s : State) : Prop where
  admin : X.items.admin.load st = .ok s.admin
  prices : X.items.purchasePrices.load st = .ok s.prices
  metadata : X.items.purchasableMetadata.load st = .ok s.metadata
  childAddress : X.items.childSnip721Address.load st = .ok s.child.address
  childCodeHash : X.items.childSnip721CodeHash.load st = .ok s.child.codeHash
  registry : X.cw.registry st = some s.registry

section

variable {X : Crates} {st st' : Store} {s : State} {info : MessageInfo} {r : Response}

/-- The migration crate writes under its own keys only. -/
theorem Holds.setRegistry (h : Holds X st s) (hoff : Store.EqOff CwMigratable.keys st st')
    {reg : Registry CanonicalContractInfo} (hreg : X.cw.registry st' = some reg) :
    Holds X st' { s with registry := reg } where
  admin := by rw [Item.load_of_eqOff _ hoff (by simp [CwMigratable.keys])]; exact h.admin
  prices := by rw [Item.load_of_eqOff _ hoff (by simp [CwMigratable.keys])]; exact h.prices
  metadata := by rw [Item.load_of_eqOff _ hoff (by simp [CwMigratable.keys])]; exact h.metadata
  childAddress := by
    rw [Item.load_of_eqOff _ hoff (by simp [CwMigratable.keys])]; exact h.childAddress
  childCodeHash := by
    rw [Item.load_of_eqOff _ hoff (by simp [CwMigratable.keys])]; exact h.childCodeHash
  registry := hreg

/-- Writing both halves of the child reference changes the child reference. -/
theorem Holds.setChild (h : Holds X st s) (c : CanonicalContractInfo) :
    Holds X (X.items.childSnip721CodeHash.save c.codeHash
      (X.items.childSnip721Address.save c.address st)) { s with child := c } where
  admin := by rw [Item.load_save_ne _ _ _ _ (by simp), Item.load_save_ne _ _ _ _ (by simp)]
              exact h.admin
  prices := by rw [Item.load_save_ne _ _ _ _ (by simp), Item.load_save_ne _ _ _ _ (by simp)]
               exact h.prices
  metadata := by rw [Item.load_save_ne _ _ _ _ (by simp), Item.load_save_ne _ _ _ _ (by simp)]
                 exact h.metadata
  childAddress := by rw [Item.load_save_ne _ _ _ _ (by simp)]; exact Item.load_save _ _ _
  childCodeHash := Item.load_save _ _ _
  registry := by
    rw [← h.registry]
    refine CwMigratable.registry_congr fun k hk => ?_
    simp only [CwMigratable.keys, List.mem_cons, List.not_mem_nil, or_false] at hk
    rcases hk with rfl | rfl <;>
      rw [Item.save_ne _ _ _ (by simp), Item.save_ne _ _ _ (by simp)]

/-! ## Purchases -/

/-- The two messages of a purchase. -/
def purchaseMessages (X : Crates) (s : State) (info : MessageInfo) (adminAddr childAddr : Addr) :
    List SubMsg :=
  [SubMsg.new (.bank (.send adminAddr info.funds)),
    SubMsg.new (.wasm (.execute childAddr s.child.codeHash
      (X.json.toBytes X.impl.executeMsg.codec (mintNftMsg info.sender s.metadata)) []))]

theorem checkFunds_ok {prices : List Coin} {c : Coin} :
    checkFunds prices c = .ok () ↔
      ∃ p, prices.find? (fun p => p.denom = c.denom) = some p ∧ c.amount = p.amount := by
  unfold checkFunds
  cases prices.find? (fun p => p.denom = c.denom) with
  | none => simp
  | some p => by_cases h : c.amount = p.amount <;> simp [h]

/-- Every coin that passes the checks of a purchase is listed. -/
theorem mem_of_checkFunds {prices : List Coin} {c : Coin} (h : checkFunds prices c = .ok ()) :
    c ∈ prices := by
  obtain ⟨p, hp, ha⟩ := checkFunds_ok.mp h
  have hd : p.denom = c.denom := by simpa using List.find?_some hp
  have hpc : p = c := by
    obtain ⟨_, _⟩ := p
    obtain ⟨_, _⟩ := c
    cases hd; cases ha; rfl
  exact hpc ▸ List.mem_of_find?_eq_some hp

theorem purchaseAndMint_readOnly : (purchaseAndMint X info).ReadOnly := by
  unfold purchaseAndMint
  split
  · refine .bind (readOnly_load _) fun _ => .bind (readOnly_attempt _) fun _ => ?_
    refine .bind (readOnly_load _) fun _ => .bind (readOnly_attempt _) fun _ => ?_
    refine .bind (readOnly_load _) fun _ => .bind (readOnly_load _) fun _ => ?_
    exact .bind (readOnly_load _) fun _ => .bind (readOnly_attempt _) fun _ => .pure _
  · exact readOnly_failWith _

theorem purchaseAndMint_ok (hs : Holds X st s) :
    purchaseAndMint X info st = (.ok r, st') ↔
      st' = st ∧ ∃ c adminAddr childAddr, info.funds = [c] ∧ checkFunds s.prices c = .ok () ∧
        X.api.addrHumanize s.admin = .ok adminAddr ∧
        X.api.addrHumanize s.child.address = .ok childAddr ∧
        r.messages = purchaseMessages X s info adminAddr childAddr := by
  unfold purchaseAndMint
  match hf : info.funds with
  | [] => simp [failWith_ok]
  | _ :: _ :: _ => simp [failWith_ok]
  | [c] =>
    simp only [Prog.bind_ok, load_ok, attempt_ok, Prog.pure_ok, Response.addSubmessages,
      Response.new, List.nil_append]
    constructor
    · rintro ⟨_, _, ⟨hp, rfl⟩, _, _, ⟨hck, rfl⟩, _, _, ⟨ha, rfl⟩, adminAddr, _, ⟨hadm, rfl⟩,
        _, _, ⟨hm, rfl⟩, _, _, ⟨hh, rfl⟩, _, _, ⟨hch, rfl⟩, childAddr, _, ⟨hca, rfl⟩, rfl, rfl⟩
      rw [hs.prices] at hp; rw [hs.admin] at ha; rw [hs.metadata] at hm
      rw [hs.childCodeHash] at hh; rw [hs.childAddress] at hch
      cases hp; cases ha; cases hm; cases hh; cases hch
      exact ⟨rfl, c, adminAddr, childAddr, rfl, hck, hadm, hca, by rw [purchaseMessages, hf]⟩
    · intro h
      obtain ⟨rfl, c', adminAddr, childAddr, hc', hck, hadm, hca, hr⟩ := h
      cases hc'
      refine ⟨_, _, ⟨hs.prices, rfl⟩, _, _, ⟨hck, rfl⟩, _, _, ⟨hs.admin, rfl⟩, adminAddr, _,
        ⟨hadm, rfl⟩, _, _, ⟨hs.metadata, rfl⟩, _, _, ⟨hs.childCodeHash, rfl⟩, _, _,
        ⟨hs.childAddress, rfl⟩, childAddr, _, ⟨hca, rfl⟩, ?_, rfl⟩
      cases r; simp only [purchaseMessages, hf] at hr; rw [hr]

/-! ## The child's notifications -/

theorem updateChildSnip721_ok (hcw : X.cw.Documented X.api X.json) (hs : Holds X st s)
    {migratedTo : ContractInfo} (h : updateChildSnip721 X info migratedTo st = (.ok r, st')) :
    X.api.addrCanonicalize info.sender = .ok s.child.address ∧ r.messages = [] ∧
      ∃ raw l', X.api.addrCanonicalize migratedTo.address = .ok raw ∧
        X.cw.Updated s.child.address ⟨raw, migratedTo.codeHash⟩ s.registry.entries l' ∧
        Holds X st' { s with
          child := ⟨raw, migratedTo.codeHash⟩,
          registry := { entries := l', slots := s.registry.slots } } := by
  unfold updateChildSnip721 at h
  simp only [Prog.bind_ok, load_ok, attempt_ok, Prog.ite_ok, failWith_ok, and_false, false_or,
    ne_eq, not_not, save_ok, Prog.pure_ok, hcw.canonicalize] at h
  obtain ⟨_, _, ⟨hch, rfl⟩, _, _, ⟨hsender, rfl⟩, rfl, rawTo, _, ⟨hto, rfl⟩, _, _, rfl, _, _, rfl,
    _, st₁, hup, rfl, rfl⟩ := h
  rw [hs.childAddress] at hch; cases hch
  have hs₁ := hs.setChild rawTo
  obtain ⟨st₂, l', hok, hreg, hren, hoff⟩ := hcw.update_run hs₁.registry s.child.address rawTo
  rw [hok] at hup; cases hup
  cases hraw : X.api.addrCanonicalize migratedTo.address with
  | error e => rw [hraw] at hto; cases hto
  | ok raw =>
    rw [hraw] at hto; cases hto
    exact ⟨hsender, rfl, raw, l', rfl, hren, hs₁.setRegistry hoff hreg⟩

/-- The current child is heard whenever the address it announces canonicalizes. -/
theorem updateChildSnip721_accepts (hcw : X.cw.Documented X.api X.json) (hs : Holds X st s)
    {migratedTo : ContractInfo} {raw : CanonicalAddr}
    (hsender : X.api.addrCanonicalize info.sender = .ok s.child.address)
    (hto : X.api.addrCanonicalize migratedTo.address = .ok raw) :
    ∃ st', updateChildSnip721 X info migratedTo st = (.ok Response.new, st') := by
  have hcanon : X.cw.canonicalize migratedTo = .ok ⟨raw, migratedTo.codeHash⟩ := by
    rw [hcw.canonicalize, hto]; rfl
  have hs₁ := hs.setChild ⟨raw, migratedTo.codeHash⟩
  obtain ⟨st₂, l', hok, _⟩ := hcw.update_run hs₁.registry s.child.address
    ⟨raw, migratedTo.codeHash⟩
  refine ⟨st₂, ?_⟩
  unfold updateChildSnip721
  rw [Prog.bind_of_ok (load_ok.mpr ⟨hs.childAddress, rfl⟩),
    Prog.bind_of_ok (attempt_ok.mpr ⟨hsender, rfl⟩), if_neg (by simp),
    Prog.bind_of_ok (attempt_ok.mpr ⟨hcanon, rfl⟩), Prog.bind_of_ok (save_run ..),
    Prog.bind_of_ok (save_run ..), Prog.bind_of_ok hok]
  rfl

/-! ## Execute -/

/-- What a completed execute message can do. -/
theorem execute_cases (hcw : X.cw.Documented X.api X.json) (hs : Holds X st s) (env : Env)
    {msg : ExecuteMsg} (h : execute X env info msg st = (.ok r, st')) :
    -- a purchase
    (msg = .dealer .purchaseMint ∧ st' = st ∧ ∃ c adminAddr childAddr, info.funds = [c] ∧
      checkFunds s.prices c = .ok () ∧ X.api.addrHumanize s.admin = .ok adminAddr ∧
      X.api.addrHumanize s.child.address = .ok childAddr ∧
      r.messages = purchaseMessages X s info adminAddr childAddr) ∨
    -- a subscription
    (∃ address codeHash valid raw reg',
      msg = .migrate (.subscribeToMigrationCompleteEvent address codeHash) ∧ r.messages = [] ∧
      X.api.addrValidate address = .ok valid ∧ X.api.addrCanonicalize valid = .ok raw ∧
      s.registry.add ⟨raw, codeHash⟩ = some reg' ∧ Holds X st' { s with registry := reg' }) ∨
    -- a notification by the current child
    (∃ migratedTo data raw l',
      msg = .migrateListener (.migrationCompleteNotification migratedTo data) ∧
      r.messages = [] ∧ X.api.addrCanonicalize info.sender = .ok s.child.address ∧
      X.api.addrCanonicalize migratedTo.address = .ok raw ∧
      X.cw.Updated s.child.address ⟨raw, migratedTo.codeHash⟩ s.registry.entries l' ∧
      Holds X st' { s with
        child := ⟨raw, migratedTo.codeHash⟩,
        registry := { entries := l', slots := s.registry.slots } }) := by
  match msg with
  | .dealer .purchaseMint => exact .inl ⟨rfl, (purchaseAndMint_ok hs).mp h⟩
  | .migrate (.subscribeToMigrationCompleteEvent address codeHash) =>
    obtain ⟨hr, hoff, valid, raw, reg', hv, hraw, hadd, hreg'⟩ := hcw.register_ok hs.registry h
    exact .inr (.inl ⟨address, codeHash, valid, raw, reg', rfl, hr, hv, hraw, hadd,
      hs.setRegistry hoff hreg'⟩)
  | .migrate (.broadcastMigrationCompleteNotification ..) =>
    exact (failWith_ok.mp h).elim
  | .migrateListener (.migrationCompleteNotification migratedTo data) =>
    obtain ⟨hsender, hr, raw, l', hto, hren, hs'⟩ := updateChildSnip721_ok hcw hs h
    exact .inr (.inr ⟨migratedTo, data, raw, l', rfl, hr, hsender, hto, hren, hs'⟩)

/-- A migration reads the registry and changes nothing. -/
theorem migrate_ok (hcw : X.cw.Documented X.api X.json) (hs : Holds X st s) {env : Env} :
    migrate X env st = (.ok r, st') ↔
      st' = st ∧ ∃ cs,
        List.Forall₂ (fun c i => X.cw.intoHumanized c = .ok i) s.registry.entries cs ∧
        r.messages = cs.map (X.cw.notify X.json .never 0 env.contract none) := by
  unfold migrate
  rw [notifySubscribers_ok hcw, CwMigratable.subscribers_of_registry hs.registry]

end

/-! ## Instantiation -/

section

variable {X : Crates} {st st' : Store} {info : MessageInfo} {env : Env} {r : Response}

/-- The message that instantiates the child. -/
def instantiateChildMsg (X : Crates) (env : Env) (msg : InstantiateMsg) (admin : Addr) : WasmMsg :=
  .instantiate (some admin) msg.snip721CodeId msg.snip721CodeHash
    (X.json.render ((childInstantiateMsg env msg).toJson X.impl)) [] msg.snip721Label

theorem instantiate_ok {msg : InstantiateMsg}
    (h : instantiate X env info msg Store.empty = (.ok r, st')) :
    msg.prices ≠ [] ∧ ∃ admin rawAdmin, trueAdmin X info msg = .ok admin ∧
      X.api.addrCanonicalize admin = .ok rawAdmin ∧
      r.messages = [SubMsg.replyOnSuccess (.wasm (instantiateChildMsg X env msg admin))
        instantiateSnip721ReplyId] ∧
      X.items.admin.load st' = .ok rawAdmin ∧
      X.items.purchasePrices.load st' = .ok msg.prices ∧
      X.items.purchasableMetadata.load st' = .ok ⟨msg.publicMetadata, msg.privateMetadata⟩ ∧
      X.items.childSnip721CodeHash.load st' = .ok msg.snip721CodeHash ∧
      X.cw.registry st' = some { entries := [], slots := none } := by
  unfold instantiate at h
  rw [Prog.ite_ok] at h
  rcases h with ⟨_, h⟩ | ⟨hp, h⟩
  · exact (failWith_ok.mp h).elim
  · simp only [Prog.bind_ok, attempt_ok, save_ok, Prog.pure_ok] at h
    obtain ⟨admin, _, ⟨hadm, rfl⟩, rawAdmin, _, ⟨hraw, rfl⟩, _, _, rfl, _, _, rfl, _, _, rfl,
      _, _, rfl, rfl, rfl⟩ := h
    refine ⟨by simpa using hp, admin, rawAdmin, hadm, hraw, rfl, ?_, ?_, ?_, ?_, ?_⟩
    · rw [Item.load_save_ne _ _ _ _ (by simp), Item.load_save_ne _ _ _ _ (by simp),
        Item.load_save_ne _ _ _ _ (by simp), Item.load_save]
    · rw [Item.load_save_ne _ _ _ _ (by simp), Item.load_save_ne _ _ _ _ (by simp),
        Item.load_save]
    · rw [Item.load_save]
    · rw [Item.load_save_ne _ _ _ _ (by simp), Item.load_save]
    · rw [← CwMigratable.registry_empty X.cw]
      refine CwMigratable.registry_congr fun k hk => ?_
      simp only [CwMigratable.keys, List.mem_cons, List.not_mem_nil, or_false] at hk
      rcases hk with rfl | rfl <;>
        rw [Item.save_ne _ _ _ (by simp), Item.save_ne _ _ _ (by simp),
          Item.save_ne _ _ _ (by simp), Item.save_ne _ _ _ (by simp)]

/-- The messages of the reply: subscribe to the child, then hand the admin rights over. -/
def replyMessages (X : Crates) (env : Env) (child : Addr) (codeHash : String) (admin : Addr) :
    List SubMsg :=
  [SubMsg.new (.wasm (.execute child codeHash
      (X.json.toBytes X.cw.migratableExecuteMsg.codec
        (.subscribeToMigrationCompleteEvent env.contract.address env.contract.codeHash)) [])),
    SubMsg.new (.wasm (.execute child codeHash
      (X.json.toBytes X.impl.executeMsg.codec (.changeAdmin admin none)) []))]

/-- The reply completes only for a successful instantiation; the child it reports becomes the
child reference and the first subscriber. -/
theorem reply_ok (hcw : X.cw.Documented X.api X.json) {msg : Reply} {rawAdmin : CanonicalAddr}
    {prices : List Coin} {metadata : PurchasableMetadata} {codeHash : String}
    (hadmin : X.items.admin.load st = .ok rawAdmin)
    (hprices : X.items.purchasePrices.load st = .ok prices)
    (hmeta : X.items.purchasableMetadata.load st = .ok metadata)
    (hhash : X.items.childSnip721CodeHash.load st = .ok codeHash)
    (hreg : X.cw.registry st = some { entries := [], slots := none })
    (h : reply X env msg st = (.ok r, st')) :
    ∃ result contractAddress child raw admin,
      msg.result = .ok result ∧ instantiatedAddress result.events = some contractAddress ∧
      X.api.addrValidate contractAddress = .ok child ∧ X.api.addrCanonicalize child = .ok raw ∧
      X.api.addrHumanize rawAdmin = .ok admin ∧
      r.messages = replyMessages X env child codeHash admin ∧
      Holds X st' { admin := rawAdmin, prices, metadata, child := ⟨raw, codeHash⟩,
                    registry := { entries := [⟨raw, codeHash⟩], slots := none } } := by
  unfold reply at h
  rw [Prog.ite_ok] at h
  rcases h with ⟨_, h⟩ | ⟨_, h⟩
  · unfold onInstantiatedSnip721Reply at h
    cases hresult : msg.result with
    | err e =>
      simp only [hresult, Prog.fail_ok] at h
    | ok result =>
      simp only [hresult] at h
      cases haddr : instantiatedAddress result.events with
      | none =>
        simp only [haddr, Prog.fail_ok] at h
      | some contractAddress =>
        simp only [haddr] at h
        simp only [Prog.bind_ok, attempt_ok, load_ok, save_ok, Prog.pure_ok] at h
        obtain ⟨child, _, ⟨hchild, rfl⟩, raw, _, ⟨hraw, rfl⟩, _, _, rfl, hash, _, ⟨hh, rfl⟩,
          adm, _, ⟨ha, rfl⟩, admin, _, ⟨hhum, rfl⟩, _, st₁, hadd, rfl, rfl⟩ := h
        have hne : ∀ {α : Type} (i : Item α), i.key ≠ "childSnip721Addr" →
            i.load (X.items.childSnip721Address.save raw st) = i.load st :=
          fun i hi => Item.load_save_ne i _ _ _ hi
        rw [hne _ (by simp), hhash] at hh; cases hh
        rw [hne _ (by simp), hadmin] at ha; cases ha
        have hstart : Holds X (X.items.childSnip721Address.save raw st)
            { admin := rawAdmin, prices, metadata, child := ⟨raw, codeHash⟩,
              registry := { entries := [], slots := none } } :=
          { admin := by rw [hne _ (by simp)]; exact hadmin
            prices := by rw [hne _ (by simp)]; exact hprices
            metadata := by rw [hne _ (by simp)]; exact hmeta
            childAddress := Item.load_save _ _ _
            childCodeHash := by rw [hne _ (by simp)]; exact hhash
            registry := by
              rw [← hreg]
              refine CwMigratable.registry_congr fun k hk => ?_
              simp only [CwMigratable.keys, List.mem_cons, List.not_mem_nil, or_false] at hk
              rcases hk with rfl | rfl <;> exact Item.save_ne _ _ _ (by simp) }
        obtain ⟨st₂, hok, hreg₂, hoff⟩ := hcw.add _ _ _ raw codeHash hstart.registry
          (add_unlimited rfl _)
        rw [hok] at hadd; cases hadd
        exact ⟨result, contractAddress, child, raw, admin, rfl, haddr, hchild, hraw, hhum,
          rfl, hstart.setRegistry hoff hreg₂⟩
  · exact (failWith_ok.mp h).elim

end

end Dealer
end Snip721Migratable
