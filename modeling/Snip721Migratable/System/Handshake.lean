import Snip721Migratable.Reference.Chain

/-!
# System.Handshake

What the transaction that creates a dealer and its child hands over. In the course of it the
dealer is the admin of the child.

* `childMsg_decodes` : the child reads the dealer's copy of its instantiate message as its own.
* `deploy_holds` : the two storages afterwards (`Deployed`).
* `handshake_hands_over` : what the transaction has handed over when it commits, and when it fails.
-/

namespace Snip721Migratable

/-- The two storages after the transaction. -/
structure Deployed {X : Crates} {P : Parties X} (d : Deployment P) (w : World) (s : Dealer.State) :
    Prop where
  holds : Dealer.Holds X w.dealer s
  admin : ∃ A, Dealer.trueAdmin X d.info d.msg = .ok A ∧ X.api.addrCanonicalize A = .ok s.admin ∧
    X.impl.admin w.child = some s.admin ∧ w.childAdmin = some A
  admin_humanizes : ∃ a, X.api.addrHumanize s.admin = .ok a
  prices_ne_nil : d.msg.prices ≠ []
  prices : s.prices = d.msg.prices
  metadata : s.metadata = ⟨d.msg.publicMetadata, d.msg.privateMetadata⟩
  child : s.child = ⟨P.childRaw, d.msg.snip721CodeHash⟩
  registry : s.registry = { entries := [s.child], slots := none }
  childRegistry : X.cw.registry w.child =
    some { entries := [⟨P.dealerRaw, d.dealerHash⟩], slots := some 0 }
  minter : P.dealerRaw ∈ X.impl.minters w.child
  dealerHash : w.dealerHash = d.dealerHash
  childHash : w.childHash = d.msg.snip721CodeHash
  log : w.log = []

section

variable {X : Crates} {P : Parties X} {d : Deployment P} {w : World}

/-- The child reads what the dealer wrote. -/
theorem childMsg_decodes (env : Env) (msg : Dealer.InstantiateMsg) :
    (X.json.parse (X.json.render ((Dealer.childInstantiateMsg env msg).toJson X.impl))).bind
      (Migratable.InstantiateMsg.ofJson X.impl) =
    some ⟨(Dealer.childInstantiateMsg env msg).instantiate, 1⟩ := by
  rw [X.json.parse_render, Option.bind_some]
  simp [Migratable.InstantiateMsg.ofJson, Dealer.MigratableSnip721InstantiateMsg.toJson,
    Json.field?, Json.nat?, X.impl.instantiateMsg.ofJson_toJson, Dealer.childInstantiateMsg]

/-- A message that the dealer sends to the child under its code hash is executed there. -/
theorem handled_child {m : Mail P} {ρ : Reaction P} {w' : World} {out : List (Mail P)} {b : Binary}
    {msg : Migratable.ExecuteMsg} {codeHash : String} {funds : List Coin}
    (hb : m.body = .wasm (.execute P.child codeHash b funds))
    (hmsg : Migratable.visitBytes X b = .ok msg) (h : Handled w m ρ w' out) :
    ∃ r st, Migratable.execute X (ρ.env ⟨P.child, w.childHash⟩)
        { sender := m.origin.addr, funds } msg w.child = (.ok r, st) ∧
      w' =
        { w with
          child := st,
          log := w.log ++ mintsOf (X := X) (ρ.env ⟨P.child, w.childHash⟩)
            { sender := m.origin.addr, funds } w.child msg } ∧
      out = mailFrom .child r := by
  cases h with
  | bank hb' => rw [hb] at hb'; cases hb'
  | migrateDealer hb' => rw [hb] at hb'; cases hb'
  | migrateChild hb' => rw [hb] at hb'; cases hb'
  | executeDealer hb' ha =>
    rw [hb] at hb'
    cases hb'
    exact (P.distinct (Except.ok.inj (ha.symm.trans P.child_canonicalize))).elim
  | executeChild hb' _ _ hmsg' hcall =>
    rw [hb] at hb'
    cases hb'
    cases hmsg.symm.trans hmsg'
    exact ⟨_, _, hcall, rfl, rfl⟩
  | elsewhere hb' hr _ =>
    rw [hb] at hb'
    cases hb'
    rw [receiver, resolve_child.mpr P.child_canonicalize] at hr
    cases hr

/-- The child right after its `instantiate`. -/
theorem instantiateChild_ok (hX : X.Documented) {codeHash : String} {funds : List Coin}
    {r : Response} {st : Store}
    (h : d.instantiateChild codeHash
      (X.json.render ((Dealer.childInstantiateMsg d.dealerEnv d.msg).toJson X.impl)) funds =
        some (r, st)) :
    r.messages = [] ∧ X.cw.registry st = some { entries := [], slots := some 1 } ∧
      P.dealerRaw ∈ X.impl.minters st := by
  unfold Deployment.instantiateChild at h
  rw [childMsg_decodes] at h
  simp only at h
  split at h
  · cases h
  · rename_i r' st' hinst
    cases h
    obtain ⟨hreg, hbase⟩ := Migratable.instantiate_ok hX hinst
    obtain ⟨raw, hraw, _, hminter⟩ := hX.impl.instantiate_admin (a := P.dealer) rfl hbase
    cases P.dealer_canonicalize.symm.trans hraw
    exact ⟨hX.impl.instantiate_quiet rfl hbase, hreg, hminter⟩

/-- The first message of the reply takes the only slot for the dealer. -/
theorem subscribe_handled (hX : X.Documented) (hT : X.Tagged) {w' : World} {ρ : Reaction P}
    {out : List (Mail P)} {codeHash dealerHash : String}
    (hreg : X.cw.registry w.child = some { entries := [], slots := some 1 })
    (h : Handled w ⟨.dealer, .wasm (.execute P.child codeHash
      (X.json.toBytes X.cw.migratableExecuteMsg.codec
        (.subscribeToMigrationCompleteEvent P.dealer dealerHash)) [])⟩ ρ w' out) :
    out = [] ∧ ∃ st, w' = { w with child := st } ∧ Store.EqOff CwMigratable.keys w.child st ∧
      X.cw.registry st = some { entries := [⟨P.dealerRaw, dealerHash⟩], slots := some 0 } := by
  obtain ⟨r, st, hcall, hw, ho⟩ := handled_child rfl
    (Migratable.visitBytes_toBytes hT (.migrate _)) h
  rcases Migratable.execute_cases hX hreg _ hcall with ⟨_, heq, _⟩ |
    ⟨address, _, raw, reg', heq, hr, _, hraw, hadd, hreg', hoff⟩ | ⟨_, _, _, _, _, heq, _⟩
  · cases heq
  · cases heq
    cases P.dealer_canonicalize.symm.trans hraw
    cases hadd
    refine ⟨by rw [ho, mailFrom, hr]; rfl, st, ?_, hoff, hreg'⟩
    rw [hw]
    simp [mintsOf]
  · cases heq

/-- The second message of the reply hands the child to its admin. -/
theorem changeAdmin_handled (hX : X.Documented) (hT : X.Tagged) {w' : World} {ρ : Reaction P}
    {out : List (Mail P)} {codeHash : String} {admin : Addr}
    {reg : Registry CanonicalContractInfo} (hreg : X.cw.registry w.child = some reg)
    (h : Handled w ⟨.dealer, .wasm (.execute P.child codeHash
      (X.json.toBytes X.impl.executeMsg.codec (.changeAdmin admin none)) [])⟩ ρ w' out) :
    out = [] ∧ ∃ st raw, w' = { w with child := st } ∧ X.api.addrCanonicalize admin = .ok raw ∧
      X.impl.admin st = some raw ∧ X.impl.minters st = X.impl.minters w.child ∧
      X.cw.registry st = some reg := by
  obtain ⟨r, st, hcall, hw, ho⟩ := handled_child rfl
    (Migratable.visitBytes_toBytes hT (.base _)) h
  rcases Migratable.execute_cases hX hreg _ hcall with ⟨_, heq, hbase, hreg'⟩ |
    ⟨_, _, _, _, heq, _⟩ | ⟨_, _, _, _, _, heq, _⟩
  · cases heq
    obtain ⟨hr, hmints, raw, hraw, hadmin, hminters⟩ := hX.impl.changeAdmin hbase
    refine ⟨by rw [ho, mailFrom, hr]; rfl, st, raw, ?_, hraw, hadmin, hminters, hreg'⟩
    rw [hw, mintsOf, hmints]
    simp
  · cases heq
  · cases heq

/-- The dealer's reply and its two messages. -/
theorem replyDealer_ok (hX : X.Documented) (hT : X.Tagged) {w' : World} {id : Nat}
    {rawAdmin : CanonicalAddr} {prices : List Coin} {metadata : Dealer.PurchasableMetadata}
    {codeHash : String} (hadmin : X.items.admin.load w.dealer = .ok rawAdmin)
    (hprices : X.items.purchasePrices.load w.dealer = .ok prices)
    (hmeta : X.items.purchasableMetadata.load w.dealer = .ok metadata)
    (hhash : X.items.childSnip721CodeHash.load w.dealer = .ok codeHash)
    (hreg : X.cw.registry w.dealer = some { entries := [], slots := none })
    (hchild : X.cw.registry w.child = some { entries := [], slots := some 1 })
    (h : d.replyDealer w id = some w') :
    ∃ st ch a, w' = { w with dealer := st, child := ch } ∧
      Dealer.Holds X st
        { admin := rawAdmin, prices, metadata, child := ⟨P.childRaw, codeHash⟩,
          registry := { entries := [⟨P.childRaw, codeHash⟩], slots := none } } ∧
      X.api.addrHumanize rawAdmin = .ok a ∧ X.impl.admin ch = some rawAdmin ∧
      X.impl.minters ch = X.impl.minters w.child ∧
      X.cw.registry ch =
        some { entries := [⟨P.dealerRaw, d.dealerHash⟩], slots := some 0 } := by
  unfold Deployment.replyDealer at h
  split at h
  · cases h
  · rename_i r st hrep
    obtain ⟨result, address, child, raw, a, hres, haddr, hvalid, hcraw, hhum, hr, hs⟩ :=
      Dealer.reply_ok hX.cw hadmin hprices hmeta hhash hreg hrep
    cases hres
    cases d.reports.symm.trans haddr
    cases P.child_validate.symm.trans hvalid
    cases P.child_canonicalize.symm.trans hcraw
    rw [mailFrom, hr] at h
    obtain ⟨ρ₁, _, w₁, out₁, _, hh₁, h⟩ := Machine.transact_cons h
    obtain ⟨rfl, ch₁, rfl, hoff, hreg₁⟩ :=
      subscribe_handled (w := { w with dealer := st }) hX hT hchild (handle_cases hh₁)
    obtain ⟨ρ₂, _, w₂, out₂, _, hh₂, h⟩ := Machine.transact_cons h
    obtain ⟨rfl, ch₂, raw₂, rfl, hraw₂, hadm₂, hminters₂, hreg₂⟩ :=
      changeAdmin_handled (w := { w with dealer := st, child := ch₁ }) hX hT hreg₁
        (handle_cases hh₂)
    obtain ⟨_, rfl⟩ := Machine.transact_nil.mp h
    cases (hX.api.humanize hhum).symm.trans hraw₂
    have hminters₁ := (hX.impl.own_state hoff).2
    exact ⟨st, ch₂, a, rfl, hs, hhum, hadm₂, hminters₂.trans hminters₁, hreg₂⟩

theorem deploy_holds (hX : X.Documented) (hT : X.Tagged) (h : d.deploy = some w) :
    ∃ s, Deployed d w s := by
  unfold Deployment.deploy at h
  split at h
  · cases h
  · rename_i r st₀ hinst
    obtain ⟨hne, admin, rawAdmin, hadm, hraw, hr, ha, hp, hm, hh, hreg⟩ :=
      Dealer.instantiate_ok hinst
    simp only [hr, SubMsg.replyOnSuccess, Dealer.instantiateChildMsg] at h
    split at h
    · cases h
    · rename_i rc ch hchild
      obtain ⟨hrc, hchreg, hminter⟩ := instantiateChild_ok hX hchild
      split at h
      · cases h
      · rename_i w₂ ht
        rw [mailFrom, hrc] at ht
        obtain ⟨_, rfl⟩ := Machine.transact_nil.mp ht
        obtain ⟨st, ch', a, rfl, hs, hhum, hadmin, hminters, hreg'⟩ :=
          replyDealer_ok hX hT ha hp hm hh hreg hchreg h
        exact ⟨_, { holds := hs
                    admin := ⟨admin, hadm, hraw, hadmin, rfl⟩
                    admin_humanizes := ⟨a, hhum⟩
                    prices_ne_nil := hne
                    prices := rfl
                    metadata := rfl
                    child := rfl
                    registry := rfl
                    childRegistry := hreg'
                    minter := hminters.symm ▸ hminter
                    dealerHash := rfl
                    childHash := rfl
                    log := rfl }⟩

/-- What the transaction hands over. -/
structure HandedOver (d : Deployment P) (w : World) : Prop where
  admin : ∃ A raw, Dealer.trueAdmin X d.info d.msg = .ok A ∧ X.api.addrCanonicalize A = .ok raw ∧
    X.items.admin.load w.dealer = .ok raw ∧ X.impl.admin w.child = some raw ∧
    w.childAdmin = some A
  minter : P.dealerRaw ∈ X.impl.minters w.child
  childSubscribers : X.cw.subscribers w.child = [⟨P.dealerRaw, d.dealerHash⟩]
  no_slot_left : ∀ (env : Env) (info : MessageInfo) (address codeHash : String),
    ∃ e st, Migratable.execute X env info
      (.migrate (.subscribeToMigrationCompleteEvent address codeHash)) w.child = (.error e, st)
  dealerSubscribers : X.cw.subscribers w.dealer = [⟨P.childRaw, d.msg.snip721CodeHash⟩]
  childAddress : X.items.childSnip721Address.load w.dealer = .ok P.childRaw
  childCodeHash : X.items.childSnip721CodeHash.load w.dealer = .ok d.msg.snip721CodeHash

/-- A full registry takes no subscription. -/
theorem subscribe_full (hX : X.Documented) {st : Store} {reg : Registry CanonicalContractInfo}
    (hreg : X.cw.registry st = some reg) (hfull : reg.slots = some 0) (env : Env)
    (info : MessageInfo) (address codeHash : String) :
    ∃ e st', Migratable.execute X env info
      (.migrate (.subscribeToMigrationCompleteEvent address codeHash)) st = (.error e, st') := by
  rcases Prog.outcome (Migratable.execute X env info
    (.migrate (.subscribeToMigrationCompleteEvent address codeHash))) st with ⟨r, st', h⟩ | h
  · rcases Migratable.execute_cases hX hreg env h with ⟨_, heq, _⟩ |
      ⟨_, _, _, _, _, _, _, _, hadd, _⟩ | ⟨_, _, _, _, _, heq, _⟩
    · cases heq
    · rw [Registry.add_full hfull] at hadd; cases hadd
    · cases heq
  · exact h

theorem Deployed.handedOver (hX : X.Documented) {s : Dealer.State} (h : Deployed d w s) :
    HandedOver d w where
  admin := by
    obtain ⟨A, hA, hraw, hadm, hchain⟩ := h.admin
    exact ⟨A, s.admin, hA, hraw, h.holds.admin, hadm, hchain⟩
  minter := h.minter
  childSubscribers := CwMigratable.subscribers_of_registry h.childRegistry
  no_slot_left := subscribe_full hX h.childRegistry rfl
  dealerSubscribers := by
    rw [CwMigratable.subscribers_of_registry h.holds.registry, h.registry, h.child]
  childAddress := by rw [h.holds.childAddress, h.child]
  childCodeHash := by rw [h.holds.childCodeHash, h.child]

/-- When the transaction commits, everything is handed over. It fails when there are no prices or
the admin is invalid. -/
theorem handshake_hands_over (hX : X.Documented) (hT : X.Tagged) (d : Deployment P) :
    (∀ w, d.deploy = some w → HandedOver d w) ∧
    (d.msg.prices = [] → d.deploy = none) ∧
    ((∀ A, Dealer.trueAdmin X d.info d.msg ≠ .ok A) → d.deploy = none) := by
  refine ⟨?_, ?_, ?_⟩
  · intro w h
    obtain ⟨s, hs⟩ := deploy_holds hX hT h
    exact hs.handedOver hX
  · intro hprices
    cases h : d.deploy with
    | none => rfl
    | some w =>
      obtain ⟨s, hs⟩ := deploy_holds hX hT h
      exact (hs.prices_ne_nil hprices).elim
  · intro hadm
    cases h : d.deploy with
    | none => rfl
    | some w =>
      obtain ⟨s, hs⟩ := deploy_holds hX hT h
      obtain ⟨A, hA, _⟩ := hs.admin
      exact (hadm A hA).elim

end

theorem handshake_hands_over_chain :
    ∃ w, Reference.Chain.deployment.deploy = some w ∧
      HandedOver Reference.Chain.deployment w :=
  ⟨_, Reference.Chain.deploy_eq,
    (handshake_hands_over Reference.crates_documented Reference.crates_tagged
      Reference.Chain.deployment).1 _ Reference.Chain.deploy_eq⟩

end Snip721Migratable
