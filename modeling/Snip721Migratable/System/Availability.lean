import Snip721Migratable.System.Agreement
import Snip721Migratable.System.Sales

/-!
# System.Availability

What still works, in every world that a run can reach: exactly when a purchase commits, and exactly
when a migration of the child does. Both directions matter. A sale needs nothing but a right coin
and a child that takes the mint. A migration of the child needs the message that migrations have,
and the child to know the dealer's current code hash, since the dealer has to hear of it.

* `handle_dealer`, `handle_child` : the outcomes of executing one of the two contracts.
* `purchase_commits_iff` : purchases.
* `child_migration_commits_iff` : migrations of the child.
-/

namespace Snip721Migratable

section

variable {X : Crates} {P : Parties X} {s₀ s : Dealer.State} {w w' : World} {o : Party P}
  {ρ : Reaction P} {out : List (Mail P)} {a codeHash : String} {b : Binary} {funds : List Coin}

/-! ## Executing one of the two contracts -/

theorem handle_dealer {msg : Dealer.ExecuteMsg} (ha : X.api.addrCanonicalize a = .ok P.dealerRaw)
    (hmsg : Dealer.visitBytes X b = .ok msg) :
    handle w ⟨o, .wasm (.execute a codeHash b funds)⟩ ρ = some (w', out) ↔
      codeHash = w.dealerHash ∧ ∃ r st,
        Dealer.execute X (ρ.env ⟨P.dealer, w.dealerHash⟩) { sender := o.addr, funds } msg w.dealer =
          (.ok r, st) ∧
        w' = { w with dealer := st, log := w.log ++ purchasesOf o.addr funds msg } ∧
        out = mailFrom .dealer r := by
  simp only [handle, resolve_dealer.mpr ha, executeDealer, hmsg]
  constructor
  · intro h
    split at h
    · rename_i hh
      split at h
      · cases h
      · rename_i r st hcall
        cases h
        exact ⟨hh, r, st, hcall, rfl, rfl⟩
    · cases h
  · intro h
    obtain ⟨hh, r, st, hcall, rfl, rfl⟩ := h
    rw [if_pos hh, hcall]

theorem handle_child {msg : Migratable.ExecuteMsg}
    (ha : X.api.addrCanonicalize a = .ok P.childRaw)
    (hmsg : Migratable.visitBytes X b = .ok msg) :
    handle w ⟨o, .wasm (.execute a codeHash b funds)⟩ ρ = some (w', out) ↔
      codeHash = w.childHash ∧ ∃ r st,
        Migratable.execute X (ρ.env ⟨P.child, w.childHash⟩) { sender := o.addr, funds } msg
          w.child = (.ok r, st) ∧
        w' =
          { w with
            child := st,
            log := w.log ++ mintsOf (X := X) (ρ.env ⟨P.child, w.childHash⟩)
              { sender := o.addr, funds } w.child msg } ∧
        out = mailFrom .child r := by
  simp only [handle, resolve_child.mpr ha, executeChild, hmsg]
  constructor
  · intro h
    split at h
    · rename_i hh
      split at h
      · cases h
      · rename_i r st hcall
        cases h
        exact ⟨hh, r, st, hcall, rfl, rfl⟩
    · cases h
  · intro h
    obtain ⟨hh, r, st, hcall, rfl, rfl⟩ := h
    rw [if_pos hh, hcall]

/-! ## Purchases -/

theorem Linked.purchase_handled {h : String} (hl : Linked P s₀ s w h)
    (ha : X.api.addrCanonicalize a = .ok P.dealerRaw)
    (hmsg : Dealer.visitBytes X b = .ok (.dealer .purchaseMint)) {adminAddr : Addr}
    (hadm : X.api.addrHumanize s₀.admin = .ok adminAddr) (buyer : Outsider P) :
    handle w ⟨.third buyer, .wasm (.execute a w.dealerHash b funds)⟩ ρ = some (w', out) ↔
      ∃ c, funds = [c] ∧ Dealer.checkFunds s₀.prices c = .ok () ∧
        w' = { w with log := w.log ++ [(⟨buyer, c⟩ : Purchase P).received] } ∧
        out = [(⟨buyer, c⟩ : Purchase P).sendFunds adminAddr,
          (⟨buyer, c⟩ : Purchase P).mint s₀.metadata s.child.codeHash] := by
  rw [handle_dealer ha hmsg]
  constructor
  · intro hcommits
    obtain ⟨_, r, st, hcall, rfl, rfl⟩ := hcommits
    obtain ⟨rfl, c, adminAddr', childAddr, hfunds, hck, hadm', hch, hr⟩ :=
      (Dealer.purchaseAndMint_ok hl.holds).mp hcall
    simp only at hfunds
    subst hfunds
    rw [hl.admin, hadm] at hadm'
    rw [hl.address, P.child_humanize] at hch
    cases hadm'
    cases hch
    rw [hl.prices] at hck
    refine ⟨c, rfl, hck, rfl, ?_⟩
    rw [mailFrom, hr, Dealer.purchaseMessages, hl.metadata]
    rfl
  · intro hcommits
    obtain ⟨c, rfl, hck, rfl, rfl⟩ := hcommits
    rw [← hl.prices] at hck
    rw [← hl.admin] at hadm
    have hch : X.api.addrHumanize s.child.address = .ok P.child := by
      rw [hl.address]
      exact P.child_humanize
    refine ⟨rfl, ⟨Dealer.purchaseMessages X s { sender := buyer.addr, funds := [c] } adminAddr
      P.child⟩, w.dealer, ?_, rfl, ?_⟩
    · show Dealer.purchaseAndMint X { sender := buyer.addr, funds := [c] } w.dealer = _
      exact (Dealer.purchaseAndMint_ok hl.holds).mpr
        ⟨rfl, c, adminAddr, P.child, rfl, hck, hadm, hch, rfl⟩
    · rw [mailFrom, Dealer.purchaseMessages, hl.metadata]
      rfl

theorem mint_handled_iff (hT : X.Tagged) {x : Purchase P} {md : Dealer.PurchasableMetadata} :
    handle w (x.mint md codeHash) ρ = some (w', out) ↔
      codeHash = w.childHash ∧ ∃ r st,
        X.impl.execute (ρ.env ⟨P.child, w.childHash⟩) { sender := P.dealer, funds := [] }
          (Dealer.mintNftMsg x.buyer.addr md) w.child = (.ok r, st) ∧
        w' =
          { w with
            child := st,
            log := w.log ++ mintsOf (X := X) (ρ.env ⟨P.child, w.childHash⟩)
              { sender := P.dealer, funds := [] } w.child
              (.base (Dealer.mintNftMsg x.buyer.addr md)) } ∧
        out = mailFrom .child r := by
  have hread : Migratable.visitBytes X (X.json.toBytes X.impl.executeMsg.codec
      (Dealer.mintNftMsg x.buyer.addr md)) = .ok (.base (Dealer.mintNftMsg x.buyer.addr md)) :=
    Migratable.visitBytes_toBytes hT (.base _)
  rw [Purchase.mint, handle_child P.child_canonicalize hread]
  rfl

/-- A purchase by `buyer`, from a world where the two contracts know each other. -/
theorem Linked.purchase_transact (hX : X.Documented) (hT : X.Tagged) {h : String}
    (hl : Linked P s₀ s w h) (hsync : s.child.codeHash = w.childHash)
    (ha : X.api.addrCanonicalize a = .ok P.dealerRaw)
    (hmsg : Dealer.visitBytes X b = .ok (.dealer .purchaseMint)) {adminAddr : Addr}
    (hadm : X.api.addrHumanize s₀.admin = .ok adminAddr) (buyer : Outsider P)
    (ρs : List (Reaction P)) :
    (machine X P).transact w [⟨.third buyer, .wasm (.execute a w.dealerHash b funds)⟩] ρs = some w' ↔
      ∃ c ρ₁ ρ₂ ρ₃ ρs' r st, ρs = ρ₁ :: ρ₂ :: ρ₃ :: ρs' ∧ funds = [c] ∧
        Dealer.checkFunds s₀.prices c = .ok () ∧
        X.impl.execute (ρ₃.env ⟨P.child, w.childHash⟩) { sender := P.dealer, funds := [] }
          (Dealer.mintNftMsg buyer.addr s₀.metadata) w.child = (.ok r, st) ∧
        (machine X P).transact
          { w with
            child := st,
            log := w.log ++ (⟨buyer, c⟩ : Purchase P).entries adminAddr s₀.metadata }
          (mailFrom .child r) ρs' = some w' := by
  constructor
  · intro hcommits
    obtain ⟨ρ₁, ρs₁, w₁, out₁, rfl, hh₁, ht⟩ := Machine.transact_cons_iff.mp hcommits
    obtain ⟨c, rfl, hck, rfl, rfl⟩ := (hl.purchase_handled ha hmsg hadm buyer).mp hh₁
    obtain ⟨ρ₂, ρs₂, w₂, out₂, rfl, hh₂, ht⟩ := Machine.transact_cons_iff.mp ht
    obtain ⟨rfl, rfl⟩ := (sendFunds_handled ρ₂).mp hh₂
    rw [hsync] at ht
    obtain ⟨ρ₃, ρs', w₃, out₃, rfl, hh₃, ht⟩ := Machine.transact_cons_iff.mp ht
    obtain ⟨_, r, st, hcall, rfl, rfl⟩ := (mint_handled_iff hT).mp hh₃
    refine ⟨c, ρ₁, ρ₂, ρ₃, ρs', r, st, rfl, rfl, hck, hcall, ?_⟩
    have hmints := Purchase.mintsOf_eq (x := ⟨buyer, c⟩) hX hcall
    rw [hmints] at ht
    simpa [Purchase.entries] using ht
  · intro hcommits
    obtain ⟨c, ρ₁, ρ₂, ρ₃, ρs', r, st, rfl, rfl, hck, hcall, ht⟩ := hcommits
    have hmints := Purchase.mintsOf_eq (x := ⟨buyer, c⟩) hX hcall
    refine Machine.transact_cons_iff.mpr ⟨ρ₁, _, _, _, rfl,
      (hl.purchase_handled ha hmsg hadm buyer).mpr ⟨c, rfl, hck, rfl, rfl⟩, ?_⟩
    refine Machine.transact_cons_iff.mpr ⟨ρ₂, _, _, _, rfl,
      (sendFunds_handled ρ₂).mpr ⟨rfl, rfl⟩, ?_⟩
    rw [hsync]
    refine Machine.transact_cons_iff.mpr ⟨ρ₃, _, _, _, rfl,
      (mint_handled_iff hT).mpr ⟨rfl, r, st, hcall, rfl, rfl⟩, ?_⟩
    rw [hmints]
    simpa [Purchase.entries] using ht

/-- In every world that a run reaches, a purchase that an outsider sends to the dealer commits
exactly when one coin came with it that passes the checks, the child takes the mint, and so do the
receivers that the child calls. It has then done one sale. -/
theorem purchase_commits_iff (hX : X.Documented) (hT : X.Tagged) {d : Deployment P}
    (hd : d.deploy = some w) :
    ∃ A raw adminAddr, Dealer.trueAdmin X d.info d.msg = .ok A ∧
      X.api.addrCanonicalize A = .ok raw ∧ X.api.addrHumanize raw = .ok adminAddr ∧
      ∀ ts w₁, (machine X P).run w ts = w₁ →
      ∀ (buyer : Outsider P) a b funds ρs w', X.api.addrCanonicalize a = .ok P.dealerRaw →
        Dealer.visitBytes X b = .ok (.dealer .purchaseMint) →
        ((machine X P).transact w₁
            [⟨.third buyer, .wasm (.execute a w₁.dealerHash b funds)⟩] ρs = some w' ↔
          ∃ c ρ₁ ρ₂ ρ₃ ρs' r st, ρs = ρ₁ :: ρ₂ :: ρ₃ :: ρs' ∧ funds = [c] ∧
            Dealer.checkFunds d.msg.prices c = .ok () ∧
            X.impl.execute (ρ₃.env ⟨P.child, w₁.childHash⟩) { sender := P.dealer, funds := [] }
              (Dealer.mintNftMsg buyer.addr ⟨d.msg.publicMetadata, d.msg.privateMetadata⟩)
              w₁.child = (.ok r, st) ∧
            (machine X P).transact
              { w₁ with
                child := st,
                log := w₁.log ++ (⟨buyer, c⟩ : Purchase P).entries adminAddr
                  ⟨d.msg.publicMetadata, d.msg.privateMetadata⟩ }
              (mailFrom .child r) ρs' = some w') := by
  obtain ⟨s, hs⟩ := deploy_holds hX hT hd
  obtain ⟨adminAddr, hadm⟩ := hs.admin_humanizes
  obtain ⟨A, hA, hraw, _⟩ := hs.admin
  refine ⟨A, s.admin, adminAddr, hA, hraw, hadm, ?_⟩
  rintro ts _ rfl buyer a b funds ρs w' ha hmsg
  rw [← hs.prices, ← hs.metadata]
  cases hs.run_routed hX hT ts with
  | linked hl hsync _ => exact hl.purchase_transact hX hT hsync ha hmsg hadm buyer ρs

/-! ## Migrations of the child -/

theorem Linked.child_migrate_handled (hX : X.Documented) {h : String} (hl : Linked P s₀ s w h)
    (ha : X.api.addrCanonicalize a = .ok P.childRaw) {codeId : Nat} :
    handle w ⟨o, .wasm (.migrate a codeId codeHash b)⟩ ρ = some (w', out) ↔
      w.childAdmin = some o.addr ∧ X.json.fromSlice Empty.codec b = some {} ∧
        w' = { w with childHash := codeHash } ∧ out = [childAnnouncement w' P.dealer h] := by
  have hinfo : X.cw.intoHumanized ⟨P.dealerRaw, h⟩ = .ok ⟨P.dealer, h⟩ := by
    rw [hX.cw.intoHumanized, P.dealer_humanize]
    rfl
  simp only [handle, resolve_child.mpr ha, migrateChild]
  constructor
  · intro hh
    split at hh
    · rename_i hadm
      split at hh
      · cases hh
      · rename_i hempty
        split at hh
        · cases hh
        · rename_i r st hcall
          cases hh
          obtain ⟨rfl, cs, hcs, hr⟩ := (Migratable.migrate_ok hX.cw hl.childRegistry).mp hcall
          obtain ⟨i, cs', hi, hcs', rfl⟩ := List.forall₂_cons_left_iff.mp hcs
          obtain rfl := List.forall₂_nil_left_iff.mp hcs'
          cases hinfo.symm.trans hi
          refine ⟨hadm, hempty, rfl, ?_⟩
          rw [mailFrom, hr]
          rfl
    · cases hh
  · intro hh
    obtain ⟨hadm, hempty, rfl, rfl⟩ := hh
    have hcall : Migratable.migrate X (ρ.env ⟨P.child, codeHash⟩) w.child =
        (.ok ⟨[X.cw.notify X.json .never 0 ⟨P.child, codeHash⟩ none ⟨P.dealer, h⟩]⟩, w.child) :=
      (Migratable.migrate_ok hX.cw hl.childRegistry).mpr
        ⟨rfl, [⟨P.dealer, h⟩], .cons hinfo .nil, rfl⟩
    rw [if_pos hadm, hempty, hcall]
    rfl

/-- The dealer hears of a migrated child if it is addressed by its current code hash. -/
theorem Linked.announcement_heard (hX : X.Documented) (hT : X.Tagged) {h h' : String}
    (hl : Linked P s₀ s w h') :
    (∃ w' out, handle w (childAnnouncement w P.dealer h) ρ = some (w', out)) ↔
      h = w.dealerHash := by
  have hread : Dealer.visitBytes X (X.cw.notification X.json ⟨P.child, w.childHash⟩ none) =
      .ok (.migrateListener (.migrationCompleteNotification ⟨P.child, w.childHash⟩ none)) :=
    Dealer.visitBytes_toBytes hT (.migrateListener _)
  constructor
  · intro hheard
    obtain ⟨w', out, hh⟩ := hheard
    exact ((handle_dealer P.dealer_canonicalize hread).mp hh).1
  · rintro rfl
    have hsender : X.api.addrCanonicalize P.child = .ok s.child.address := by
      rw [hl.address]
      exact P.child_canonicalize
    obtain ⟨st, hcall⟩ : ∃ st, Dealer.updateChildSnip721 X { sender := P.child, funds := [] }
        ⟨P.child, w.childHash⟩ w.dealer = (.ok Response.new, st) :=
      Dealer.updateChildSnip721_accepts hX.cw hl.holds hsender P.child_canonicalize
    exact ⟨_, _, (handle_dealer P.dealer_canonicalize hread).mpr ⟨rfl, _, st, hcall, rfl, rfl⟩⟩

/-- A child that knows the dealer's code hash migrates, and the two know each other afterwards. -/
theorem Linked.child_migrates (hX : X.Documented) (hT : X.Tagged)
    (hl : Linked P s₀ s w w.dealerHash) (ha : X.api.addrCanonicalize a = .ok P.childRaw)
    {codeId : Nat} (hadm : w.childAdmin = some o.addr)
    (hempty : X.json.fromSlice Empty.codec b = some {}) {ρs : List (Reaction P)}
    (hlength : ρs.length = 2) :
    ∃ w' s', (machine X P).transact w [⟨o, .wasm (.migrate a codeId codeHash b)⟩] ρs = some w' ∧
      Linked P s₀ s' w' w'.dealerHash ∧ s'.child.codeHash = w'.childHash := by
  have hl₁ : Linked P s₀ s { w with childHash := codeHash } w.dealerHash := { hl with }
  obtain ⟨ρ₁, ρ₂, rfl⟩ := List.length_eq_two.mp hlength
  obtain ⟨w₂, out₂, hh₂⟩ := (hl₁.announcement_heard (ρ := ρ₂) hX hT).mpr rfl
  obtain ⟨rfl, st, s', rfl, hl₂, hsync⟩ := announced_effect hX hT hl₁ P.dealer_canonicalize
    (delivery_effect hX hl₁.holds hl₁.childRegistry hh₂)
  refine ⟨_, s', Machine.transact_cons_iff.mpr ⟨ρ₁, _, _, _, rfl,
    (hl.child_migrate_handled hX ha).mpr ⟨hadm, hempty, rfl, rfl⟩, ?_⟩, hl₂, hsync⟩
  exact Machine.transact_cons_iff.mpr ⟨ρ₂, _, _, _, rfl, hh₂, Machine.transact_nil.mpr ⟨rfl, rfl⟩⟩

/-- A migration of the child by its chain-level admin. -/
theorem Linked.child_migrate_transact (hX : X.Documented) (hT : X.Tagged) {h : String}
    (hl : Linked P s₀ s w h) (ha : X.api.addrCanonicalize a = .ok P.childRaw) {codeId : Nat}
    (hadm : w.childAdmin = some o.addr) (ρs : List (Reaction P)) :
    (∃ w', (machine X P).transact w [⟨o, .wasm (.migrate a codeId codeHash b)⟩] ρs = some w') ↔
      X.json.fromSlice Empty.codec b = some {} ∧ h = w.dealerHash ∧ ρs.length = 2 := by
  have hl₁ : Linked P s₀ s { w with childHash := codeHash } h := { hl with }
  constructor
  · intro hcommits
    obtain ⟨w', ht⟩ := hcommits
    obtain ⟨ρ₁, ρs₁, w₁, out₁, rfl, hh₁, ht⟩ := Machine.transact_cons_iff.mp ht
    obtain ⟨_, hempty, rfl, rfl⟩ := (hl.child_migrate_handled hX ha).mp hh₁
    obtain ⟨ρ₂, ρs₂, w₂, out₂, rfl, hh₂, ht⟩ := Machine.transact_cons_iff.mp ht
    have hheard := (hl₁.announcement_heard hX hT).mp ⟨w₂, out₂, hh₂⟩
    obtain ⟨rfl, _⟩ := announced_effect hX hT hl₁ P.dealer_canonicalize
      (delivery_effect hX hl₁.holds hl₁.childRegistry hh₂)
    obtain ⟨rfl, _⟩ := Machine.transact_nil.mp ht
    exact ⟨hempty, hheard, rfl⟩
  · intro hcommits
    obtain ⟨hempty, rfl, hlength⟩ := hcommits
    obtain ⟨w', _, ht, _⟩ := hl.child_migrates hX hT ha hadm hempty hlength
    exact ⟨w', ht⟩

/-- In every world that a run reaches the child has one subscriber, the dealer under some code
hash. Its chain-level admin can migrate it, with a message that is read as `Empty`, exactly while
that is the dealer's current one. -/
theorem child_migration_commits_iff (hX : X.Documented) (hT : X.Tagged) {d : Deployment P}
    (hd : d.deploy = some w) (ts : List (List (Outsider P × CosmosMsg) × List (Reaction P)))
    {w₁ : World} (hw₁ : (machine X P).run w ts = w₁) :
    ∃ h, X.cw.subscribers w₁.child = [⟨P.dealerRaw, h⟩] ∧
      ∀ (admin : Outsider P) a codeId codeHash b ρs, w₁.childAdmin = some admin.addr →
        X.api.addrCanonicalize a = .ok P.childRaw →
        ((∃ w', (machine X P).transact w₁
            [⟨.third admin, .wasm (.migrate a codeId codeHash b)⟩] ρs = some w') ↔
          X.json.fromSlice Empty.codec b = some {} ∧ h = w₁.dealerHash ∧ ρs.length = 2) := by
  subst hw₁
  obtain ⟨s, hs⟩ := deploy_holds hX hT hd
  cases hs.run_routed hX hT ts with
  | @linked _ _ s' h hl _ _ =>
    refine ⟨h, CwMigratable.subscribers_of_registry hl.childRegistry, ?_⟩
    intro admin a codeId codeHash b ρs hadm ha
    exact hl.child_migrate_transact (o := .third admin) hX hT ha hadm ρs

end

/-! ## Two worlds -/

section

open Reference Reference.Chain

/-- A purchase in the world right after the deployment. -/
theorem purchase_commits_iff_chain :
    ∃ c r st, [Sale.price] = [c] ∧ Dealer.checkFunds deployment.msg.prices c = .ok () ∧
      crates.impl.execute (silent.env ⟨parties.child, world.childHash⟩)
        { sender := parties.dealer, funds := [] }
        (Dealer.mintNftMsg buyer.addr
          ⟨deployment.msg.publicMetadata, deployment.msg.privateMetadata⟩) world.child =
            (.ok r, st) := by
  have hcommits : ((machine crates parties).transact world
      [⟨.third buyer, purchase "dealer_v1" [Sale.price]⟩] [silent, silent, silent]).isSome := by
    decide +kernel
  obtain ⟨w', hw'⟩ := Option.isSome_iff_exists.mp hcommits
  have hhash : world.dealerHash = "dealer_v1" := by decide +kernel
  obtain ⟨_, _, _, _, _, _, hruns⟩ := purchase_commits_iff crates_documented crates_tagged deploy_eq
  have hiff := hruns [] world (Machine.run_nil world) buyer "dealer" _ [Sale.price]
    [silent, silent, silent] w'
    parties.dealer_canonicalize (Dealer.visitBytes_toBytes crates_tagged (.dealer .purchaseMint))
  rw [hhash] at hiff
  obtain ⟨c, _, _, _, _, r, st, hρs, hc, hck, hcall, _⟩ := hiff.mp hw'
  cases hρs
  exact ⟨c, r, st, hc, hck, hcall⟩

/-- A run that leaves the child with an old code hash of the dealer. -/
def interrupted : List (List (Outsider parties × CosmosMsg) × List (Reaction parties)) :=
  migrations { silent with sends := [(tracker, migrate "dealer" "dealer_v3")] }
    [silent, silent, silent, silent]

theorem interrupted_world :
    let w := (machine crates parties).run world interrupted
    w.dealerHash = "dealer_v3" ∧ w.dealerAdmin = some "tracker" ∧
      crates.cw.subscribers w.dealer = [⟨parties.childRaw, "child_v2"⟩, ⟨tracker.raw, "tracker_v1"⟩,
        ⟨parties.childRaw, "child_v2"⟩] ∧
      w.childHash = "child_v2" ∧ w.childAdmin = some "seller" ∧
      crates.cw.subscribers w.child = [⟨parties.dealerRaw, "dealer_v2"⟩] := by
  decide +kernel

/-- After that run the child cannot be migrated any more. -/
theorem child_migration_commits_iff_interrupted :
    ¬ ∃ w', (machine crates parties).transact ((machine crates parties).run world interrupted)
      [⟨.third seller, migrate "child" "child_v3"⟩] [silent, silent] = some w' := by
  obtain ⟨h, hsubs, hruns⟩ :=
    child_migration_commits_iff crates_documented crates_tagged deploy_eq interrupted rfl
  obtain ⟨hcur, _, _, _, hadm, hold⟩ := interrupted_world
  rw [migrate, hruns seller "child" 7 "child_v3" emptyMsg [silent, silent] hadm
    parties.child_canonicalize]
  rintro ⟨_, hcommits, _⟩
  cases hold.symm.trans hsubs
  rw [hcur] at hcommits
  exact absurd hcommits (by decide)

end

end Snip721Migratable
