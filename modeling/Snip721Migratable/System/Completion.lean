import Snip721Migratable.Migratable.Layers
import Snip721Migratable.System.Availability

/-!
# System.Completion

When the transaction goes through that creates a dealer and its child. The dealer asks for a price
and a usable admin address. All the rest is up to the base contract: it has to accept the
instantiate message that the dealer writes for the child, and the change of its admin afterwards.

* `deploy_phases` : the transaction, phase by phase.
* `reply_transact` : the delivery of the two messages of the reply.
* `deploy_commits_iff` : the condition.
-/

namespace Snip721Migratable

section

variable {X : Crates} {P : Parties X} {d : Deployment P} {w w' : World}

theorem instantiateChild_eq_some {codeHash : String} {funds : List Coin} {r : Response} {st : Store} :
    d.instantiateChild codeHash
        (X.json.render ((Dealer.childInstantiateMsg d.dealerEnv d.msg).toJson X.impl)) funds =
          some (r, st) ↔
      Migratable.instantiate X (d.env ⟨P.child, codeHash⟩) { sender := P.dealer, funds }
        ⟨(Dealer.childInstantiateMsg d.dealerEnv d.msg).instantiate, 1⟩ Store.empty = (.ok r, st) := by
  unfold Deployment.instantiateChild
  rw [childMsg_decodes]
  simp only
  constructor
  · intro h
    split at h
    · cases h
    · rename_i hinst
      cases h
      exact hinst
  · intro h
    rw [h]

/-- The world in which the dealer gets the reply. -/
def Deployment.created (d : Deployment P) (dealer child : Store) (admin : Addr) : World where
  dealer := dealer
  dealerHash := d.dealerHash
  dealerAdmin := d.dealerAdmin
  child := child
  childHash := d.msg.snip721CodeHash
  childAdmin := some admin
  log := []

theorem deploy_phases (hX : X.Documented) :
    d.deploy = some w ↔ ∃ r st₀ admin rc ch,
      Dealer.instantiate X d.dealerEnv d.info d.msg Store.empty = (.ok r, st₀) ∧
      Dealer.trueAdmin X d.info d.msg = .ok admin ∧
      Migratable.instantiate X (d.env ⟨P.child, d.msg.snip721CodeHash⟩)
        { sender := P.dealer, funds := [] }
        ⟨(Dealer.childInstantiateMsg d.dealerEnv d.msg).instantiate, 1⟩ Store.empty = (.ok rc, ch) ∧
      d.childReactions = [] ∧
      d.replyDealer (d.created st₀ ch admin) Dealer.instantiateSnip721ReplyId = some w := by
  unfold Deployment.deploy
  constructor
  · intro h
    split at h
    · cases h
    · rename_i r st₀ hinst
      obtain ⟨_, admin, _, hadm, _, hr, _⟩ := Dealer.instantiate_ok hinst
      simp only [hr, SubMsg.replyOnSuccess, Dealer.instantiateChildMsg] at h
      split at h
      · cases h
      · rename_i rc ch hchild
        obtain ⟨hrc, _⟩ := instantiateChild_ok hX hchild
        split at h
        · cases h
        · rename_i w₂ ht
          rw [mailFrom, hrc] at ht
          obtain ⟨hreactions, rfl⟩ := Machine.transact_nil.mp ht
          exact ⟨r, st₀, admin, rc, ch, hinst, hadm, instantiateChild_eq_some.mp hchild, hreactions, h⟩
  · intro h
    obtain ⟨r, st₀, admin, rc, ch, hinst, hadm, hchild, hreactions, hreply⟩ := h
    obtain ⟨_, admin', _, hadm', _, hr, _⟩ := Dealer.instantiate_ok hinst
    cases hadm.symm.trans hadm'
    have hchild' := instantiateChild_eq_some.mpr hchild
    obtain ⟨hrc, _⟩ := instantiateChild_ok hX hchild'
    have hnone : ∀ w : World, (machine X P).transact w (mailFrom .child rc) d.childReactions =
        some w := by
      intro w
      rw [mailFrom, hrc, hreactions]
      rfl
    simp only [hinst, hr, SubMsg.replyOnSuccess, Dealer.instantiateChildMsg, hchild', hnone]
    exact hreply

/-- The two messages of the reply, when the child's one slot is free. -/
theorem reply_transact (hX : X.Documented) (hT : X.Tagged) {admin : Addr} {ρs : List (Reaction P)}
    (hreg : X.cw.registry w.child = some { entries := [], slots := some 1 }) :
    (∃ w', (machine X P).transact w (mailFrom .dealer
        ⟨Dealer.replyMessages X d.dealerEnv P.child w.childHash admin⟩) ρs = some w') ↔
      (∃ a, X.api.addrValidate P.dealer = .ok a) ∧ ∃ ρ₁ ρ₂ r₁ st₁ r₂ st₂, ρs = [ρ₁, ρ₂] ∧
        Migratable.execute X (ρ₁.env ⟨P.child, w.childHash⟩) { sender := P.dealer, funds := [] }
          (.migrate (.subscribeToMigrationCompleteEvent P.dealer d.dealerHash)) w.child =
            (.ok r₁, st₁) ∧
        X.impl.execute (ρ₂.env ⟨P.child, w.childHash⟩) { sender := P.dealer, funds := [] }
          (.changeAdmin admin none) st₁ = (.ok r₂, st₂) := by
  have hsubscribe : Migratable.visitBytes X (X.json.toBytes X.cw.migratableExecuteMsg.codec
      (.subscribeToMigrationCompleteEvent P.dealer d.dealerHash)) =
        .ok (.migrate (.subscribeToMigrationCompleteEvent P.dealer d.dealerHash)) :=
    Migratable.visitBytes_toBytes hT (.migrate _)
  have hchange : Migratable.visitBytes X (X.json.toBytes X.impl.executeMsg.codec
      (.changeAdmin admin none)) = .ok (.base (.changeAdmin admin none)) :=
    Migratable.visitBytes_toBytes hT (.base _)
  constructor
  · intro hcommits
    obtain ⟨w', ht⟩ := hcommits
    obtain ⟨ρ₁, ρs₁, w₁, out₁, rfl, hh₁, ht⟩ := Machine.transact_cons_iff.mp ht
    obtain ⟨_, r₁, st₁, hcall₁, rfl, rfl⟩ :=
      (handle_child P.child_canonicalize hsubscribe).mp hh₁
    obtain ⟨hr₁, _, valid, _, _, hvalid, _⟩ := hX.cw.register_ok hreg hcall₁
    rw [mailFrom, hr₁] at ht
    obtain ⟨ρ₂, ρs₂, w₂, out₂, rfl, hh₂, ht⟩ := Machine.transact_cons_iff.mp ht
    obtain ⟨_, r₂, st₂, hcall₂, rfl, rfl⟩ := (handle_child P.child_canonicalize hchange).mp hh₂
    have hr₂ := (hX.impl.changeAdmin hcall₂).1
    rw [mailFrom, hr₂] at ht
    obtain ⟨rfl, _⟩ := Machine.transact_nil.mp ht
    exact ⟨⟨valid, hvalid⟩, ρ₁, ρ₂, r₁, st₁, r₂, st₂, rfl, hcall₁, hcall₂⟩
  · rintro ⟨_, ρ₁, ρ₂, r₁, st₁, r₂, st₂, rfl, hcall₁, hcall₂⟩
    have hr₁ := (hX.cw.register_ok hreg hcall₁).1
    have hr₂ := (hX.impl.changeAdmin hcall₂).1
    have hh₁ := (handle_child (w := w) (o := .dealer) P.child_canonicalize hsubscribe).mpr
      ⟨rfl, r₁, st₁, hcall₁, rfl, rfl⟩
    have hh₂ := (handle_child (o := .dealer) (w := { w with child := st₁, log := w.log ++ [] })
      P.child_canonicalize hchange).mpr ⟨rfl, r₂, st₂, hcall₂, rfl, rfl⟩
    rw [mailFrom, hr₁] at hh₁
    rw [mailFrom, hr₂] at hh₂
    exact ⟨_, Machine.transact_cons_iff.mpr ⟨ρ₁, _, _, _, rfl, hh₁,
      Machine.transact_cons_iff.mpr ⟨ρ₂, _, _, _, rfl, hh₂, Machine.transact_nil.mpr ⟨rfl, rfl⟩⟩⟩⟩

/-- The base contract can be set up with the dealer as its admin, and the dealer can then hand it
over to `admin`. -/
def Deployment.BaseAccepts (d : Deployment P) (ρ : Reaction P) (admin : Addr) : Prop :=
  ∃ r b r' b',
    X.impl.instantiate (d.env ⟨P.child, d.msg.snip721CodeHash⟩) { sender := P.dealer, funds := [] }
      (Dealer.childInstantiateMsg d.dealerEnv d.msg).instantiate Store.empty = (.ok r, b) ∧
    X.impl.execute (ρ.env ⟨P.child, d.msg.snip721CodeHash⟩) { sender := P.dealer, funds := [] }
      (.changeAdmin admin none) b = (.ok r', b')

theorem eqOn_of_eqOff {st st' b : Store} (hoff : Store.EqOff CwMigratable.keys st st')
    (h : Set.EqOn st b (CwMigratable.keySet)ᶜ) : Set.EqOn st' b (CwMigratable.keySet)ᶜ :=
  fun k hk => (hoff k hk).trans (h hk)

theorem replyDealer_eq_some {id : Nat} :
    d.replyDealer w id = some w' ↔ ∃ r st,
      Dealer.reply X d.dealerEnv (d.childReply id) w.dealer = (.ok r, st) ∧
      (machine X P).transact { w with dealer := st } (mailFrom .dealer r) d.replyReactions =
        some w' := by
  unfold Deployment.replyDealer
  constructor
  · intro h
    split at h
    · cases h
    · rename_i r st hreply
      exact ⟨r, st, hreply, h⟩
  · rintro ⟨r, st, hreply, ht⟩
    rw [hreply]
    exact ht

/-- What the dealer asks for, and the messages of its reply. -/
theorem Deployment.reply_messages (hX : X.Documented) {r r' : Response} {st₀ st : Store} {A : Addr}
    (hinst : Dealer.instantiate X d.dealerEnv d.info d.msg Store.empty = (.ok r, st₀))
    (hA : Dealer.trueAdmin X d.info d.msg = .ok A)
    (hrep : Dealer.reply X d.dealerEnv (d.childReply Dealer.instantiateSnip721ReplyId) st₀ =
      (.ok r', st)) :
    d.msg.prices ≠ [] ∧ ∃ raw admin, X.api.addrCanonicalize A = .ok raw ∧
      X.api.addrHumanize raw = .ok admin ∧
      r' = ⟨Dealer.replyMessages X d.dealerEnv P.child d.msg.snip721CodeHash admin⟩ := by
  obtain ⟨hprices, A', raw, hA', hraw, _, ha, hp, hm, hh, hreg⟩ := Dealer.instantiate_ok hinst
  cases hA.symm.trans hA'
  obtain ⟨result, contractAddress, child, _, admin, hres, haddr, hvalid, _, hhum, hr', _⟩ :=
    Dealer.reply_ok hX.cw ha hp hm hh hreg hrep
  cases hres
  cases d.reports.symm.trans haddr
  cases P.child_validate.symm.trans hvalid
  obtain ⟨messages⟩ := r'
  simp only at hr'
  subst hr'
  exact ⟨hprices, raw, admin, hraw, hhum, rfl⟩

/-- The child takes its instantiate message and the two messages of the reply if the base contract
alone takes what is meant for it. -/
theorem Deployment.child_accepts_iff (hX : X.Documented) (hsep : X.Separate) {ρ₁ ρ₂ : Reaction P}
    {admin : Addr} {a : Addr} (hdealer : X.api.addrValidate P.dealer = .ok a) :
    (∃ rc ch r₁ st₁ r₂ st₂,
      Migratable.instantiate X (d.env ⟨P.child, d.msg.snip721CodeHash⟩)
        { sender := P.dealer, funds := [] }
        ⟨(Dealer.childInstantiateMsg d.dealerEnv d.msg).instantiate, 1⟩ Store.empty = (.ok rc, ch) ∧
      Migratable.execute X (ρ₁.env ⟨P.child, d.msg.snip721CodeHash⟩)
        { sender := P.dealer, funds := [] }
        (.migrate (.subscribeToMigrationCompleteEvent P.dealer d.dealerHash)) ch = (.ok r₁, st₁) ∧
      X.impl.execute (ρ₂.env ⟨P.child, d.msg.snip721CodeHash⟩) { sender := P.dealer, funds := [] }
        (.changeAdmin admin none) st₁ = (.ok r₂, st₂)) ↔
      d.BaseAccepts ρ₂ admin := by
  have hnew := Migratable.newRegistry_eqOn X
    ⟨(Dealer.childInstantiateMsg d.dealerEnv d.msg).instantiate, 1⟩
  constructor
  · rintro ⟨rc, ch, r₁, st₁, r₂, st₂, hchild, hcall₁, hcall₂⟩
    have hoff := (hX.cw.register_ok (Migratable.instantiate_ok hX hchild).1 hcall₁).2.1
    rw [Migratable.instantiate_eq] at hchild
    obtain ⟨b, hbase, hb⟩ := (hsep.instantiate _ _ _).ok_congr hnew hchild
    obtain ⟨b', hcall, _⟩ := (hsep.execute _ _ _).ok_congr (eqOn_of_eqOff hoff hb) hcall₂
    exact ⟨rc, b, r₂, b', hbase, hcall⟩
  · rintro ⟨rc, b, r₂, b', hbase, hcall⟩
    obtain ⟨ch, hch, hb⟩ := (hsep.instantiate _ _ _).ok_congr hnew.symm hbase
    have hchild := (Migratable.instantiate_eq (d.env ⟨P.child, d.msg.snip721CodeHash⟩)
      { sender := P.dealer, funds := [] }
      ⟨(Dealer.childInstantiateMsg d.dealerEnv d.msg).instantiate, 1⟩).trans hch
    have hreg := (Migratable.instantiate_ok hX hchild).1
    -- the subscription of the dealer, which has the free slot
    obtain ⟨rfl, raw, hraw, _⟩ := hX.api.validate hdealer
    obtain ⟨st₁, hcall₁⟩ : ∃ st₁, X.cw.registerToNotifyOnMigrationComplete P.dealer d.dealerHash
        ch = (.ok Response.new, st₁) := hX.cw.register_run hreg hdealer hraw rfl
    have hoff := (hX.cw.register_ok hreg hcall₁).2.1
    obtain ⟨st₂, hcall₂, _⟩ :=
      (hsep.execute _ _ _).ok_congr (eqOn_of_eqOff hoff hb.symm).symm hcall
    exact ⟨rc, ch, Response.new, st₁, r₂, st₂, hchild, hcall₁, hcall₂⟩

/-- The transaction that creates a dealer and its child commits exactly when a price is given, the
admin has a usable address, and the base contract goes along with the dealer. -/
theorem deploy_commits_iff (hX : X.Documented) (hT : X.Tagged) (hsep : X.Separate)
    (d : Deployment P) :
    (∃ w, d.deploy = some w) ↔
      d.msg.prices ≠ [] ∧ d.childReactions = [] ∧ (∃ a, X.api.addrValidate P.dealer = .ok a) ∧
      ∃ A raw admin ρ₁ ρ₂, Dealer.trueAdmin X d.info d.msg = .ok A ∧
        X.api.addrCanonicalize A = .ok raw ∧ X.api.addrHumanize raw = .ok admin ∧
        d.replyReactions = [ρ₁, ρ₂] ∧ d.BaseAccepts ρ₂ admin := by
  constructor
  · rintro ⟨w, h⟩
    obtain ⟨r, st₀, A, rc, ch, hinst, hA, hchild, hreactions, hreply⟩ := (deploy_phases hX).mp h
    obtain ⟨r', st, hrep, ht⟩ := replyDealer_eq_some.mp hreply
    obtain ⟨hprices, raw, admin, hraw, hhum, rfl⟩ := d.reply_messages hX hinst hA hrep
    obtain ⟨⟨a, hdealer⟩, ρ₁, ρ₂, r₁, st₁, r₂, st₂, hρs, hcall₁, hcall₂⟩ :=
      (reply_transact hX hT (Migratable.instantiate_ok hX hchild).1).mp ⟨w, ht⟩
    have haccepts := (d.child_accepts_iff hX hsep hdealer).mp
      ⟨rc, ch, r₁, st₁, r₂, st₂, hchild, hcall₁, hcall₂⟩
    exact ⟨hprices, hreactions, ⟨a, hdealer⟩, A, raw, admin, ρ₁, ρ₂, hA, hraw, hhum, hρs, haccepts⟩
  · rintro ⟨hprices, hreactions, ⟨a, hdealer⟩, A, raw, admin, ρ₁, ρ₂, hA, hraw, hhum, hρs, haccepts⟩
    have hreported : Dealer.reportedChild (d.childReply Dealer.instantiateSnip721ReplyId) =
        some P.child := d.reports
    obtain ⟨st, r, st₀, r', hinst, hrep⟩ := Dealer.instantiated_of hX d.dealerEnv d.dealerEnv
      hprices hA hraw hhum rfl hreported P.child_validate
    obtain ⟨_, raw', admin', hraw', hhum', rfl⟩ := d.reply_messages hX hinst hA hrep
    cases hraw.symm.trans hraw'
    cases hhum.symm.trans hhum'
    obtain ⟨rc, ch, r₁, st₁, r₂, st₂, hchild, hcall₁, hcall₂⟩ :=
      (d.child_accepts_iff hX hsep hdealer).mpr haccepts
    obtain ⟨w, ht⟩ := (reply_transact (w := { d.created st₀ ch A with dealer := st }) hX hT
      (Migratable.instantiate_ok hX hchild).1).mpr
        ⟨⟨a, hdealer⟩, ρ₁, ρ₂, r₁, st₁, r₂, st₂, hρs, hcall₁, hcall₂⟩
    exact ⟨w, (deploy_phases hX).mpr ⟨r, st₀, A, rc, ch, hinst, hA, hchild, hreactions,
      replyDealer_eq_some.mpr ⟨_, st, hrep, ht⟩⟩⟩

end

section

open Reference Reference.Chain

theorem deploy_commits_iff_chain :
    ∃ admin ρ, (deployment.replyReactions[1]? = some ρ) ∧ deployment.BaseAccepts ρ admin := by
  obtain ⟨_, _, _, _, _, admin, ρ₁, ρ₂, _, _, _, hρs, haccepts⟩ :=
    (deploy_commits_iff crates_documented crates_tagged crates_separate deployment).mp
      ⟨world, deploy_eq⟩
  exact ⟨admin, ρ₂, by rw [hρs]; rfl, haccepts⟩

end

end Snip721Migratable
