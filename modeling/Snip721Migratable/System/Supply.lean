import Snip721Migratable.System.Completion

/-!
# System.Supply

Which tokens a child has at all. The dealer is the child's only minter after the deployment, and
only the admin could name another one. While the admin does not use its rights, every token of the
child was sold by the dealer, and the books hold nothing but sales.

* `RightsUnused` : the next message is none with which the admin changes rights.
* `Supplied` : the invariant of the child.
* `only_sold_tokens_exist` : the runs in which the admin does not use its rights.
-/

namespace Snip721Migratable

section

variable {X : Crates} {P : Parties X}

/-- The next message does not change the minters or the admin of the child in the name of `admin`. -/
def RightsUnused (admin : CanonicalAddr) (c : World × List (Mail P)) : Prop :=
  ∀ m ms b funds msg, c.2 = m :: ms → m.origin.raw = admin → m.Calls P.childRaw b funds →
    Migratable.visitBytes X b = .ok (.base msg) → ¬ msg.SetsRights

structure Supplied (admin : CanonicalAddr) (c : World × List (Mail P)) : Prop where
  minters : X.impl.minters c.1.child = [P.dealerRaw]
  admin : X.impl.admin c.1.child = some admin
  entries : ∀ e ∈ c.1.log, e.ofDealer P

variable {d : Deployment P} {s₀ : Dealer.State} {admin : CanonicalAddr} {w w' : World} {m : Mail P}
  {ms out : List (Mail P)} {ρ : Reaction P}

/-! ## The deployment -/

/-- The dealer is the only minter of a child that was just deployed. -/
theorem deploy_minters (hX : X.Documented) (hT : X.Tagged) (hG : X.impl.Guarded X.api)
    (h : d.deploy = some w) : X.impl.minters w.child = [P.dealerRaw] := by
  obtain ⟨r, st₀, A, rc, ch, hinst, _, hchild, _, hreply⟩ := (deploy_phases hX).mp h
  obtain ⟨_, _, _, _, _, _, ha, hp, hm, hh, hreg⟩ := Dealer.instantiate_ok hinst
  obtain ⟨hchreg, hbase⟩ := Migratable.instantiate_ok hX hchild
  obtain ⟨_, _, _, rfl, _, _, _, hminters, _⟩ := replyDealer_ok hX hT ha hp hm hh hreg hchreg hreply
  obtain ⟨raw, hraw, hsole⟩ := hG.instantiate (a := P.dealer) rfl hbase
  cases P.dealer_canonicalize.symm.trans hraw
  exact hminters.trans hsole

/-! ## Runs -/

/-- What leaves the rights and the tokens of the child alone. -/
theorem Supplied.keep (hs : Supplied admin (w, m :: ms))
    (hminters : X.impl.minters w'.child = X.impl.minters w.child)
    (hadmin : X.impl.admin w'.child = X.impl.admin w.child) {new : List Entry}
    (hlog : w'.log = w.log ++ new) (hnew : ∀ e ∈ new, e.ofDealer P) :
    Supplied admin (w', out ++ ms) where
  minters := hminters.trans hs.minters
  admin := hadmin.trans hs.admin
  entries := by
    intro e he
    simp only [hlog] at he
    rcases List.mem_append.mp he with he | he
    · exact hs.entries e he
    · exact hnew e he

theorem Supplied.delivered (hX : X.Documented) (hT : X.Tagged) (hG : X.impl.Guarded X.api)
    (hc : Routed s₀ (w, m :: ms)) (hs : Supplied admin (w, m :: ms))
    (hu : RightsUnused admin (w, m :: ms)) (hh : handle w m ρ = some (w', out)) :
    Supplied admin (w', out ++ ms) := by
  have hsame : w.log = w.log ++ [] := by simp
  obtain ⟨s, h, hl, he, _, _ | ⟨a, ha, rfl⟩⟩ := hc.effect hX hh
  · cases he with
    | transferred =>
      refine hs.keep rfl rfl rfl ?_
      cases m.origin with
      | dealer => simp [paymentsOf, Entry.ofDealer]
      | child => simp [paymentsOf]
      | third o => simp [paymentsOf]
    | purchased => exact hs.keep rfl rfl rfl (by simp [Entry.ofDealer])
    | subscribed => exact hs.keep rfl rfl hsame (by simp)
    | heard => exact hs.keep rfl rfl hsame (by simp)
    | @base b funds msg r st hcalls hmsg hbase _ =>
      have htokens : ∀ e ∈ (X.impl.mints (ρ.env ⟨P.child, w.childHash⟩)
          { sender := m.origin.addr, funds } msg w.child).map Entry.minted, e.ofDealer P := by
        intro e he
        obtain ⟨t, ht, rfl⟩ := List.mem_map.mp he
        have hminter := hG.mints hbase t ht
        rw [hs.minters, List.mem_singleton] at hminter
        simp [Entry.ofDealer, hminter]
      rcases hG.rights hbase with ⟨hminters, hadmin⟩ | ⟨hsets, sender, hsender, hadmin⟩
      · exact hs.keep hminters hadmin rfl htokens
      · -- the admin, which does not use its rights
        cases m.origin.canonicalize_addr.symm.trans hsender
        rw [hs.admin] at hadmin
        exact (hu m ms b funds msg rfl (Option.some.inj hadmin).symm hcalls hmsg hsets).elim
    | childSubscribed _ _ hadd =>
      rw [Registry.add_full rfl] at hadd
      cases hadd
    | childHeard _ _ _ _ _ hoff =>
      obtain ⟨hadmin, hminters⟩ := hX.impl.own_state hoff
      exact hs.keep hminters hadmin hsame (by simp)
    | dealerMigrated => exact hs.keep rfl rfl hsame (by simp)
    | childMigrated => exact hs.keep rfl rfl hsame (by simp)
    | elsewhere => exact hs.keep rfl rfl hsame (by simp)
  · obtain ⟨rfl, st, s', rfl, _, _⟩ := announced_effect hX hT hl ha he
    exact hs.keep rfl rfl hsame (by simp)

theorem Supplied.run (hX : X.Documented) (hT : X.Tagged) (hG : X.impl.Guarded X.api)
    (hc : Routed s₀ (w, ([] : List (Mail P)))) (hs : Supplied admin (w, ([] : List (Mail P))))
    (ts : List (List (Outsider P × CosmosMsg) × List (Reaction P)))
    (hclean : (machine X P).CleanRun (RightsUnused admin) w ts) :
    Supplied admin ((machine X P).run w ts, ([] : List (Mail P))) := by
  refine (Machine.run_inv (I := fun c => Routed s₀ c ∧ Supplied admin c)
    (J := fun w => Routed s₀ (w, ([] : List (Mail P))) ∧
      Supplied admin (w, ([] : List (Mail P))))
    (fun _ t hw => ⟨hw.1.start t, ⟨hw.2.minters, hw.2.admin, hw.2.entries⟩⟩) ?_ (fun _ hw => hw) ts w
    hclean ⟨hc, hs⟩).2
  rintro ρ c c' hu ⟨hc, hs⟩ hstep
  refine ⟨hc.advance hX hT hstep, ?_⟩
  obtain ⟨w, m, ms, w', out, rfl, hh, rfl⟩ := Machine.advance_eq_some.mp hstep
  exact hs.delivered hX hT hG hc hu hh

/-- While the admin does not use its rights, the dealer stays the only minter of its child, and
everything in the books, the tokens of the child included, belongs to a complete sale. -/
theorem only_sold_tokens_exist (hX : X.Documented) (hT : X.Tagged) (hG : X.impl.Guarded X.api)
    {d : Deployment P} (hd : d.deploy = some w) :
    ∃ A raw adminAddr, Dealer.trueAdmin X d.info d.msg = .ok A ∧
      X.api.addrCanonicalize A = .ok raw ∧ X.api.addrHumanize raw = .ok adminAddr ∧
      ∀ ts, (machine X P).CleanRun (RightsUnused raw) w ts →
        X.impl.minters ((machine X P).run w ts).child = [P.dealerRaw] ∧
        X.impl.admin ((machine X P).run w ts).child = some raw ∧
        ∃ sold : List (Purchase P),
          (∀ x ∈ sold, Dealer.checkFunds d.msg.prices x.coin = .ok ()) ∧
          ((machine X P).run w ts).log =
            sold.flatMap (Purchase.entries adminAddr
              ⟨d.msg.publicMetadata, d.msg.privateMetadata⟩) := by
  obtain ⟨s, hs⟩ := deploy_holds hX hT hd
  obtain ⟨adminAddr, hadm⟩ := hs.admin_humanizes
  obtain ⟨A, hA, hraw, hadmin, _⟩ := hs.admin
  refine ⟨A, s.admin, adminAddr, hA, hraw, hadm, fun ts hclean => ?_⟩
  have hsupplied : Supplied s.admin (w, ([] : List (Mail P))) :=
    ⟨deploy_minters hX hT hG hd, hadmin, by simp [hs.log]⟩
  have hend := hsupplied.run hX hT hG hs.routed ts hclean
  have hselling : Selling s adminAddr [] (w, ([] : List (Mail P))) :=
    .idle [] (by simp) (by simp [hs.log, dealerEntries]) (by simp)
  have hsold := hselling.run hX hT hadm hs.routed ts
  have hall : dealerEntries P ((machine X P).run w ts).log = ((machine X P).run w ts).log :=
    List.filter_eq_self.mpr hend.entries
  refine ⟨hend.minters, hend.admin, ?_⟩
  rw [← hs.prices, ← hs.metadata, ← hall]
  cases hsold with
  | idle sold hfair hlog _ => exact ⟨sold, hfair, hlog⟩

end

section

open Reference Reference.Chain

/-- Messages of the seller that only migrate. -/
def sellerMigrates (c : World × List (Mail parties)) : Bool :=
  match c.2 with
  | [] => true
  | ⟨_, .wasm (.migrate ..)⟩ :: _ => true
  | ⟨origin, _⟩ :: _ => origin.raw ≠ Json.stringBytes "seller"

theorem rightsUnused_of_sellerMigrates (c : World × List (Mail parties))
    (h : sellerMigrates c = true) : RightsUnused (Json.stringBytes "seller") c := by
  rintro m ms b funds msg hc horig ⟨a, codeHash, _, hb⟩ _
  obtain ⟨origin, body⟩ := m
  obtain ⟨w, ms'⟩ := c
  cases hc
  cases hb
  simp only [sellerMigrates, ne_eq, decide_eq_true_eq] at h
  exact (h horig).elim

theorem only_sold_tokens_exist_chain :
    crates.impl.minters ((machine crates parties).run world sales).child = [parties.dealerRaw] ∧
    ∃ adminAddr, ∃ sold : List (Purchase parties),
      ((machine crates parties).run world sales).log =
        sold.flatMap (Purchase.entries adminAddr
          ⟨deployment.msg.publicMetadata, deployment.msg.privateMetadata⟩) := by
  obtain ⟨A, raw, adminAddr, hA, hraw, _, hruns⟩ :=
    only_sold_tokens_exist crates_documented crates_tagged impl_guarded deploy_eq
  cases hA
  cases hraw.symm.trans (canonicalize_ok (by decide))
  obtain ⟨hminters, _, sold, _, hlog⟩ := hruns sales
    (Machine.cleanRun_of_check rightsUnused_of_sellerMigrates _ _ (by decide +kernel))
  exact ⟨hminters, adminAddr, sold, hlog⟩

end

end Snip721Migratable
