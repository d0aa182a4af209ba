import Snip721Migratable.System.Routing

/-!
# System.Agreement

Whether a dealer and its child keep knowing each other, in every run of transactions.

* `KnowsChild` : the dealer's side. It holds after every run.
* `Fresh` : the child's side, inside a transaction: every announcement of the dealer that is still
  on its way to the child names the dealer's current code hash.
* `references_agree` : both sides agree after every run in which the dealer is never migrated
  while an announcement of another code hash waits at the child (`Orderly`).
* `stale_announcement_wins` : a run where that happens. A contract that is notified of the dealer's
  migration migrates it once more, and the child hears the older announcement last.
-/

namespace Snip721Migratable

section

variable {X : Crates} (P : Parties X)

/-- What the dealer knows about its child. -/
structure KnowsChild (w : World) : Prop where
  childAddress : X.items.childSnip721Address.load w.dealer = .ok P.childRaw
  childCodeHash : X.items.childSnip721CodeHash.load w.dealer = .ok w.childHash
  answer : Dealer.query X w.dealer .getChildSnip721 =
    .ok (X.json.render (Dealer.QueryAnswer.contractInfo ⟨P.child, w.childHash⟩).toJson)
  mint : ∀ {env info r st},
    Dealer.execute X env info (.dealer .purchaseMint) w.dealer = (.ok r, st) →
    ∃ pay metadata, r.messages = [SubMsg.new (.bank pay),
      SubMsg.new (.wasm (.execute P.child w.childHash (X.json.toBytes X.impl.executeMsg.codec
        (Dealer.mintNftMsg info.sender metadata)) []))]
  subscribed : ⟨P.childRaw, w.childHash⟩ ∈ X.cw.subscribers w.dealer

structure Agreement (w : World) : Prop extends KnowsChild P w where
  childSubscribers : X.cw.subscribers w.child = [⟨P.dealerRaw, w.dealerHash⟩]

variable {P}

/-- The announcement of the dealer's code hash `h` to the child. -/
def Mail.Announces (m : Mail P) (h : String) : Prop :=
  ∃ a codeHash, X.api.addrCanonicalize a = .ok P.childRaw ∧
    m = ⟨.dealer, (X.cw.notify X.json .never 0 ⟨P.dealer, h⟩ none ⟨a, codeHash⟩).msg⟩

/-- The next message does not migrate the dealer over an announcement of another code hash. -/
def Orderly (c : World × List (Mail P)) : Prop :=
  ∀ m ms codeHash, c.2 = m :: ms → m.Migrates P.dealerRaw codeHash →
    ∀ m' ∈ ms, ∀ h, m'.Announces h → h = codeHash

structure Fresh (c : World × List (Mail P)) : Prop where
  pending : ∀ m ∈ c.2, ∀ h, m.Announces h → h = c.1.dealerHash
  child : X.cw.subscribers c.1.child = [⟨P.dealerRaw, c.1.dealerHash⟩] ∨
    ∃ m ms h, c.2 = m :: ms ∧ m.Announces h

variable {s₀ s : Dealer.State} {w w' : World} {m : Mail P} {ms out : List (Mail P)}
  {ρ : Reaction P}

theorem Mail.Announces.read (hT : X.Tagged) {h : String} (ha : m.Announces h)
    {raw : CanonicalAddr} {b : Binary} {funds : List Coin} (hc : m.Calls raw b funds) :
    raw = P.childRaw ∧ Migratable.visitBytes X b =
      .ok (.migrateListener (.migrationCompleteNotification ⟨P.dealer, h⟩ none)) := by
  obtain ⟨a, codeHash, hraw, rfl⟩ := ha
  obtain ⟨a', codeHash', hraw', hb⟩ := hc
  cases hb
  exact ⟨Except.ok.inj (hraw'.symm.trans hraw), Migratable.visitBytes_toBytes hT (.migrateListener _)⟩

theorem Mail.Announces.calls {h : String} (ha : m.Announces h) :
    m.Calls P.childRaw (X.cw.notification X.json ⟨P.dealer, h⟩ none) [] := by
  obtain ⟨a, codeHash, hraw, rfl⟩ := ha
  exact ⟨a, codeHash, hraw, rfl⟩

theorem Mail.Announces.unique (hT : X.Tagged) {h h' : String} (ha : m.Announces h)
    (ha' : m.Announces h') : h = h' := by
  have hread := (ha.read hT ha'.calls).2
  have hread' := (ha'.read hT ha'.calls).2
  rw [hread] at hread'
  cases hread'
  rfl

/-! ## The dealer's side -/

theorem Routed.knowsChild (hc : Routed s₀ (w, ([] : List (Mail P)))) :
    KnowsChild P w := by
  cases hc with
  | @linked _ _ s h hl hsync _ =>
    have hchild : s.child = ⟨P.childRaw, w.childHash⟩ := by rw [← hl.address, ← hsync]
    have haddr := hl.holds.childAddress
    have hhash := hl.holds.childCodeHash
    rw [hchild] at haddr hhash
    refine ⟨haddr, hhash, ?_, ?_, ?_⟩
    · simp only [Dealer.query, Dealer.queryChildSnip721, loadItem_ok.mpr haddr,
        loadItem_ok.mpr hhash, P.child_humanize]
    · intro env info r st hcall
      obtain ⟨_, c, adminAddr, childAddr, _, _, _, hhum, hr⟩ :=
        (Dealer.purchaseAndMint_ok hl.holds).mp hcall
      rw [hl.address, P.child_humanize] at hhum
      cases hhum
      exact ⟨_, s.metadata, by rw [hr, Dealer.purchaseMessages, hsync]⟩
    · rw [CwMigratable.subscribers_of_registry hl.holds.registry, ← hchild]
      exact List.mem_of_mem_head? hl.head

/-! ## The child's side -/

/-- A delivery that is no announcement, and leaves the child's registry and the dealer's code hash
alone, keeps the invariant if it sends no announcements. -/
theorem Fresh.keep (hf : Fresh (w, m :: ms)) (hm : ∀ h, ¬ m.Announces h)
    (hchild : X.cw.subscribers w'.child = X.cw.subscribers w.child)
    (hhash : w'.dealerHash = w.dealerHash) (hout : ∀ m' ∈ out, ∀ h, ¬ m'.Announces h) :
    Fresh (w', out ++ ms) where
  pending := by
    intro m' hm' h ha
    rcases List.mem_append.mp hm' with hm' | hm'
    · exact (hout m' hm' h ha).elim
    · exact (hf.pending m' (.tail _ hm') h ha).trans hhash.symm
  child := by
    refine .inl ?_
    rcases hf.child with hsubs | ⟨_, _, h, heq, ha⟩
    · rw [hchild, hhash]; exact hsubs
    · cases heq
      exact (hm h ha).elim

theorem not_announces_of_origin (ho : m.origin ≠ .dealer) (h : String) : ¬ m.Announces h := by
  intro hann
  obtain ⟨a, codeHash, _, rfl⟩ := hann
  exact ho rfl

theorem not_announces_of_calls (hT : X.Tagged) {b : Binary} {funds : List Coin}
    (hc : m.Calls P.dealerRaw b funds) (h : String) : ¬ m.Announces h :=
  fun ha => P.distinct (ha.read hT hc).1

theorem not_announces_of_migrates {raw : CanonicalAddr} {codeHash : String}
    (hm : m.Migrates raw codeHash) (h : String) : ¬ m.Announces h := by
  intro hann
  obtain ⟨a, codeHash, _, rfl⟩ := hann
  obtain ⟨_, _, _, _, hb⟩ := hm
  cases hb

theorem not_announces_of_read (hT : X.Tagged) {raw : CanonicalAddr} {b : Binary}
    {funds : List Coin} (hc : m.Calls raw b funds) {msg : Snip721ExecuteMsg}
    (hmsg : Migratable.visitBytes X b = .ok (.base msg)) (h : String) : ¬ m.Announces h := by
  intro ha
  cases (ha.read hT hc).2.symm.trans hmsg

/-- What a migrated dealer broadcasts names its new code hash, and begins with the child. -/
theorem Fresh.dealerMigrated (hX : X.Documented) (hT : X.Tagged) {h codeHash : String}
    {cs : List ContractInfo} (hl : Linked P s₀ s w h)
    (hcs : List.Forall₂ (fun c i => X.cw.intoHumanized c = .ok i) s.registry.entries cs)
    (hms : ∀ m ∈ ms, ∀ h, m.Announces h → h = codeHash) :
    Fresh ({ w with dealerHash := codeHash }, broadcast (P := P) X .dealer codeHash cs ++ ms) where
  pending := by
    intro m' hm' h ha
    rcases List.mem_append.mp hm' with hm' | hm'
    · obtain ⟨c, _, rfl⟩ := List.mem_map.mp hm'
      obtain ⟨a, hash, hraw, heq⟩ := ha
      have ha' : (⟨.dealer, (X.cw.notify X.json .never 0 ⟨P.dealer, codeHash⟩ none c).msg⟩ :
          Mail P).Announces codeHash := by
        refine ⟨c.address, c.codeHash, ?_, rfl⟩
        injection heq with _ hb
        simp only [CwMigratable.notify, CosmosMsg.wasm.injEq, WasmMsg.execute.injEq] at hb
        rw [hb.1]
        exact hraw
      exact Mail.Announces.unique hT ⟨a, hash, hraw, heq⟩ ha'
    · exact hms m' hm' h ha
  child := by
    refine .inr ?_
    obtain ⟨rest, hentries⟩ : ∃ rest, s.registry.entries = s.child :: rest := by
      cases hl' : s.registry.entries with
      | nil => have := hl.head; rw [hl'] at this; cases this
      | cons c rest =>
        have := hl.head
        rw [hl'] at this
        cases this
        exact ⟨rest, rfl⟩
    rw [hentries] at hcs
    obtain ⟨i, cs', hi, _, rfl⟩ := List.forall₂_cons_left_iff.mp hcs
    rw [hX.cw.intoHumanized, hl.address, P.child_humanize] at hi
    cases hi
    exact ⟨_, _, codeHash, rfl, P.child, s.child.codeHash, P.child_canonicalize, rfl⟩

theorem Fresh.delivered (hX : X.Documented) (hT : X.Tagged) (hc : Routed s₀ (w, m :: ms))
    (hf : Fresh (w, m :: ms)) (ho : Orderly (w, m :: ms))
    (h : handle w m ρ = some (w', out)) : Fresh (w', out ++ ms) := by
  obtain ⟨s, h', hl, he, hms, ⟨hm, _⟩ | ⟨a, ha, rfl⟩⟩ := hc.effect hX h
  · cases he with
    | transferred hb =>
      refine hf.keep ?_ rfl rfl (by simp)
      intro _ hann
      obtain ⟨_, _, _, rfl⟩ := hann
      cases hb
    | purchased hcalls hmsg _ hadm hch =>
      refine hf.keep (not_announces_of_calls hT hcalls) rfl rfl ?_
      intro m' hm' h ha
      simp only [List.mem_cons, List.not_mem_nil, or_false] at hm'
      rcases hm' with rfl | rfl
      · obtain ⟨_, _, _, hb⟩ := ha.calls
        cases hb
      · exact not_announces_of_read hT ⟨_, _, hX.api.humanize hch, rfl⟩
          (Migratable.visitBytes_toBytes hT (.base (Dealer.mintNftMsg _ _))) h ha
    | subscribed hcalls => exact hf.keep (not_announces_of_calls hT hcalls) rfl rfl (by simp)
    | heard hcalls => exact hf.keep (not_announces_of_calls hT hcalls) rfl rfl (by simp)
    | base hcalls hmsg hbase hreg =>
      refine hf.keep (not_announces_of_read hT hcalls hmsg) ?_ rfl
        fun m' hm' => not_announces_of_origin (mailFrom_child_foreign m' hm')
      rw [CwMigratable.subscribers_of_registry hreg,
        CwMigratable.subscribers_of_registry hl.childRegistry]
    | childSubscribed _ _ hadd =>
      rw [Registry.add_full rfl] at hadd
      cases hadd
    | @childHeard b funds migratedTo data raw l' st hcalls hmsg hto hup hreg hoff =>
      rcases childRegistry_heard hX hup with ⟨hne, rfl⟩ | ⟨horig, rfl⟩
      · refine hf.keep (not_announces_of_origin hne) ?_ rfl (by simp)
        rw [CwMigratable.subscribers_of_registry hreg,
          CwMigratable.subscribers_of_registry hl.childRegistry]
      · -- the dealer's announcement, which names its current code hash
        obtain ⟨codeHash, c, rfl, rfl⟩ := hm.dealer_listener hT horig hcalls hmsg
        cases P.dealer_canonicalize.symm.trans hto
        have hcur : codeHash = w.dealerHash := by
          obtain ⟨a, hash, hraw, hb⟩ := hcalls
          cases hb
          exact hf.pending _ (.head _) codeHash ⟨_, _, hraw, rfl⟩
        refine ⟨fun m' hm' => hf.pending m' (.tail _ hm'), .inl ?_⟩
        rw [CwMigratable.subscribers_of_registry hreg, hcur]
    | dealerMigrated hmig hcs =>
      exact Fresh.dealerMigrated hX hT hl hcs fun m' hm' h ha => ho m ms _ rfl hmig m' hm' h ha
    | childMigrated hmig hcs =>
      exact hf.keep (not_announces_of_migrates hmig) rfl rfl
        fun m' hm' => not_announces_of_origin (broadcast_child_foreign m' hm')
    | elsewhere hn =>
      exact hf.keep (fun h ha => hn.not_calls.2 ha.calls) rfl rfl
        fun m' hm' => not_announces_of_origin (reaction_foreign ρ m' hm')
  · obtain ⟨rfl, st, s', rfl, _, _⟩ := announced_effect hX hT hl ha he
    exact hf.keep (not_announces_of_origin (by simp [childAnnouncement])) rfl rfl (by simp)

/-! ## Runs -/

/-- Whatever the next delivery makes the dealer say to the base contract of a child, it says to
its own child under the current code hash. -/
def MintsReachChild (c : World × List (Mail P)) : Prop :=
  ∀ m ms ρ w' out, c.2 = m :: ms → handle c.1 m ρ = some (w', out) →
    ∀ m' ∈ out, m'.origin = .dealer → ∀ a codeHash b funds msg,
      m'.body = .wasm (.execute a codeHash b funds) → Migratable.visitBytes X b = .ok (.base msg) →
      a = P.child ∧ codeHash = c.1.childHash

theorem Routed.mintsReachChild (hX : X.Documented) (hT : X.Tagged) {c : World × List (Mail P)}
    (hc : Routed s₀ c) : MintsReachChild c := by
  obtain ⟨w, ms⟩ := c
  rintro m ms ρ w' out rfl h m' hm' ho a codeHash b funds msg hb hmsg
  obtain ⟨s, h', hl, he, _, ⟨_, hsync⟩ | ⟨a, ha, rfl⟩⟩ := hc.effect hX h
  · cases he with
    | transferred | subscribed | heard | childSubscribed | childHeard => cases hm'
    | purchased _ _ _ _ hch =>
      simp only [List.mem_cons, List.not_mem_nil, or_false] at hm'
      rcases hm' with rfl | rfl
      · cases hb
      · cases hb
        rw [hl.address, P.child_humanize] at hch
        cases hch
        exact ⟨rfl, hsync⟩
    | base => exact (mailFrom_child_foreign m' hm' ho).elim
    | dealerMigrated =>
      obtain ⟨c, _, rfl⟩ := List.mem_map.mp hm'
      cases hb
      cases (Migratable.visitBytes_toBytes hT (.migrateListener _)).symm.trans hmsg
    | childMigrated => exact (broadcast_child_foreign m' hm' ho).elim
    | elsewhere => exact (reaction_foreign ρ m' hm' ho).elim
  · obtain ⟨rfl, _⟩ := announced_effect hX hT hl ha he
    cases hm'

theorem Routed.agreement (hc : Routed s₀ (w, ([] : List (Mail P))))
    (hf : Fresh (w, ([] : List (Mail P)))) : Agreement P w where
  toKnowsChild := hc.knowsChild
  childSubscribers := by
    rcases hf.child with h | ⟨_, _, _, heq, _⟩
    · exact h
    · cases heq

theorem Deployed.fresh {d : Deployment P} (hd : Deployed d w s) :
    Fresh (w, ([] : List (Mail P))) where
  pending := by simp
  child := .inl (by rw [CwMigratable.subscribers_of_registry hd.childRegistry, hd.dealerHash])

theorem Fresh.start (hf : Fresh (w, ([] : List (Mail P)))) (t : List (Outsider P × CosmosMsg)) :
    Fresh (w, (machine X P).start t) where
  pending := by
    intro m hm h ha
    exact (not_announces_of_origin (start_foreign t m hm) h ha).elim
  child := by
    rcases hf.child with h | ⟨_, _, _, heq, _⟩
    · exact .inl h
    · cases heq

/-- The dealer never loses its child, whatever the transactions. The child does not lose the
dealer either, unless the dealer is migrated while an older announcement waits at the child. -/
theorem references_agree (hX : X.Documented) (hT : X.Tagged) {d : Deployment P}
    (hd : d.deploy = some w)
    (ts : List (List (Outsider P × CosmosMsg) × List (Reaction P))) :
    KnowsChild P ((machine X P).run w ts) ∧ (machine X P).CleanRun MintsReachChild w ts ∧
    ((machine X P).CleanRun Orderly w ts → Agreement P ((machine X P).run w ts)) := by
  obtain ⟨s, hs⟩ := deploy_holds hX hT hd
  refine ⟨(hs.run_routed hX hT ts).knowsChild, ?_, ?_⟩
  · exact Machine.cleanRun_of_inv (I := Routed s)
      (J := fun w => Routed s (w, ([] : List (Mail P)))) (fun _ t hw => hw.start t)
      (fun _ _ _ hc h => hc.advance hX hT h) (fun _ hw => hw)
      (fun _ hc => hc.mintsReachChild hX hT) ts w hs.routed
  · intro hclean
    have hinv := Machine.run_inv (I := fun c => Routed s c ∧ Fresh c)
      (J := fun w => Routed s (w, ([] : List (Mail P))) ∧ Fresh (w, ([] : List (Mail P))))
      (fun _ t hw => ⟨hw.1.start t, hw.2.start t⟩) ?_ (fun _ hw => hw) ts w hclean
      ⟨hs.routed, hs.fresh⟩
    · exact hinv.1.agreement hinv.2
    · rintro ρ c c' ho ⟨hc, hf⟩ hstep
      refine ⟨hc.advance hX hT hstep, ?_⟩
      obtain ⟨w, m, ms, w', out, rfl, hh, rfl⟩ := Machine.advance_eq_some.mp hstep
      exact hf.delivered hX hT hc ho hh

end

/-! ## Two runs -/

section

open Reference Reference.Chain

/-- A configuration whose next message migrates nothing, or is the last one, is orderly. -/
def plain (c : World × List (Mail parties)) : Bool :=
  match c.2 with
  | ⟨_, .wasm (.migrate ..)⟩ :: ms => ms.isEmpty
  | _ => true

theorem orderly_of_plain (c : World × List (Mail parties)) (h : plain c = true) : Orderly c := by
  rintro m ms codeHash hc ⟨a, codeId, b, _, hb⟩ m' hm'
  obtain ⟨origin, body⟩ := m
  obtain ⟨w, ms'⟩ := c
  cases hc
  cases hb
  simp only [plain, List.isEmpty_iff] at h
  rw [h] at hm'
  cases hm'

/-- The tracker subscribes, the child is migrated, and then the dealer. The child has been
subscribed a second time, under the code hash it is migrated to. -/
def migrations (onNotified : Reaction parties) (rest : List (Reaction parties)) :
    List (List (Outsider parties × CosmosMsg) × List (Reaction parties)) :=
  [([(tracker, subscribe "dealer_v1" "tracker" "tracker_v1")], [silent]),
    ([(buyer, subscribe "dealer_v1" "child" "child_v2")], [silent]),
    ([(seller, migrate "child" "child_v2")], [silent, silent]),
    ([(tracker, migrate "dealer" "dealer_v2")], [silent, silent, onNotified, silent] ++ rest)]

theorem references_agree_chain :
    Agreement parties ((machine crates parties).run world (migrations silent [])) :=
  (references_agree crates_documented crates_tagged deploy_eq (migrations silent [])).2.2
    (Machine.cleanRun_of_check (p := plain) orderly_of_plain _ _ (by decide +kernel))

/-- When it is notified, the tracker migrates the dealer again. The child's second entry makes it
hear the first announcement after the second. -/
theorem stale_announcement_wins :
    ∃ ts, ((machine crates parties).run world ts).dealerHash = "dealer_v3" ∧
      crates.cw.subscribers ((machine crates parties).run world ts).child =
        [⟨parties.dealerRaw, "dealer_v2"⟩] ∧
      ¬ Agreement parties ((machine crates parties).run world ts) := by
  let again : Reaction parties := { silent with sends := [(tracker, migrate "dealer" "dealer_v3")] }
  obtain ⟨hhash, hsubs⟩ :
      ((machine crates parties).run world
        (migrations again [silent, silent, silent, silent])).dealerHash = "dealer_v3" ∧
      crates.cw.subscribers ((machine crates parties).run world
        (migrations again [silent, silent, silent, silent])).child =
          [⟨parties.dealerRaw, "dealer_v2"⟩] := by
    decide +kernel
  refine ⟨_, hhash, hsubs, fun h => ?_⟩
  have hagree := h.childSubscribers
  rw [hsubs, hhash] at hagree
  revert hagree
  decide

end

end Snip721Migratable
