import Snip721Migratable.System.Books

/-!
# System.Sales

Sales do not overlap and are never left half done. What a dealer does, in the order it does it, is
one sale after the other: it takes a coin from an outsider, pays it to the admin, and mints a token
for that outsider. Other accounts mint in between, and buyers may buy again while they are being
handed a token, but nothing that they do gets between the three entries of a sale.

* `Purchase` : a sale, with its three entries in the books.
* `Selling` : the invariant inside a transaction. The next messages say how far a sale has got.
* `sales_are_atomic` : between any two moments of a run lie complete sales.
-/

namespace Snip721Migratable

section

variable {X : Crates} {P : Parties X}

structure Purchase (P : Parties X) where
  buyer : Outsider P
  coin : Coin

namespace Purchase

variable (adminAddr : Addr) (md : Dealer.PurchasableMetadata) (x : Purchase P)

def received : Entry := .purchased x.buyer.addr [x.coin]

def paidOut : Entry := .paid adminAddr [x.coin]

def handedOver : Entry :=
  .minted ⟨P.dealerRaw, x.buyer.raw, md.publicMetadata, md.privateMetadata⟩

def entries : List Entry := [x.received, x.paidOut adminAddr, x.handedOver md]

def sendFunds : Mail P := ⟨.dealer, .bank (.send adminAddr [x.coin])⟩

def mint (codeHash : String) : Mail P :=
  ⟨.dealer, .wasm (.execute P.child codeHash
    (X.json.toBytes X.impl.executeMsg.codec (Dealer.mintNftMsg x.buyer.addr md)) [])⟩

end Purchase

/-- Whether the entry is something that the dealer did. -/
def Entry.ofDealer (P : Parties X) : Entry → Bool
  | .purchased .. => true
  | .paid .. => true
  | .minted t => t.minter = P.dealerRaw

def dealerEntries (P : Parties X) (log : List Entry) : List Entry := log.filter (Entry.ofDealer P)

/-- A message that is no part of a sale. -/
def Mail.Quiet (m : Mail P) : Prop :=
  m.origin = .dealer → (∀ b, m.body ≠ .bank b) ∧
    ∀ b funds, m.Calls P.childRaw b funds → ∀ msg, Migratable.visitBytes X b ≠ .ok (.base msg)

theorem dealerEntries_append (log log' : List Entry) :
    dealerEntries P (log ++ log') = dealerEntries P log ++ dealerEntries P log' := by
  simp [dealerEntries]

theorem dealerEntries_minted {new : List Minted} (h : ∀ t ∈ new, t.minter ≠ P.dealerRaw) :
    dealerEntries P (new.map .minted) = [] := by
  simp only [dealerEntries, List.filter_eq_nil_iff, List.mem_map]
  rintro _ ⟨t, ht, rfl⟩
  simp [Entry.ofDealer, h t ht]

theorem quiet_of_origin {m : Mail P} (h : m.origin ≠ .dealer) : m.Quiet := fun ho => (h ho).elim

theorem quiet_announcement (hT : X.Tagged) (codeHash : String) (c : ContractInfo) :
    Mail.Quiet (⟨.dealer, (X.cw.notify X.json .never 0 ⟨P.dealer, codeHash⟩ none c).msg⟩ :
      Mail P) := by
  refine fun _ => ⟨by simp [CwMigratable.notify], ?_⟩
  rintro b funds ⟨a, hash, _, hb⟩ msg hmsg
  cases hb
  cases (Migratable.visitBytes_toBytes hT (.migrateListener _)).symm.trans hmsg

variable (s₀ : Dealer.State) (adminAddr : Addr) (before : List Entry)

/-- How far the next messages say that a sale has got, when the dealer had done `before` at the
beginning of the transaction. -/
inductive Selling : World × List (Mail P) → Prop where
  | idle {w : World} {ms : List (Mail P)} (sold : List (Purchase P)) :
      (∀ x ∈ sold, Dealer.checkFunds s₀.prices x.coin = .ok ()) →
      dealerEntries P w.log = before ++ sold.flatMap (Purchase.entries adminAddr s₀.metadata) →
      (∀ m ∈ ms, m.Quiet) → Selling (w, ms)
  | received {w : World} {ms : List (Mail P)} (sold : List (Purchase P)) (x : Purchase P)
      (codeHash : String) :
      (∀ y ∈ sold ++ [x], Dealer.checkFunds s₀.prices y.coin = .ok ()) →
      dealerEntries P w.log = before ++ sold.flatMap (Purchase.entries adminAddr s₀.metadata) ++
        [x.received] →
      (∀ m ∈ ms, m.Quiet) →
      Selling (w, x.sendFunds adminAddr :: x.mint s₀.metadata codeHash :: ms)
  | paidOut {w : World} {ms : List (Mail P)} (sold : List (Purchase P)) (x : Purchase P)
      (codeHash : String) :
      (∀ y ∈ sold ++ [x], Dealer.checkFunds s₀.prices y.coin = .ok ()) →
      dealerEntries P w.log = before ++ sold.flatMap (Purchase.entries adminAddr s₀.metadata) ++
        [x.received, x.paidOut adminAddr] →
      (∀ m ∈ ms, m.Quiet) → Selling (w, x.mint s₀.metadata codeHash :: ms)

variable {s₀ adminAddr before} {s : Dealer.State} {w w' : World} {m : Mail P}
  {ms out : List (Mail P)} {ρ : Reaction P} {h : String} {reg : Registry CanonicalContractInfo}

/-! ## Steps -/

/-- The dealer does not buy from itself, and its child does not buy. -/
theorem Tame.buyer (hT : X.Tagged) (hm : Tame s₀ m) {b : Binary} {funds : List Coin}
    (hc : m.Calls P.dealerRaw b funds)
    (hmsg : Dealer.visitBytes X b = .ok (.dealer .purchaseMint)) :
    ∃ o : Outsider P, m.origin = .third o := by
  cases hm with
  | third o body => exact ⟨o, rfl⟩
  | payment amount _ =>
    obtain ⟨_, _, _, hb⟩ := hc
    cases hb
  | mint codeHash buyer ha =>
    obtain ⟨_, _, ha', hb⟩ := hc
    cases hb
    exact (P.distinct (Except.ok.inj (ha'.symm.trans ha))).elim
  | announcement codeHash c =>
    obtain ⟨_, _, _, hb⟩ := hc
    cases hb
    cases (Dealer.visitBytes_toBytes hT (.migrateListener _)).symm.trans hmsg
  | callback htag hr =>
    obtain ⟨_, _, _, hb⟩ := hc
    cases hb
    exact (Dealer.visitBytes_receiver hT htag hr _ hmsg).elim

/-- The delivery of a message that is no part of a sale: either nothing happens that concerns
sales, or an outsider buys. -/
theorem Mail.Quiet.effect (hX : X.Documented) (hT : X.Tagged) (hq : m.Quiet) (hm : Tame s₀ m)
    (hl : Linked P s₀ s w h) (hadm : X.api.addrHumanize s₀.admin = .ok adminAddr)
    (he : Effect s { entries := [⟨P.dealerRaw, h⟩], slots := some 0 } w m ρ w' out) :
    (dealerEntries P w'.log = dealerEntries P w.log ∧ ∀ m' ∈ out, m'.Quiet) ∨
    ∃ (x : Purchase P) (codeHash : String), Dealer.checkFunds s₀.prices x.coin = .ok () ∧
      dealerEntries P w'.log = dealerEntries P w.log ++ [x.received] ∧
      out = [x.sendFunds adminAddr, x.mint s₀.metadata codeHash] := by
  cases he with
  | @transferred toAddress amount hb =>
    have hne : m.origin ≠ .dealer := fun ho => (hq ho).1 _ hb
    refine .inl ⟨?_, by simp⟩
    cases ho : m.origin with
    | dealer => exact (hne ho).elim
    | child => simp [paymentsOf]
    | third o => simp [paymentsOf]
  | @purchased b c adminAddr' childAddr hc hmsg hck hadm' hch =>
    obtain ⟨o, ho⟩ := hm.buyer hT hc hmsg
    rw [hl.admin, hadm] at hadm'
    cases hadm'
    rw [hl.address, P.child_humanize] at hch
    cases hch
    rw [hl.prices] at hck
    rw [hl.metadata, ho]
    refine .inr ⟨⟨o, c⟩, s.child.codeHash, hck, ?_, rfl⟩
    simp only [dealerEntries_append]
    rfl
  | subscribed => exact .inl ⟨rfl, by simp⟩
  | heard => exact .inl ⟨rfl, by simp⟩
  | base hc hmsg hbase _ =>
    have hne : m.origin ≠ .dealer := fun ho => (hq ho).2 _ _ hc _ hmsg
    refine .inl ⟨?_, fun m' hm' => quiet_of_origin (mailFrom_child_foreign m' hm')⟩
    rw [dealerEntries_append, dealerEntries_minted, List.append_nil]
    intro t ht hminter
    have hsender := hX.impl.mints_by_sender hbase t ht
    have hraw := Except.ok.inj (m.origin.canonicalize_addr.symm.trans hsender)
    exact hne (Party.eq_dealer (hraw.trans hminter))
  | childSubscribed => exact .inl ⟨rfl, by simp⟩
  | childHeard => exact .inl ⟨rfl, by simp⟩
  | dealerMigrated =>
    refine .inl ⟨rfl, fun m' hm' => ?_⟩
    obtain ⟨c, _, rfl⟩ := List.mem_map.mp hm'
    exact quiet_announcement hT _ c
  | childMigrated =>
    exact .inl ⟨rfl, fun m' hm' => quiet_of_origin (broadcast_child_foreign m' hm')⟩
  | elsewhere => exact .inl ⟨rfl, fun m' hm' => quiet_of_origin (reaction_foreign ρ m' hm')⟩

/-- The payment of a sale always arrives. -/
theorem sendFunds_handled (ρ : Reaction P) {x : Purchase P} :
    handle w (x.sendFunds adminAddr) ρ = some (w', out) ↔
      w' = { w with log := w.log ++ [x.paidOut adminAddr] } ∧ out = [] := by
  constructor
  · intro hh
    cases hh
    exact ⟨rfl, rfl⟩
  · intro hh
    obtain ⟨rfl, rfl⟩ := hh
    rfl

/-- The mint of a sale hands the token over. -/
theorem Purchase.mintsOf_eq (hX : X.Documented) {x : Purchase P} {md : Dealer.PurchasableMetadata}
    {env : Env} {st st' : Store} {r : Response}
    (h : X.impl.execute env { sender := P.dealer, funds := [] }
      (Dealer.mintNftMsg x.buyer.addr md) st = (.ok r, st')) :
    mintsOf (X := X) env { sender := P.dealer, funds := [] } st
      (.base (Dealer.mintNftMsg x.buyer.addr md)) = [x.handedOver md] := by
  obtain ⟨minter, owner, hminter, howner, hmints⟩ := hX.impl.mintNft rfl h
  cases P.dealer_canonicalize.symm.trans hminter
  cases x.buyer.canonicalize.symm.trans howner
  simp only [mintsOf, Dealer.mintNftMsg, hmints]
  rfl

/-- The mint of a sale arrives. -/
theorem mint_handled (hX : X.Documented) (hT : X.Tagged) {x : Purchase P} {codeHash : String}
    (hh : handle w (x.mint s₀.metadata codeHash) ρ = some (w', out)) :
    w'.log = w.log ++ [x.handedOver s₀.metadata] ∧ ∀ m ∈ out, m.Quiet := by
  obtain ⟨r, st, hcall, hw, hout⟩ :=
    handled_child rfl (Migratable.visitBytes_toBytes hT (.base _)) (handle_cases hh)
  constructor
  · have hmints := Purchase.mintsOf_eq hX hcall
    rw [hw]
    simp only [Purchase.mint, Party.addr, hmints]
  · rw [hout]
    exact fun m hm => quiet_of_origin (mailFrom_child_foreign m hm)

/-- A sale goes on without interruption, and nothing else counts as one. -/
theorem Selling.delivered (hX : X.Documented) (hT : X.Tagged)
    (hadm : X.api.addrHumanize s₀.admin = .ok adminAddr) (hc : Routed s₀ (w, m :: ms))
    (hs : Selling s₀ adminAddr before (w, m :: ms)) (hh : handle w m ρ = some (w', out)) :
    Selling s₀ adminAddr before (w', out ++ ms) := by
  cases hs with
  | idle sold hfair hlog hq =>
    have hqs : ∀ m ∈ ms, m.Quiet := fun m' hm' => hq m' (.tail _ hm')
    obtain ⟨s, h', hl, he, _, ⟨hm, _⟩ | ⟨a, ha, rfl⟩⟩ := hc.effect hX hh
    · rcases (hq m (.head _)).effect hX hT hm hl hadm he with
        ⟨hlog', hout⟩ | ⟨x, codeHash, hck, hlog', rfl⟩
      · refine .idle sold hfair (hlog'.trans hlog) fun m' hm' => ?_
        rcases List.mem_append.mp hm' with hm' | hm'
        · exact hout m' hm'
        · exact hqs m' hm'
      · refine .received sold x codeHash ?_ (by rw [hlog', hlog]) hqs
        intro y hy
        rcases List.mem_append.mp hy with hy | hy
        · exact hfair y hy
        · rw [List.mem_singleton.mp hy]
          exact hck
    · obtain ⟨rfl, st, s', rfl, _, _⟩ := announced_effect hX hT hl ha he
      exact .idle sold hfair hlog hqs
  | received sold x codeHash hfair hlog hq =>
    obtain ⟨rfl, rfl⟩ := (sendFunds_handled ρ).mp hh
    refine .paidOut sold x codeHash hfair ?_ hq
    rw [dealerEntries_append, hlog, List.append_assoc]
    rfl
  | paidOut sold x codeHash hfair hlog hq =>
    obtain ⟨hlog', hout⟩ := mint_handled hX hT hh
    refine .idle (sold ++ [x]) hfair ?_ fun m' hm' => ?_
    · have hmine : dealerEntries P [x.handedOver s₀.metadata] = [x.handedOver s₀.metadata] := by
        simp [dealerEntries, Entry.ofDealer, Purchase.handedOver]
      rw [hlog', dealerEntries_append, hlog, hmine, List.flatMap_append, List.append_assoc,
        List.append_assoc]
      rfl
    · rcases List.mem_append.mp hm' with hm' | hm'
      · exact hout m' hm'
      · exact hq m' hm'

/-! ## Runs -/

theorem Selling.start (hs : Selling s₀ adminAddr before (w, ([] : List (Mail P))))
    (t : List (Outsider P × CosmosMsg)) :
    Selling s₀ adminAddr before (w, (machine X P).start t) := by
  cases hs with
  | idle sold hfair hlog _ =>
    exact .idle sold hfair hlog fun m hm => quiet_of_origin (start_foreign t m hm)

theorem Selling.run (hX : X.Documented) (hT : X.Tagged)
    (hadm : X.api.addrHumanize s₀.admin = .ok adminAddr)
    (hc : Routed s₀ (w, ([] : List (Mail P))))
    (hs : Selling s₀ adminAddr before (w, ([] : List (Mail P))))
    (ts : List (List (Outsider P × CosmosMsg) × List (Reaction P))) :
    Selling s₀ adminAddr before ((machine X P).run w ts, ([] : List (Mail P))) := by
  refine (Machine.run_inv_all (I := fun c => Routed s₀ c ∧ Selling s₀ adminAddr before c)
    (J := fun w => Routed s₀ (w, ([] : List (Mail P))) ∧
      Selling s₀ adminAddr before (w, ([] : List (Mail P))))
    (fun _ t hw => ⟨hw.1.start t, hw.2.start t⟩) ?_ (fun _ hw => hw) ts w ⟨hc, hs⟩).2
  rintro ρ c c' ⟨hc, hs⟩ hstep
  refine ⟨hc.advance hX hT hstep, ?_⟩
  obtain ⟨w, m, ms, w', out, rfl, hh, rfl⟩ := Machine.advance_eq_some.mp hstep
  exact hs.delivered hX hT hadm hc hh

/-- In every run, between any two moments, what the dealer has done is a sequence of complete
sales: each takes one coin that passes the checks from an outsider, pays that coin to the admin and
mints one token with the sale's metadata for that outsider, in this order. -/
theorem sales_are_atomic (hX : X.Documented) (hT : X.Tagged) {d : Deployment P}
    (hd : d.deploy = some w) :
    ∃ A raw adminAddr, Dealer.trueAdmin X d.info d.msg = .ok A ∧
      X.api.addrCanonicalize A = .ok raw ∧ X.api.addrHumanize raw = .ok adminAddr ∧
      dealerEntries P w.log = [] ∧
      ∀ ts us, ∃ sold : List (Purchase P),
        (∀ x ∈ sold, Dealer.checkFunds d.msg.prices x.coin = .ok ()) ∧
        dealerEntries P ((machine X P).run w (ts ++ us)).log =
          dealerEntries P ((machine X P).run w ts).log ++
            sold.flatMap (Purchase.entries adminAddr
              ⟨d.msg.publicMetadata, d.msg.privateMetadata⟩) := by
  obtain ⟨s, hs⟩ := deploy_holds hX hT hd
  obtain ⟨adminAddr, hadm⟩ := hs.admin_humanizes
  obtain ⟨A, hA, hraw, _⟩ := hs.admin
  refine ⟨A, s.admin, adminAddr, hA, hraw, hadm, by rw [hs.log]; rfl, fun ts us => ?_⟩
  have hmid : Selling s adminAddr (dealerEntries P ((machine X P).run w ts).log)
      ((machine X P).run w ts, ([] : List (Mail P))) :=
    .idle [] (by simp) (by simp) (by simp)
  have hend := hmid.run hX hT hadm (hs.run_routed hX hT ts) us
  rw [← Machine.run_append] at hend
  rw [← hs.prices, ← hs.metadata]
  cases hend with
  | idle sold hfair hlog _ => exact ⟨sold, hfair, hlog⟩

end

section

open Reference Reference.Chain

/-- Two sales, with a migration of the child in between. -/
theorem sales_are_atomic_chain :
    ∃ adminAddr, ∃ sold : List (Purchase parties), sold.length = 2 ∧
      dealerEntries parties ((machine crates parties).run world sales).log =
        sold.flatMap (Purchase.entries adminAddr
          ⟨deployment.msg.publicMetadata, deployment.msg.privateMetadata⟩) := by
  obtain ⟨_, _, adminAddr, _, _, _, hstart, hruns⟩ :=
    sales_are_atomic crates_documented crates_tagged deploy_eq
  obtain ⟨sold, _, hsold⟩ := hruns [] sales
  rw [List.nil_append, Machine.run_nil, hstart, List.nil_append] at hsold
  refine ⟨adminAddr, sold, ?_, hsold⟩
  have hlength :
      (dealerEntries parties ((machine crates parties).run world sales).log).length = 6 := by
    decide +kernel
  rw [hsold, List.length_flatMap] at hlength
  simp only [Purchase.entries, List.length_cons, List.length_nil, List.map_const',
    List.sum_replicate_nat] at hlength
  omega

end

end Snip721Migratable
