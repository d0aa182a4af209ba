import Snip721Migratable.System.Routing

/-!
# System.Books

The books of a dealer over whole runs: what it received for purchases, what it paid to its admin,
and what the child minted in its name.

* `Booked` : the invariant inside a transaction. What was not delivered yet counts as well: a
  payment on its way is an amount still owed, a mint on its way a token still owed.
* `Books` : the balance between transactions.
* `books_balance` : the books balance after every run, and a transaction that fails leaves them
  as they were.
-/

namespace Snip721Migratable

def Entry.isPurchaseBy (buyer : Addr) : Entry → Bool
  | .purchased b _ => b = buyer
  | _ => false

/-- The coins that came with purchases. -/
def Entry.receipt : Entry → List Coin
  | .purchased _ funds => funds
  | _ => []

/-- The coins that went to `a`. -/
def Entry.payment (a : Addr) : Entry → List Coin
  | .paid toAddress amount => if toAddress = a then amount else []
  | _ => []

def purchasesBy (buyer : Addr) (log : List Entry) : Nat := log.countP (Entry.isPurchaseBy buyer)

def receipts (log : List Entry) : List Coin := log.flatMap Entry.receipt

def paymentsTo (a : Addr) (log : List Entry) : List Coin := log.flatMap (Entry.payment a)

section

variable {X : Crates} {P : Parties X}

/-- Whether the entry is a token that the dealer minted for `p`. -/
def Entry.isMintFor (p : Party P) : Entry → Bool
  | .minted t => t.minter = P.dealerRaw ∧ t.owner = p.raw
  | _ => false

/-- How many tokens the dealer minted for `p`. -/
def tokensFor (p : Party P) (log : List Entry) : Nat := log.countP (Entry.isMintFor p)

/-- The coins that a message of the dealer pays out. -/
def Mail.pays (m : Mail P) : List Coin :=
  match m with
  | ⟨.dealer, .bank (.send _ amount)⟩ => amount
  | _ => []

/-- Whether `m` is a mint of the dealer for `p`. -/
def Mail.mintsFor (p : Party P) (m : Mail P) : Bool :=
  match m with
  | ⟨.dealer, .wasm (.execute _ _ b _)⟩ =>
    match X.json.fromSlice X.impl.executeMsg.codec b with
    | some (.mintNft mint) => mint.owner = some p.addr
    | _ => false
  | _ => false

/-- What may stand in the books of a dealer with the terms `s₀`: purchases at a listed price,
payments to the admin, and, of the tokens that the dealer mints, those with the sale's metadata. -/
def Entry.Proper (P : Parties X) (s₀ : Dealer.State) : Entry → Prop
  | .purchased _ funds => ∃ c, funds = [c] ∧ c ∈ s₀.prices
  | .paid toAddress _ => X.api.addrHumanize s₀.admin = .ok toAddress
  | .minted t => t.minter = P.dealerRaw →
    t.publicMetadata = s₀.metadata.publicMetadata ∧
    t.privateMetadata = s₀.metadata.privateMetadata

structure Booked (s₀ : Dealer.State) (adminAddr : Addr) (c : World × List (Mail P)) : Prop where
  tokens : ∀ p, tokensFor p c.1.log + c.2.countP (Mail.mintsFor p) = purchasesBy p.addr c.1.log
  coins : ∀ denom, amountOf denom (paymentsTo adminAddr c.1.log) +
    amountOf denom (c.2.flatMap Mail.pays) = amountOf denom (receipts c.1.log)
  entries : ∀ e ∈ c.1.log, e.Proper P s₀

variable {s₀ s : Dealer.State} {adminAddr : Addr} {w w' : World} {m : Mail P}
  {ms out : List (Mail P)} {ρ : Reaction P} {p : Party P}

/-! ## What messages owe -/

/-- A message that neither pays nor mints. -/
structure Mail.Free (m : Mail P) : Prop where
  mints : ∀ p, m.mintsFor p = false
  pays : m.pays = []

theorem Party.humanize_raw (p : Party P) : X.api.addrHumanize p.raw = .ok p.addr := by
  cases p with
  | dealer => exact P.dealer_humanize
  | child => exact P.child_humanize
  | third o => exact o.humanize

theorem Party.raw_eq_iff {q : Party P} : p.raw = q.raw ↔ p.addr = q.addr := by
  constructor
  · intro h
    have hp := p.humanize_raw
    rw [h, q.humanize_raw] at hp
    exact (Except.ok.inj hp).symm
  · intro h
    have hp := p.canonicalize_addr
    rw [h, q.canonicalize_addr] at hp
    exact (Except.ok.inj hp).symm

theorem free_of_origin (h : m.origin ≠ .dealer) : m.Free := by
  obtain ⟨origin, body⟩ := m
  cases origin with
  | dealer => exact (h rfl).elim
  | child => exact ⟨fun _ => rfl, rfl⟩
  | third o => exact ⟨fun _ => rfl, rfl⟩

theorem free_announcement (hT : X.Tagged) (codeHash : String) (c : ContractInfo) :
    Mail.Free (⟨.dealer, (X.cw.notify X.json .never 0 ⟨P.dealer, codeHash⟩ none c).msg⟩ :
      Mail P) where
  mints p := by
    have hnone : X.json.fromSlice X.impl.executeMsg.codec
        (X.cw.notification X.json ⟨P.dealer, codeHash⟩ none) = none := by
      refine TaggedEnum.fromSlice_eq_none _ fun t ht => ?_
      rw [CwMigratable.notification, TaggedEnum.tagOf_toBytes] at ht
      cases ht
      have htag := X.cw.migrationListenerExecuteMsg.tag_mem
        (.migrationCompleteNotification ⟨P.dealer, codeHash⟩ none)
      rw [hT.migrationListener, List.mem_singleton] at htag
      rw [htag, hT.impl]
      decide
    simp [Mail.mintsFor, CwMigratable.notify, hnone]
  pays := rfl

/-- The dealer's messages in flight owe nothing, payments and mints aside. -/
theorem Tame.free (hT : X.Tagged) (hm : Tame s₀ m) (hbank : ∀ b, m.body ≠ .bank b)
    (hbase : ∀ b funds, m.Calls P.childRaw b funds → ∀ msg,
      Migratable.visitBytes X b ≠ .ok (.base msg)) : m.Free := by
  cases hm with
  | third o body => exact free_of_origin (by simp)
  | payment amount _ => exact (hbank _ rfl).elim
  | mint codeHash buyer ha =>
    exact (hbase _ _ ⟨_, codeHash, ha, rfl⟩ _ (Migratable.visitBytes_toBytes hT (.base _))).elim
  | announcement codeHash c => exact free_announcement hT codeHash c
  | callback _ _ => exact free_of_origin (by simp)

theorem Tame.free_of_calls_dealer (hT : X.Tagged) (hm : Tame s₀ m) {b : Binary}
    {funds : List Coin} (hc : m.Calls P.dealerRaw b funds) : m.Free := by
  refine hm.free hT ?_ ?_
  · obtain ⟨_, _, _, hb⟩ := hc
    simp [hb]
  · intro b' funds' hc'
    exact (P.distinct (hc.unique hc').1).elim

theorem Tame.free_of_migrates (hT : X.Tagged) (hm : Tame s₀ m) {raw : CanonicalAddr}
    {codeHash : String} (hmig : m.Migrates raw codeHash) : m.Free := by
  refine hm.free hT ?_ fun b funds hc => (hc.not_migrates hmig).elim
  obtain ⟨_, _, _, _, hb⟩ := hmig
  simp [hb]

/-- The purchase's mint is for its buyer. -/
theorem mintsFor_mint (a codeHash : String) (buyer p : Party P) (md : Dealer.PurchasableMetadata) :
    Mail.mintsFor p (⟨.dealer, .wasm (.execute a codeHash (X.json.toBytes X.impl.executeMsg.codec
      (Dealer.mintNftMsg buyer.addr md)) [])⟩ : Mail P) = decide (buyer.addr = p.addr) := by
  simp [Mail.mintsFor, Dealer.mintNftMsg]

/-! ## Steps -/

theorem countP_free (h : ∀ m ∈ out, m.Free) (p : Party P) : out.countP (Mail.mintsFor p) = 0 := by
  rw [List.countP_eq_zero]
  intro m hm
  simp [(h m hm).mints p]

theorem pays_free (h : ∀ m ∈ out, m.Free) : out.flatMap Mail.pays = [] := by
  rw [List.flatMap_eq_nil_iff]
  intro m hm
  exact (h m hm).pays

/-- A delivery that pays and mints nothing for the dealer, and sends nothing that would. What it
enters in the books are tokens of other minters. -/
theorem Booked.free (hb : Booked s₀ adminAddr (w, m :: ms)) (hm : m.Free)
    (hout : ∀ m' ∈ out, m'.Free) {new : List Minted}
    (hlog : w'.log = w.log ++ new.map .minted) (hnew : ∀ t ∈ new, t.minter ≠ P.dealerRaw) :
    Booked s₀ adminAddr (w', out ++ ms) where
  tokens p := by
    have hbefore := hb.tokens p
    have htokens : (new.map Entry.minted).countP (Entry.isMintFor p) = 0 := by
      simp only [List.countP_eq_zero, List.mem_map]
      intro _ h
      obtain ⟨t, ht, rfl⟩ := h
      simp [Entry.isMintFor, hnew t ht]
    have hpurchases : (new.map Entry.minted).countP (Entry.isPurchaseBy p.addr) = 0 := by
      simp only [List.countP_eq_zero, List.mem_map]
      intro _ h
      obtain ⟨t, _, rfl⟩ := h
      simp [Entry.isPurchaseBy]
    simp only [tokensFor, purchasesBy, List.countP_cons, hm.mints p] at hbefore ⊢
    rw [hlog, List.countP_append, List.countP_append, List.countP_append, countP_free hout,
      htokens, hpurchases]
    simpa using hbefore
  coins denom := by
    have hbefore := hb.coins denom
    have hpayments : paymentsTo adminAddr (new.map Entry.minted) = [] := by
      simp [paymentsTo, List.flatMap_map, Entry.payment]
    have hreceipts : receipts (new.map Entry.minted) = [] := by
      simp [receipts, List.flatMap_map, Entry.receipt]
    simp only [paymentsTo, receipts, List.flatMap_cons, hm.pays, List.nil_append]
      at hbefore hpayments hreceipts ⊢
    rw [hlog, List.flatMap_append, List.flatMap_append, List.flatMap_append, pays_free hout,
      hpayments, hreceipts]
    simpa using hbefore
  entries := by
    intro e he
    simp only [hlog] at he
    rcases List.mem_append.mp he with he | he
    · exact hb.entries e he
    · obtain ⟨t, ht, rfl⟩ := List.mem_map.mp he
      intro hminter
      exact (hnew t ht hminter).elim

/-- The payment of a purchase arrives. -/
theorem Booked.paid {amount : List Coin} (hhum : X.api.addrHumanize s₀.admin = .ok adminAddr)
    (hb : Booked s₀ adminAddr (w, ⟨.dealer, .bank (.send adminAddr amount)⟩ :: ms)) :
    Booked (P := P) s₀ adminAddr ({ w with log := w.log ++ [.paid adminAddr amount] }, ms) where
  tokens p := by
    have hbefore := hb.tokens p
    simp only [List.countP_cons, Mail.mintsFor] at hbefore
    simpa [tokensFor, purchasesBy, Entry.isPurchaseBy, Entry.isMintFor] using hbefore
  coins denom := by
    have hbefore := hb.coins denom
    simp only [List.flatMap_cons, Mail.pays, amountOf_append] at hbefore
    simp only [paymentsTo, receipts, List.flatMap_append, List.flatMap_cons, List.flatMap_nil,
      Entry.payment, Entry.receipt, if_true, List.append_nil, amountOf_append] at hbefore ⊢
    omega
  entries := by
    intro e he
    rcases List.mem_append.mp he with he | he
    · exact hb.entries e he
    · rw [List.mem_singleton.mp he]
      exact hhum

/-- A purchase: a payment and a mint are owed from now on. -/
theorem Booked.purchased (hb : Booked s₀ adminAddr (w, m :: ms)) (hm : m.Free) {c : Coin}
    (hc : c ∈ s₀.prices) (childAddr codeHash : String) :
    Booked s₀ adminAddr ({ w with log := w.log ++ [.purchased m.origin.addr [c]] },
      [⟨.dealer, .bank (.send adminAddr [c])⟩,
        ⟨.dealer, .wasm (.execute childAddr codeHash (X.json.toBytes X.impl.executeMsg.codec
          (Dealer.mintNftMsg m.origin.addr s₀.metadata)) [])⟩] ++ ms) where
  tokens p := by
    have hbefore := hb.tokens p
    simp only [List.countP_cons, hm.mints p] at hbefore
    simp only [tokensFor, purchasesBy, List.cons_append, List.nil_append, List.countP_append,
      List.countP_cons, List.countP_nil, mintsFor_mint, Entry.isPurchaseBy, Entry.isMintFor]
      at hbefore ⊢
    simp only [Mail.mintsFor, Bool.false_eq_true, if_false, Nat.add_zero, Nat.zero_add,
      decide_eq_true_eq] at hbefore ⊢
    omega
  coins denom := by
    have hbefore := hb.coins denom
    simp only [List.flatMap_cons, hm.pays, List.nil_append] at hbefore
    simp only [paymentsTo, receipts, List.flatMap_append, List.flatMap_cons, List.flatMap_nil,
      Entry.payment, Entry.receipt, Mail.pays, List.append_nil, amountOf_append] at hbefore ⊢
    omega
  entries := by
    intro e he
    rcases List.mem_append.mp he with he | he
    · exact hb.entries e he
    · rw [List.mem_singleton.mp he]
      exact ⟨c, rfl, hc⟩

/-- A mint of the dealer arrives. -/
theorem Booked.minted (buyer : Party P) {a codeHash : String}
    (hb : Booked s₀ adminAddr (w, ⟨.dealer, .wasm (.execute a codeHash (X.json.toBytes
      X.impl.executeMsg.codec (Dealer.mintNftMsg buyer.addr s₀.metadata)) [])⟩ :: ms))
    (hout : ∀ m' ∈ out, m'.Free)
    (hlog : w'.log = w.log ++ [.minted ⟨P.dealerRaw, buyer.raw, s₀.metadata.publicMetadata,
      s₀.metadata.privateMetadata⟩]) :
    Booked s₀ adminAddr (w', out ++ ms) where
  tokens p := by
    have hbefore := hb.tokens p
    have hsame : decide (buyer.raw = p.raw) = decide (buyer.addr = p.addr) :=
      decide_eq_decide.mpr Party.raw_eq_iff
    simp only [List.countP_cons, mintsFor_mint] at hbefore
    simp only [tokensFor, purchasesBy, hlog, List.countP_append, List.countP_cons,
      List.countP_nil, countP_free hout, Entry.isMintFor, Entry.isPurchaseBy, true_and, hsame,
      Bool.false_eq_true, if_false, Nat.add_zero, Nat.zero_add] at hbefore ⊢
    omega
  coins denom := by
    have hbefore := hb.coins denom
    simp only [paymentsTo, receipts, List.flatMap_cons, Mail.pays, List.nil_append] at hbefore
    simp only [paymentsTo, receipts, hlog, List.flatMap_append, List.flatMap_cons,
      List.flatMap_nil, pays_free hout, Entry.payment, Entry.receipt, List.append_nil,
      List.nil_append]
    exact hbefore
  entries := by
    intro e he
    simp only [hlog] at he
    rcases List.mem_append.mp he with he | he
    · exact hb.entries e he
    · rw [List.mem_singleton.mp he]
      intro _
      exact ⟨rfl, rfl⟩

theorem Booked.delivered (hX : X.Documented) (hT : X.Tagged)
    (hadm : X.api.addrHumanize s₀.admin = .ok adminAddr) (hc : Routed s₀ (w, m :: ms))
    (hb : Booked s₀ adminAddr (w, m :: ms)) (h : handle w m ρ = some (w', out)) :
    Booked s₀ adminAddr (w', out ++ ms) := by
  have hsame : w.log = w.log ++ ([] : List Minted).map .minted := by simp
  have hmail : ∀ r, ∀ m' ∈ mailFrom (P := P) .child r, m'.Free :=
    fun r m' hm' => free_of_origin (mailFrom_child_foreign m' hm')
  obtain ⟨s, h', hl, he, _, ⟨hm, _⟩ | ⟨a, ha, rfl⟩⟩ := hc.effect hX h
  · cases he with
    | @transferred toAddress amount hbody =>
      obtain ⟨origin, body⟩ := m
      cases hbody
      cases hm with
      | payment _ hto =>
        cases hadm.symm.trans hto
        exact hb.paid hadm
      | third o =>
        have hlog : w.log ++ paymentsOf (P := P) toAddress amount (.third o) =
            w.log ++ ([] : List Minted).map .minted := by
          simp [paymentsOf]
        exact hb.free (free_of_origin (by simp)) (by simp) hlog (by simp)
    | purchased hcalls _ hck ha =>
      rw [hl.prices] at hck
      rw [hl.admin, hadm] at ha
      cases ha
      rw [hl.metadata]
      exact hb.purchased (hm.free_of_calls_dealer hT hcalls) (Dealer.mem_of_checkFunds hck) _ _
    | subscribed hcalls =>
      exact hb.free (hm.free_of_calls_dealer hT hcalls) (by simp) hsame (by simp)
    | heard hcalls =>
      exact hb.free (hm.free_of_calls_dealer hT hcalls) (by simp) hsame (by simp)
    | base hcalls hmsg hbase _ =>
      by_cases ho : m.origin = .dealer
      · -- the mint of a purchase
        obtain ⟨buyer, a, codeHash, rfl, rfl⟩ := hm.dealer_base hT ho hcalls hmsg
        obtain ⟨minter, owner, hminter, howner, hmints⟩ := hX.impl.mintNft rfl hbase
        cases P.dealer_canonicalize.symm.trans hminter
        cases buyer.canonicalize_addr.symm.trans howner
        rw [Dealer.mintNftMsg, hmints]
        exact hb.minted buyer (hmail _) rfl
      · refine hb.free (free_of_origin ho) (hmail _) rfl ?_
        intro t ht hminter
        have hsender := hX.impl.mints_by_sender hbase t ht
        have hraw := Except.ok.inj (m.origin.canonicalize_addr.symm.trans hsender)
        exact ho (Party.eq_dealer (hraw.trans hminter))
    | childSubscribed _ _ hadd =>
      rw [Registry.add_full rfl] at hadd
      cases hadd
    | childHeard hcalls hmsg =>
      have hfree : m.Free := by
        refine hm.free hT ?_ ?_
        · obtain ⟨_, _, _, hbody⟩ := hcalls
          simp [hbody]
        · intro b' funds' hcalls' msg hmsg'
          obtain ⟨_, rfl⟩ := hcalls.unique hcalls'
          cases hmsg.symm.trans hmsg'
      exact hb.free hfree (by simp) hsame (by simp)
    | dealerMigrated hmig =>
      refine hb.free (hm.free_of_migrates hT hmig) ?_ hsame (by simp)
      intro m' hm'
      obtain ⟨c, _, rfl⟩ := List.mem_map.mp hm'
      exact free_announcement hT _ c
    | childMigrated hmig =>
      exact hb.free (hm.free_of_migrates hT hmig)
        (fun m' hm' => free_of_origin (broadcast_child_foreign m' hm')) hsame (by simp)
    | elsewhere hn =>
      have hfree : m.Free :=
        hm.free hT hn.not_bank fun b funds hcalls => (hn.not_calls.2 hcalls).elim
      exact hb.free hfree (fun m' hm' => free_of_origin (reaction_foreign ρ m' hm')) hsame (by simp)
  · obtain ⟨rfl, st, s', rfl, _, _⟩ := announced_effect hX hT hl ha he
    exact hb.free (free_of_origin (by simp [childAnnouncement])) (by simp) hsame (by simp)

/-! ## Runs -/

theorem Deployed.booked {d : Deployment P} (hd : Deployed d w s) (adminAddr : Addr) :
    Booked s adminAddr (w, ([] : List (Mail P))) where
  tokens p := by simp [tokensFor, hd.log, purchasesBy]
  coins denom := by simp [hd.log, paymentsTo, receipts]
  entries := by simp [hd.log]

theorem Booked.start (hb : Booked s₀ adminAddr (w, ([] : List (Mail P))))
    (t : List (Outsider P × CosmosMsg)) : Booked s₀ adminAddr (w, (machine X P).start t) := by
  have hfree : ∀ m ∈ (machine X P).start t, m.Free :=
    fun m hm => free_of_origin (start_foreign t m hm)
  refine ⟨fun p => ?_, fun denom => ?_, hb.entries⟩
  · have hbefore := hb.tokens p
    rw [countP_free hfree]
    simpa using hbefore
  · have hbefore := hb.coins denom
    rw [pays_free hfree]
    simpa using hbefore

theorem Deployed.run_booked (hX : X.Documented) (hT : X.Tagged) {d : Deployment P}
    (hd : Deployed d w s) (hadm : X.api.addrHumanize s.admin = .ok adminAddr)
    (ts : List (List (Outsider P × CosmosMsg) × List (Reaction P))) :
    Routed s ((machine X P).run w ts, ([] : List (Mail P))) ∧
      Booked s adminAddr ((machine X P).run w ts, ([] : List (Mail P))) := by
  refine Machine.run_inv_all (I := fun c => Routed s c ∧ Booked s adminAddr c)
    (J := fun w => Routed s (w, ([] : List (Mail P))) ∧
      Booked s adminAddr (w, ([] : List (Mail P))))
    (fun _ t hw => ⟨hw.1.start t, hw.2.start t⟩) ?_ (fun _ hw => hw) ts w
    ⟨hd.routed, hd.booked adminAddr⟩
  rintro ρ c c' ⟨hc, hb⟩ hstep
  refine ⟨hc.advance hX hT hstep, ?_⟩
  obtain ⟨w, m, ms, w', out, rfl, hh, rfl⟩ := Machine.advance_eq_some.mp hstep
  exact hb.delivered hX hT hadm hc hh

/-- The balance of a dealer that was deployed by `d`. -/
structure Books (d : Deployment P) (w : World) : Prop where
  tokens : ∀ p : Party P, tokensFor p w.log = purchasesBy p.addr w.log
  coins : ∃ A raw adminAddr, Dealer.trueAdmin X d.info d.msg = .ok A ∧
    X.api.addrCanonicalize A = .ok raw ∧ X.api.addrHumanize raw = .ok adminAddr ∧
    (∀ a amount, .paid a amount ∈ w.log → a = adminAddr) ∧
    ∀ denom, amountOf denom (paymentsTo adminAddr w.log) = amountOf denom (receipts w.log)
  purchases : ∀ buyer funds, .purchased buyer funds ∈ w.log →
    ∃ c, funds = [c] ∧ c ∈ d.msg.prices
  metadata : ∀ t, .minted t ∈ w.log → t.minter = P.dealerRaw →
    t.publicMetadata = d.msg.publicMetadata ∧ t.privateMetadata = d.msg.privateMetadata
  /-- Only purchases make the dealer send anything while it executes. -/
  other_execute : ∀ {env info msg r st}, msg ≠ .dealer .purchaseMint →
    Dealer.execute X env info msg w.dealer = (.ok r, st) → r.messages = []
  /-- A migration of the dealer sends no coins, and nothing for the base contract. -/
  other_migrate : ∀ {env r st}, Dealer.migrate X env w.dealer = (.ok r, st) →
    ∀ sm ∈ r.messages, ∃ a codeHash b, sm = SubMsg.new (.wasm (.execute a codeHash b [])) ∧
      ∀ msg, Migratable.visitBytes X b ≠ .ok (.base msg)

theorem Deployed.books (hX : X.Documented) (hT : X.Tagged) {d : Deployment P} {w₀ : World}
    (hd : Deployed d w₀ s₀) (hadm : X.api.addrHumanize s₀.admin = .ok adminAddr)
    (hc : Routed s₀ (w, ([] : List (Mail P)))) (hb : Booked s₀ adminAddr (w, ([] : List (Mail P)))) :
    Books d w := by
  cases hc with
  | @linked _ _ s h hl _ _ =>
    refine ⟨?_, ?_, ?_, ?_, ?_, ?_⟩
    · intro p
      have htokens := hb.tokens p
      simpa using htokens
    · obtain ⟨A, hA, hraw, _⟩ := hd.admin
      refine ⟨A, s₀.admin, adminAddr, hA, hraw, hadm, ?_, ?_⟩
      · intro a amount he
        have hpaid : X.api.addrHumanize s₀.admin = .ok a := hb.entries _ he
        exact Except.ok.inj (hpaid.symm.trans hadm)
      · intro denom
        have hcoins := hb.coins denom
        simpa using hcoins
    · intro buyer funds he
      have hbought : ∃ c, funds = [c] ∧ c ∈ s₀.prices := hb.entries _ he
      rw [hd.prices] at hbought
      exact hbought
    · intro t ht hminter
      have hmeta := hb.entries _ ht hminter
      rw [hd.metadata] at hmeta
      exact hmeta
    · intro env info msg r st hne hcall
      rcases Dealer.execute_cases hX.cw hl.holds env hcall with ⟨rfl, _⟩ |
        ⟨_, _, _, _, _, _, hr, _⟩ | ⟨_, _, _, _, _, hr, _⟩
      · exact (hne rfl).elim
      · exact hr
      · exact hr
    · intro env r st hcall sm hsm
      obtain ⟨_, cs, _, hr⟩ := (Dealer.migrate_ok hX.cw hl.holds).mp hcall
      rw [hr] at hsm
      obtain ⟨c, _, rfl⟩ := List.mem_map.mp hsm
      refine ⟨c.address, c.codeHash, _, rfl, fun msg hmsg => ?_⟩
      cases (Migratable.visitBytes_toBytes hT (.migrateListener _)).symm.trans hmsg

/-- The books balance after every run, and a transaction that fails leaves them as they were. -/
theorem books_balance (hX : X.Documented) (hT : X.Tagged) {d : Deployment P}
    (hd : d.deploy = some w)
    (ts : List (List (Outsider P × CosmosMsg) × List (Reaction P))) :
    Books d ((machine X P).run w ts) ∧
    ∀ ms ρs, (machine X P).transact ((machine X P).run w ts) ((machine X P).start ms) ρs = none →
      (machine X P).run w (ts ++ [(ms, ρs)]) = (machine X P).run w ts := by
  obtain ⟨s, hs⟩ := deploy_holds hX hT hd
  obtain ⟨adminAddr, hadm⟩ := hs.admin_humanizes
  constructor
  · obtain ⟨hc, hb⟩ := hs.run_booked hX hT hadm ts
    exact hs.books hX hT hadm hc hb
  · intro ms ρs hfail
    rw [Machine.run_append, Machine.run_singleton, Machine.apply_of_none hfail]

end

section

open Reference Reference.Chain

/-- Two purchases, with a migration of the child in between. -/
def sales : List (List (Outsider parties × CosmosMsg) × List (Reaction parties)) :=
  [([(buyer, purchase "dealer_v1" [Sale.price])], [silent, silent, silent]),
    ([(seller, migrate "child" "child_v2")], [silent, silent]),
    ([(buyer, purchase "dealer_v1" [Sale.price])], [silent, silent, silent])]

theorem books_balance_chain :
    purchasesBy "buyer" ((machine crates parties).run world sales).log = 2 ∧
      Books deployment ((machine crates parties).run world sales) :=
  ⟨by decide +kernel, (books_balance crates_documented crates_tagged deploy_eq sales).1⟩

end

end Snip721Migratable
