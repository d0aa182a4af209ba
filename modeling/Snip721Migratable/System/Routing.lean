import Snip721Migratable.System.Handshake

/-!
# System.Routing

The messages in flight between a dealer and its child reach the contract they are meant for, in
every run: the dealer knows the child by its address and its current code hash, except while the
child's own announcement of a new code hash is the next message to be delivered.

* `Effect` : what one delivery does to the two contracts (`delivery_effect`).
* `Tame` : the messages that can be in flight.
* `Routed` : the invariant of the configurations inside a transaction. `Routed.advance` is its
  step, `routed_run` the run.
-/

namespace Snip721Migratable

open Registry

section Effects

variable {X : Crates} {P : Parties X}

/-- `m` executes the contract with the address `raw`. -/
def Mail.Calls (m : Mail P) (raw : CanonicalAddr) (b : Binary) (funds : List Coin) : Prop :=
  ∃ a codeHash, X.api.addrCanonicalize a = .ok raw ∧ m.body = .wasm (.execute a codeHash b funds)

/-- `m` migrates the contract with the address `raw`. -/
def Mail.Migrates (m : Mail P) (raw : CanonicalAddr) (codeHash : String) : Prop :=
  ∃ a codeId b, X.api.addrCanonicalize a = .ok raw ∧
    m.body = .wasm (.migrate a codeId codeHash b)

theorem Mail.Calls.unique {m : Mail P} {raw raw' : CanonicalAddr} {b b' : Binary}
    {funds funds' : List Coin} (h : m.Calls raw b funds) (h' : m.Calls raw' b' funds') :
    raw = raw' ∧ b = b' := by
  obtain ⟨a, codeHash, ha, hb⟩ := h
  obtain ⟨a', codeHash', ha', hb'⟩ := h'
  rw [hb] at hb'
  cases hb'
  exact ⟨Except.ok.inj (ha.symm.trans ha'), rfl⟩

theorem Mail.Calls.not_migrates {m : Mail P} {raw raw' : CanonicalAddr} {b : Binary}
    {funds : List Coin} {codeHash : String} (h : m.Calls raw b funds) :
    ¬ m.Migrates raw' codeHash := by
  intro hmig
  obtain ⟨_, _, _, _, hb⟩ := hmig
  obtain ⟨_, _, _, hb'⟩ := h
  rw [hb] at hb'
  cases hb'

theorem Mail.Elsewhere.not_bank {m : Mail P} (h : m.Elsewhere) (b : BankMsg) : m.body ≠ .bank b := by
  obtain ⟨msg, hb, _⟩ := h
  rw [hb]
  simp

theorem Mail.Elsewhere.not_calls {m : Mail P} {b : Binary} {funds : List Coin}
    (h : m.Elsewhere) : ¬ m.Calls P.dealerRaw b funds ∧ ¬ m.Calls P.childRaw b funds := by
  obtain ⟨msg, hb, hr⟩ := h
  constructor
  · intro hcalls
    obtain ⟨a, codeHash, ha, hb'⟩ := hcalls
    cases hb.symm.trans hb'
    rw [receiver, resolve_dealer.mpr ha] at hr
    cases hr
  · intro hcalls
    obtain ⟨a, codeHash, ha, hb'⟩ := hcalls
    cases hb.symm.trans hb'
    rw [receiver, resolve_child.mpr ha] at hr
    cases hr

/-- What a migrated contract sends to the contracts `cs`. -/
def broadcast (X : Crates) (p : Party P) (codeHash : String) (cs : List ContractInfo) :
    List (Mail P) :=
  cs.map fun c => ⟨p, (X.cw.notify X.json .never 0 ⟨p.addr, codeHash⟩ none c).msg⟩

/-- What the delivery of `m` does, when the dealer holds `s` and the child holds `reg`. -/
inductive Effect (s : Dealer.State) (reg : Registry CanonicalContractInfo) (w : World)
    (m : Mail P) (ρ : Reaction P) : World → List (Mail P) → Prop where
  | transferred {toAddress : String} {amount : List Coin} :
      m.body = .bank (.send toAddress amount) →
      Effect s reg w m ρ { w with log := w.log ++ paymentsOf toAddress amount m.origin } []
  | purchased {b : Binary} {c : Coin} {adminAddr childAddr : Addr} :
      m.Calls P.dealerRaw b [c] → Dealer.visitBytes X b = .ok (.dealer .purchaseMint) →
      Dealer.checkFunds s.prices c = .ok () → X.api.addrHumanize s.admin = .ok adminAddr →
      X.api.addrHumanize s.child.address = .ok childAddr →
      Effect s reg w m ρ { w with log := w.log ++ [.purchased m.origin.addr [c]] }
        [⟨.dealer, .bank (.send adminAddr [c])⟩,
          ⟨.dealer, .wasm (.execute childAddr s.child.codeHash (X.json.toBytes
            X.impl.executeMsg.codec (Dealer.mintNftMsg m.origin.addr s.metadata)) [])⟩]
  | subscribed {b : Binary} {funds : List Coin} {msg : MigratableExecuteMsg}
      {c : CanonicalContractInfo} {reg' : Registry CanonicalContractInfo} {st : Store} :
      m.Calls P.dealerRaw b funds → Dealer.visitBytes X b = .ok (.migrate msg) →
      s.registry.add c = some reg' → Dealer.Holds X st { s with registry := reg' } →
      Effect s reg w m ρ { w with dealer := st } []
  | heard {b : Binary} {funds : List Coin} {migratedTo : ContractInfo} {data : Option Binary}
      {raw : CanonicalAddr} {l' : List CanonicalContractInfo} {st : Store} :
      m.Calls P.dealerRaw b funds →
      Dealer.visitBytes X b =
        .ok (.migrateListener (.migrationCompleteNotification migratedTo data)) →
      m.origin.raw = s.child.address → X.api.addrCanonicalize migratedTo.address = .ok raw →
      X.cw.Updated s.child.address ⟨raw, migratedTo.codeHash⟩ s.registry.entries l' →
      Dealer.Holds X st { s with
        child := ⟨raw, migratedTo.codeHash⟩,
        registry := { entries := l', slots := s.registry.slots } } →
      Effect s reg w m ρ { w with dealer := st } []
  | base {b : Binary} {funds : List Coin} {msg : Snip721ExecuteMsg} {r : Response} {st : Store} :
      m.Calls P.childRaw b funds → Migratable.visitBytes X b = .ok (.base msg) →
      X.impl.execute (ρ.env ⟨P.child, w.childHash⟩) { sender := m.origin.addr, funds } msg
        w.child = (.ok r, st) →
      X.cw.registry st = some reg →
      Effect s reg w m ρ
        { w with
          child := st,
          log := w.log ++ (X.impl.mints (ρ.env ⟨P.child, w.childHash⟩)
            { sender := m.origin.addr, funds } msg w.child).map .minted }
        (mailFrom .child r)
  | childSubscribed {b : Binary} {funds : List Coin} {msg : MigratableExecuteMsg}
      {c : CanonicalContractInfo} {reg' : Registry CanonicalContractInfo} {st : Store} :
      m.Calls P.childRaw b funds → Migratable.visitBytes X b = .ok (.migrate msg) →
      reg.add c = some reg' → X.cw.registry st = some reg' →
      Effect s reg w m ρ { w with child := st } []
  | childHeard {b : Binary} {funds : List Coin} {migratedTo : ContractInfo} {data : Option Binary}
      {raw : CanonicalAddr} {l' : List CanonicalContractInfo} {st : Store} :
      m.Calls P.childRaw b funds →
      Migratable.visitBytes X b =
        .ok (.migrateListener (.migrationCompleteNotification migratedTo data)) →
      X.api.addrCanonicalize migratedTo.address = .ok raw →
      X.cw.Updated m.origin.raw ⟨raw, migratedTo.codeHash⟩ reg.entries l' →
      X.cw.registry st = some { entries := l', slots := reg.slots } →
      Store.EqOff CwMigratable.keys w.child st →
      Effect s reg w m ρ { w with child := st } []
  | dealerMigrated {codeHash : String} {cs : List ContractInfo} :
      m.Migrates P.dealerRaw codeHash →
      List.Forall₂ (fun c i => X.cw.intoHumanized c = .ok i) s.registry.entries cs →
      Effect s reg w m ρ { w with dealerHash := codeHash } (broadcast X .dealer codeHash cs)
  | childMigrated {codeHash : String} {cs : List ContractInfo} :
      m.Migrates P.childRaw codeHash →
      List.Forall₂ (fun c i => X.cw.intoHumanized c = .ok i) reg.entries cs →
      Effect s reg w m ρ { w with childHash := codeHash } (broadcast X .child codeHash cs)
  | elsewhere : m.Elsewhere → Effect s reg w m ρ w ρ.mail

variable {s : Dealer.State} {reg : Registry CanonicalContractInfo} {w w' : World} {m : Mail P}
  {ρ : Reaction P} {out : List (Mail P)}

theorem mailFrom_broadcast {p : Party P} {r : Response} {env : Env} {codeHash : String}
    {cs : List ContractInfo} (henv : env.contract = ⟨p.addr, codeHash⟩)
    (hr : r.messages = cs.map (X.cw.notify X.json .never 0 env.contract none)) :
    mailFrom p r = broadcast X p codeHash cs := by
  rw [mailFrom, hr, henv, broadcast, List.map_map]
  rfl

theorem dealer_effect (hX : X.Documented) (hs : Dealer.Holds X w.dealer s) {b : Binary}
    {funds : List Coin} {msg : Dealer.ExecuteMsg} {env : Env} {r : Response} {st : Store}
    (hcalls : m.Calls P.dealerRaw b funds) (hmsg : Dealer.visitBytes X b = .ok msg)
    (h : Dealer.execute X env { sender := m.origin.addr, funds } msg w.dealer = (.ok r, st)) :
    Effect s reg w m ρ
      { w with dealer := st, log := w.log ++ purchasesOf m.origin.addr funds msg }
      (mailFrom .dealer r) := by
  rcases Dealer.execute_cases hX.cw hs env h with
    ⟨rfl, rfl, c, adminAddr, childAddr, hfunds, hck, hadm, hch, hr⟩ |
    ⟨address, codeHash, valid, raw, reg', rfl, hr, hv, hraw, hadd, hs'⟩ |
    ⟨migratedTo, data, raw, l', rfl, hr, hsender, hto, hup, hs'⟩
  · simp only at hfunds
    subst hfunds
    rw [mailFrom, hr]
    exact .purchased hcalls hmsg hck hadm hch
  · rw [mailFrom, hr]
    simp only [purchasesOf, List.append_nil, List.map_nil]
    exact .subscribed hcalls hmsg hadd hs'
  · rw [mailFrom, hr]
    simp only [purchasesOf, List.append_nil, List.map_nil]
    have hraw : m.origin.raw = s.child.address :=
      Except.ok.inj (m.origin.canonicalize_addr.symm.trans hsender)
    exact .heard hcalls hmsg hraw hto hup hs'

theorem child_effect (hX : X.Documented) (hreg : X.cw.registry w.child = some reg) {b : Binary}
    {funds : List Coin} {msg : Migratable.ExecuteMsg} {r : Response} {st : Store}
    (hcalls : m.Calls P.childRaw b funds) (hmsg : Migratable.visitBytes X b = .ok msg)
    (h : Migratable.execute X (ρ.env ⟨P.child, w.childHash⟩) { sender := m.origin.addr, funds }
      msg w.child = (.ok r, st)) :
    Effect s reg w m ρ
      { w with
        child := st,
        log := w.log ++ mintsOf (X := X) (ρ.env ⟨P.child, w.childHash⟩)
          { sender := m.origin.addr, funds } w.child msg }
      (mailFrom .child r) := by
  rcases Migratable.execute_cases hX hreg _ h with ⟨baseMsg, rfl, hbase, hreg'⟩ |
    ⟨address, codeHash, raw, reg', rfl, hr, hv, hraw, hadd, hreg', hoff⟩ |
    ⟨migratedTo, data, sender, raw, l', rfl, hr, hsender, hto, hup, hreg', hoff⟩
  · exact .base hcalls hmsg hbase hreg'
  · rw [mailFrom, hr]
    simp only [mintsOf, List.append_nil, List.map_nil]
    exact .childSubscribed hcalls hmsg hadd hreg'
  · rw [mailFrom, hr]
    simp only [mintsOf, List.append_nil, List.map_nil]
    cases m.origin.canonicalize_addr.symm.trans hsender
    exact .childHeard hcalls hmsg hto hup hreg' hoff

theorem delivery_effect (hX : X.Documented) (hs : Dealer.Holds X w.dealer s)
    (hreg : X.cw.registry w.child = some reg) (h : handle w m ρ = some (w', out)) :
    Effect s reg w m ρ w' out := by
  cases handle_cases h with
  | bank hb => exact .transferred hb
  | executeDealer hb ha _ hmsg hcall => exact dealer_effect hX hs ⟨_, _, ha, hb⟩ hmsg hcall
  | executeChild hb ha _ hmsg hcall => exact child_effect hX hreg ⟨_, _, ha, hb⟩ hmsg hcall
  | migrateDealer hb ha _ _ hcall =>
    obtain ⟨rfl, cs, hcs, hr⟩ := (Dealer.migrate_ok hX.cw hs).mp hcall
    rw [mailFrom_broadcast (p := .dealer) rfl hr]
    exact .dealerMigrated ⟨_, _, _, ha, hb⟩ hcs
  | migrateChild hb ha _ _ hcall =>
    obtain ⟨rfl, cs, hcs, hr⟩ := (Migratable.migrate_ok hX.cw hreg).mp hcall
    rw [mailFrom_broadcast (p := .child) rfl hr]
    exact .childMigrated ⟨_, _, _, ha, hb⟩ hcs
  | elsewhere hb hr _ => exact .elsewhere ⟨_, hb, hr⟩

end Effects

/-! ## Messages in flight -/

section Flight

variable {X : Crates} {P : Parties X}

/-- What the messages in flight look like, for a dealer that was set up with `s₀`. Outsiders may
send anything; the child calls token receivers, its announcements aside. -/
inductive Tame (s₀ : Dealer.State) : Mail P → Prop where
  | third (o : Outsider P) (body : CosmosMsg) : Tame s₀ ⟨.third o, body⟩
  | payment {toAddress : String} (amount : List Coin) :
      X.api.addrHumanize s₀.admin = .ok toAddress →
      Tame s₀ ⟨.dealer, .bank (.send toAddress amount)⟩
  | mint {a : String} (codeHash : String) (buyer : Party P) :
      X.api.addrCanonicalize a = .ok P.childRaw →
      Tame s₀ ⟨.dealer, .wasm (.execute a codeHash (X.json.toBytes X.impl.executeMsg.codec
        (Dealer.mintNftMsg buyer.addr s₀.metadata)) [])⟩
  | announcement (codeHash : String) (c : ContractInfo) :
      Tame s₀ ⟨.dealer, (X.cw.notify X.json .never 0 ⟨P.dealer, codeHash⟩ none c).msg⟩
  | callback {a codeHash : String} {b : Binary} {funds : List Coin} {t : String} :
      X.json.tagOf b = some t → t ∈ receiverTags →
      Tame s₀ ⟨.child, .wasm (.execute a codeHash b funds)⟩

variable {s₀ : Dealer.State} {m : Mail P} {raw : CanonicalAddr} {b : Binary} {funds : List Coin}

theorem Dealer.visitBytes_receiver (hT : X.Tagged) {t : String} (ht : X.json.tagOf b = some t)
    (hr : t ∈ receiverTags) (msg : Dealer.ExecuteMsg) : Dealer.visitBytes X b ≠ .ok msg := by
  have h₁ : X.json.fromSlice Dealer.dealerExecuteMsg.codec b = none := by
    refine TaggedEnum.fromSlice_eq_none _ fun t' ht' => ?_
    cases ht.symm.trans ht'
    simp only [receiverTags, List.mem_cons, List.not_mem_nil, or_false] at hr
    rcases hr with rfl | rfl <;> decide
  have h₂ : X.json.fromSlice X.cw.migratableExecuteMsg.codec b = none := by
    refine TaggedEnum.fromSlice_eq_none _ fun t' ht' => ?_
    cases ht.symm.trans ht'
    rw [hT.migratable]
    simp only [receiverTags, List.mem_cons, List.not_mem_nil, or_false] at hr
    rcases hr with rfl | rfl <;> decide
  have h₃ : X.json.fromSlice X.cw.migrationListenerExecuteMsg.codec b = none := by
    refine TaggedEnum.fromSlice_eq_none _ fun t' ht' => ?_
    cases ht.symm.trans ht'
    rw [hT.migrationListener]
    simp only [receiverTags, List.mem_cons, List.not_mem_nil, or_false] at hr
    rcases hr with rfl | rfl <;> decide
  simp [Dealer.visitBytes, h₁, h₂, h₃]

/-- The dealer understands no message of the child, its announcements aside. -/
theorem Tame.child_not_read (hT : X.Tagged) (ht : Tame s₀ m) (ho : m.origin = .child)
    (hc : m.Calls raw b funds) (msg : Dealer.ExecuteMsg) : Dealer.visitBytes X b ≠ .ok msg := by
  obtain ⟨a, codeHash, _, hb⟩ := hc
  cases ht with
  | third o body => cases ho
  | payment amount _ => cases ho
  | mint codeHash buyer _ => cases ho
  | announcement codeHash c => cases ho
  | callback htag hr =>
    cases hb
    exact Dealer.visitBytes_receiver hT htag hr msg

/-- The only base messages the dealer sends are mints. -/
theorem Tame.dealer_base (hT : X.Tagged) (ht : Tame s₀ m) (ho : m.origin = .dealer)
    (hc : m.Calls raw b funds) {msg : Snip721ExecuteMsg}
    (hmsg : Migratable.visitBytes X b = .ok (.base msg)) :
    ∃ (buyer : Party P) (a codeHash : String), msg = Dealer.mintNftMsg buyer.addr s₀.metadata ∧
      m = ⟨.dealer, .wasm (.execute a codeHash (X.json.toBytes X.impl.executeMsg.codec
        (Dealer.mintNftMsg buyer.addr s₀.metadata)) [])⟩ := by
  obtain ⟨a, codeHash, _, hb⟩ := hc
  cases ht with
  | third o body => cases ho
  | payment amount _ => cases hb
  | mint codeHash buyer _ =>
    cases hb
    cases (Migratable.visitBytes_toBytes hT (.base _)).symm.trans hmsg
    exact ⟨buyer, _, _, rfl, rfl⟩
  | announcement codeHash c =>
    cases hb
    cases (Migratable.visitBytes_toBytes hT (.migrateListener _)).symm.trans hmsg
  | callback _ _ => cases ho

/-- The only notifications the dealer sends are its own announcements. -/
theorem Tame.dealer_listener (hT : X.Tagged) (ht : Tame s₀ m) (ho : m.origin = .dealer)
    (hc : m.Calls raw b funds) {migratedTo : ContractInfo} {data : Option Binary}
    (hmsg : Migratable.visitBytes X b =
      .ok (.migrateListener (.migrationCompleteNotification migratedTo data))) :
    ∃ codeHash c, migratedTo = ⟨P.dealer, codeHash⟩ ∧
      m = ⟨.dealer, (X.cw.notify X.json .never 0 ⟨P.dealer, codeHash⟩ none c).msg⟩ := by
  obtain ⟨a, codeHash, _, hb⟩ := hc
  cases ht with
  | third o body => cases ho
  | payment amount _ => cases hb
  | mint codeHash buyer _ =>
    cases hb
    cases (Migratable.visitBytes_toBytes hT (.base _)).symm.trans hmsg
  | announcement codeHash c =>
    cases hb
    cases (Migratable.visitBytes_toBytes hT (.migrateListener _)).symm.trans hmsg
    exact ⟨codeHash, c, rfl, rfl⟩
  | callback _ _ => cases ho

theorem Party.eq_dealer {p : Party P} (h : p.raw = P.dealerRaw) : p = .dealer := by
  cases p with
  | dealer => rfl
  | child => exact (P.distinct h.symm).elim
  | third o => exact (o.ne_dealer h).elim

theorem Party.eq_child {p : Party P} (h : p.raw = P.childRaw) : p = .child := by
  cases p with
  | dealer => exact (P.distinct h).elim
  | child => rfl
  | third o => exact (o.ne_child h).elim

/-! The child, outsiders, and the beginning of a transaction do not speak for the dealer. -/

theorem mailFrom_child_foreign {r : Response} :
    ∀ m ∈ mailFrom (P := P) .child r, m.origin ≠ .dealer := by
  intro m hm
  obtain ⟨sm, _, rfl⟩ := List.mem_map.mp hm
  simp

theorem broadcast_child_foreign {codeHash : String} {cs : List ContractInfo} :
    ∀ m ∈ broadcast (P := P) X .child codeHash cs, m.origin ≠ .dealer := by
  intro m hm
  obtain ⟨c, _, rfl⟩ := List.mem_map.mp hm
  simp

theorem reaction_foreign (ρ : Reaction P) : ∀ m ∈ ρ.mail, m.origin ≠ .dealer := by
  intro m hm
  obtain ⟨p, _, rfl⟩ := List.mem_map.mp hm
  simp

theorem start_foreign (t : List (Outsider P × CosmosMsg)) :
    ∀ m ∈ (machine X P).start t, m.origin ≠ .dealer := by
  intro m hm
  obtain ⟨p, _, rfl⟩ := List.mem_map.mp hm
  simp

theorem tame_reaction (s₀ : Dealer.State) (ρ : Reaction P) : ∀ m ∈ ρ.mail, Tame s₀ m := by
  intro m hm
  obtain ⟨p, _, rfl⟩ := List.mem_map.mp hm
  exact .third p.1 p.2

theorem tame_callbacks (hX : X.Documented) {env : Env} {info : MessageInfo}
    {msg : Snip721ExecuteMsg} {st st' : Store} {r : Response}
    (h : X.impl.execute env info msg st = (.ok r, st')) :
    ∀ m ∈ mailFrom (P := P) .child r, Tame s₀ m := by
  intro m hm
  obtain ⟨sm, hsm, rfl⟩ := List.mem_map.mp hm
  obtain ⟨_, a, codeHash, b, funds, t, hmsg, ht, htr⟩ := hX.impl.callbacks h sm hsm
  rw [hmsg]
  exact .callback ht htr

theorem tame_broadcast (s₀ : Dealer.State) (codeHash : String) (cs : List ContractInfo) :
    ∀ m ∈ broadcast (P := P) X .dealer codeHash cs, Tame s₀ m := by
  intro m hm
  obtain ⟨c, _, rfl⟩ := List.mem_map.mp hm
  exact .announcement codeHash c

end Flight

/-! ## The invariant -/

section Invariant

variable {X : Crates} (P : Parties X)

/-- The two contracts know each other's addresses. The dealer `s` still has the terms it was set
up with; the child expects the dealer under the code hash `h`. -/
structure Linked (s₀ s : Dealer.State) (w : World) (h : String) : Prop where
  holds : Dealer.Holds X w.dealer s
  admin : s.admin = s₀.admin
  prices : s.prices = s₀.prices
  metadata : s.metadata = s₀.metadata
  address : s.child.address = P.childRaw
  head : s.registry.entries.head? = some s.child
  childRegistry : X.cw.registry w.child =
    some { entries := [⟨P.dealerRaw, h⟩], slots := some 0 }

variable {P}

/-- The child's announcement to a dealer at `a`. -/
def childAnnouncement (w : World) (a h : String) : Mail P :=
  ⟨.child, (X.cw.notify X.json .never 0 ⟨P.child, w.childHash⟩ none ⟨a, h⟩).msg⟩

inductive Routed (s₀ : Dealer.State) : World × List (Mail P) → Prop where
  | linked {w : World} {ms : List (Mail P)} {s : Dealer.State} {h : String} :
      Linked P s₀ s w h → s.child.codeHash = w.childHash → (∀ m ∈ ms, Tame s₀ m) →
      Routed s₀ (w, ms)
  | announcing {w : World} {ms : List (Mail P)} {s : Dealer.State} {a h : String} :
      Linked P s₀ s w h → X.api.addrCanonicalize a = .ok P.dealerRaw →
      (∀ m ∈ ms, Tame s₀ m) → Routed s₀ (w, childAnnouncement w a h :: ms)

variable {s₀ s : Dealer.State} {w w' : World} {h : String} {m : Mail P} {ρ : Reaction P}
  {out : List (Mail P)}

/-- Updates of the child's registry: only the dealer can change its one entry. -/
theorem childRegistry_heard (hX : X.Documented) {p : Party P} {raw : CanonicalAddr}
    {codeHash : String} {l' : List CanonicalContractInfo}
    (hup : X.cw.Updated p.raw ⟨raw, codeHash⟩ [⟨P.dealerRaw, h⟩] l') :
    (p ≠ .dealer ∧ l' = [⟨P.dealerRaw, h⟩]) ∨ (p = .dealer ∧ l' = [⟨raw, codeHash⟩]) := by
  have hren := hup.renamed hX.cw
  by_cases hp : P.dealerRaw = p.raw
  · exact .inr ⟨Party.eq_dealer hp.symm, hren.singleton hp⟩
  · refine .inl ⟨?_, hren.eq_of_forall_ne ?_⟩
    · rintro rfl
      exact hp rfl
    · intro x hx
      cases List.mem_singleton.mp hx
      exact hp

/-- The child's announcement does one thing: it gives the dealer the child's code hash. -/
theorem announced_effect (hX : X.Documented) (hT : X.Tagged) (hl : Linked P s₀ s w h)
    {a : String} (ha : X.api.addrCanonicalize a = .ok P.dealerRaw)
    {reg : Registry CanonicalContractInfo}
    (he : Effect s reg w (childAnnouncement w a h) ρ w' out) :
    out = [] ∧ ∃ st s', w' = { w with dealer := st } ∧ Linked P s₀ s' w' h ∧
      s'.child.codeHash = w'.childHash := by
  have hbody : ∀ {raw b funds}, (childAnnouncement (P := P) w a h).Calls raw b funds →
      raw = P.dealerRaw ∧ b = X.cw.notification X.json ⟨P.child, w.childHash⟩ none := by
    intro raw b funds hcalls
    obtain ⟨a', codeHash, ha', hb⟩ := hcalls
    cases hb
    exact ⟨Except.ok.inj (ha'.symm.trans ha), rfl⟩
  have hread : Dealer.visitBytes X (X.cw.notification X.json ⟨P.child, w.childHash⟩ none) =
      .ok (.migrateListener (.migrationCompleteNotification ⟨P.child, w.childHash⟩ none)) :=
    Dealer.visitBytes_toBytes hT (.migrateListener _)
  cases he with
  | transferred hb => cases hb
  | purchased hc hmsg =>
    obtain ⟨_, rfl⟩ := hbody hc
    cases hread.symm.trans hmsg
  | subscribed hc hmsg =>
    obtain ⟨_, rfl⟩ := hbody hc
    cases hread.symm.trans hmsg
  | @heard b funds migratedTo data raw l' st hc hmsg hsender hto hup hs =>
    obtain ⟨_, rfl⟩ := hbody hc
    cases hread.symm.trans hmsg
    cases P.child_canonicalize.symm.trans hto
    refine ⟨rfl, st, _, rfl, ⟨hs, hl.admin, hl.prices, hl.metadata, rfl, ?_, hl.childRegistry⟩,
      rfl⟩
    exact (hup.renamed hX.cw).head? hl.head rfl
  | base hc => exact (P.distinct (hbody hc).1.symm).elim
  | childSubscribed hc => exact (P.distinct (hbody hc).1.symm).elim
  | childHeard hc => exact (P.distinct (hbody hc).1.symm).elim
  | dealerMigrated hm =>
    obtain ⟨_, _, _, _, hb⟩ := hm
    cases hb
  | childMigrated hm =>
    obtain ⟨_, _, _, _, hb⟩ := hm
    cases hb
  | elsewhere hn => exact (hn.not_calls.1 ⟨a, h, ha, rfl⟩).elim

theorem Linked.purchase_tame (hX : X.Documented) (hl : Linked P s₀ s w h) {adminAddr childAddr : Addr}
    (hadm : X.api.addrHumanize s.admin = .ok adminAddr)
    (hch : X.api.addrHumanize s.child.address = .ok childAddr) (buyer : Party P)
    (amount : List Coin) :
    ∀ m ∈ ([⟨.dealer, .bank (.send adminAddr amount)⟩,
      ⟨.dealer, .wasm (.execute childAddr s.child.codeHash (X.json.toBytes
        X.impl.executeMsg.codec (Dealer.mintNftMsg buyer.addr s.metadata)) [])⟩] : List (Mail P)),
      Tame s₀ m := by
  intro m hm
  simp only [List.mem_cons, List.not_mem_nil, or_false] at hm
  rcases hm with rfl | rfl
  · rw [hl.admin] at hadm
    exact .payment amount hadm
  · rw [hl.address] at hch
    rw [hl.metadata]
    exact .mint _ buyer (hX.api.humanize hch)

/-- The step of the invariant, when the dealer knows the child. -/
theorem Linked.routed (hX : X.Documented) (hT : X.Tagged) (hl : Linked P s₀ s w h)
    (hsync : s.child.codeHash = w.childHash) (hm : Tame s₀ m) {ms : List (Mail P)}
    (hms : ∀ m ∈ ms, Tame s₀ m)
    (he : Effect s { entries := [⟨P.dealerRaw, h⟩], slots := some 0 } w m ρ w' out) :
    Routed s₀ (w', out ++ ms) := by
  have hout : ∀ {out : List (Mail P)}, (∀ m ∈ out, Tame s₀ m) → ∀ m ∈ out ++ ms, Tame s₀ m := by
    intro out ho m hm
    rcases List.mem_append.mp hm with hm | hm
    · exact ho m hm
    · exact hms m hm
  cases he with
  | transferred hb => exact .linked (s := s) (h := h) { hl with } hsync hms
  | purchased hc hmsg hck hadm hch =>
    exact .linked (s := s) (h := h) { hl with } hsync (hout (hl.purchase_tame hX hadm hch _ _))
  | @subscribed b funds msg c reg' st hc hmsg hadd hs =>
    refine .linked (s := { s with registry := reg' }) (h := h) { hl with holds := hs, head := ?_ }
      hsync hms
    rw [add_entries hadd]
    exact head?_insertNew hl.head
  | heard hc hmsg hsender =>
    have ho := Party.eq_child (hsender.trans hl.address)
    exact (hm.child_not_read hT ho hc _ hmsg).elim
  | base hc hmsg hbase hreg =>
    exact .linked (s := s) (h := h) { hl with childRegistry := hreg } hsync
      (hout (tame_callbacks hX hbase))
  | childSubscribed hc hmsg hadd =>
    rw [add_full rfl] at hadd
    cases hadd
  | @childHeard b funds migratedTo data raw l' st hc hmsg hto hup hreg hoff =>
    rcases childRegistry_heard hX hup with ⟨_, rfl⟩ | ⟨ho, rfl⟩
    · exact .linked (s := s) (h := h) { hl with childRegistry := hreg } hsync hms
    · obtain ⟨codeHash, c, rfl, _⟩ := hm.dealer_listener hT ho hc hmsg
      cases P.dealer_canonicalize.symm.trans hto
      exact .linked (s := s) (h := codeHash) { hl with childRegistry := hreg } hsync hms
  | dealerMigrated hm hcs =>
    exact .linked (s := s) (h := h) { hl with } hsync (hout (tame_broadcast s₀ _ _))
  | @childMigrated codeHash cs hm hcs =>
    obtain ⟨i, cs', hi, hcs', rfl⟩ := List.forall₂_cons_left_iff.mp hcs
    obtain rfl := List.forall₂_nil_left_iff.mp hcs'
    rw [hX.cw.intoHumanized] at hi
    cases hhum : X.api.addrHumanize P.dealerRaw with
    | error e => rw [hhum] at hi; cases hi
    | ok a =>
      rw [hhum] at hi
      cases hi
      exact .announcing (w := { w with childHash := codeHash }) (s := s) { hl with }
        (hX.api.humanize hhum) hms
  | elsewhere => exact .linked hl hsync (hout (tame_reaction s₀ ρ))

/-- What a step from a routed configuration is. -/
theorem Routed.effect (hX : X.Documented) {ms : List (Mail P)} (hc : Routed s₀ (w, m :: ms))
    (h : handle w m ρ = some (w', out)) :
    ∃ s h, Linked P s₀ s w h ∧
      Effect s { entries := [⟨P.dealerRaw, h⟩], slots := some 0 } w m ρ w' out ∧
      (∀ m ∈ ms, Tame s₀ m) ∧
      ((Tame s₀ m ∧ s.child.codeHash = w.childHash) ∨
        ∃ a, X.api.addrCanonicalize a = .ok P.dealerRaw ∧ m = childAnnouncement w a h) := by
  cases hc with
  | @linked _ _ s h' hl hsync hms =>
    exact ⟨s, h', hl, delivery_effect hX hl.holds hl.childRegistry h,
      fun m hm => hms m (.tail _ hm), .inl ⟨hms m (.head _), hsync⟩⟩
  | @announcing _ _ s a h' hl ha hms =>
    exact ⟨s, h', hl, delivery_effect hX hl.holds hl.childRegistry h, hms, .inr ⟨a, ha, rfl⟩⟩

theorem Routed.delivered (hX : X.Documented) (hT : X.Tagged) {ms : List (Mail P)}
    (hc : Routed s₀ (w, m :: ms)) (h : handle w m ρ = some (w', out)) :
    Routed s₀ (w', out ++ ms) := by
  obtain ⟨s, h', hl, he, hms, ⟨hm, hsync⟩ | ⟨a, ha, rfl⟩⟩ := hc.effect hX h
  · exact hl.routed hX hT hsync hm hms he
  · obtain ⟨rfl, st, s', rfl, hl', hsync⟩ := announced_effect hX hT hl ha he
    exact .linked hl' hsync hms

theorem Routed.start (hw : Routed s₀ (w, ([] : List (Mail P))))
    (t : List (Outsider P × CosmosMsg)) : Routed s₀ (w, (machine X P).start t) := by
  cases hw with
  | linked hl hsync _ =>
    refine .linked hl hsync fun m hm => ?_
    obtain ⟨p, _, rfl⟩ := List.mem_map.mp hm
    exact .third p.1 p.2

/-- The dealer and its child right after the transaction that created them. -/
theorem Deployed.routed {d : Deployment P} (hd : Deployed d w s) :
    Routed s (w, ([] : List (Mail P))) := by
  have hl : Linked P s s w d.dealerHash :=
    { holds := hd.holds
      admin := rfl
      prices := rfl
      metadata := rfl
      address := by rw [hd.child]
      head := by rw [hd.registry]; rfl
      childRegistry := hd.childRegistry }
  refine .linked hl ?_ (by simp)
  rw [hd.child, hd.childHash]

theorem Routed.advance (hX : X.Documented) (hT : X.Tagged) {c c' : World × List (Mail P)}
    (hc : Routed s₀ c) (h : (machine X P).advance ρ c = some c') : Routed s₀ c' := by
  obtain ⟨w, m, ms, w', out, rfl, hh, rfl⟩ := Machine.advance_eq_some.mp h
  exact hc.delivered hX hT hh

/-- No run loses the child. -/
theorem Deployed.run_routed (hX : X.Documented) (hT : X.Tagged) {d : Deployment P}
    (hd : Deployed d w s) (ts : List (List (Outsider P × CosmosMsg) × List (Reaction P))) :
    Routed s ((machine X P).run w ts, ([] : List (Mail P))) :=
  Machine.run_inv_all (I := Routed s) (J := fun w => Routed s (w, ([] : List (Mail P))))
    (fun _ t hw => hw.start t) (fun _ _ _ hc h => hc.advance hX hT h) (fun _ hw => hw) ts w
    hd.routed

end Invariant

end Snip721Migratable
