import Snip721Migratable.System.Availability

/-!
# System.Queries

What a client learns from the dealer if all it has is the bytes of the answers. In every world that
a run reaches, what it reads is true: these are the prices that a purchase is held to, and this is
where the child is, under the code hash that it has now.

* `ask` : a question and its answer, as bytes.
* `queries_are_truthful` : what the answers say about the next purchase.
-/

namespace Snip721Migratable

open Dealer (QueryMsg QueryAnswer queryMsg queryAnswer)

section

variable {X : Crates}

/-- What a client reads in the answer to `question`, if there is one. -/
def ask (X : Crates) (deps : Store) (question : Binary) : Option QueryAnswer :=
  match X.json.fromSlice queryMsg.codec question with
  | none => none
  | some msg =>
    match Dealer.query X deps msg with
    | .error _ => none
    | .ok answer => X.json.fromSlice queryAnswer.codec answer

theorem ask_eq {deps : Store} {question : Binary} {msg : QueryMsg} {a : QueryAnswer}
    (hmsg : X.json.fromSlice queryMsg.codec question = some msg)
    (h : Dealer.query X deps msg = .ok (X.json.render a.toJson)) :
    ask X deps question = some a := by
  have hread : X.json.fromSlice queryAnswer.codec (X.json.render a.toJson) = some a := by
    rw [← Dealer.queryAnswer_toJson]
    exact X.json.fromSlice_toBytes queryAnswer.codec a
  simp only [ask, hmsg, h, hread]

variable {P : Parties X} {s₀ s : Dealer.State} {w : World}

/-- What there is to know about a dealer with these prices. -/
def truth (P : Parties X) (prices : List Coin) (w : World) : QueryMsg → QueryAnswer
  | .getPrices => .getPrices prices
  | .getChildSnip721 => .contractInfo ⟨P.child, w.childHash⟩

theorem Linked.query_eq {h : String} (hl : Linked P s₀ s w h)
    (hsync : s.child.codeHash = w.childHash) (msg : QueryMsg) :
    Dealer.query X w.dealer msg = .ok (X.json.render (truth P s₀.prices w msg).toJson) := by
  cases msg with
  | getPrices => rw [Dealer.query_getPrices hl.holds, hl.prices, truth]
  | getChildSnip721 =>
    have haddr := hl.holds.childAddress
    have hhash := hl.holds.childCodeHash
    rw [hl.address] at haddr
    rw [hsync] at hhash
    simp only [Dealer.query, Dealer.queryChildSnip721, loadItem_ok.mpr haddr, loadItem_ok.mpr hhash,
      P.child_humanize, truth]

/-- Whatever bytes get an answer: they were a question, and the answer is true. -/
theorem Linked.ask_some_iff {h : String} (hl : Linked P s₀ s w h)
    (hsync : s.child.codeHash = w.childHash) {question : Binary} {a : QueryAnswer} :
    ask X w.dealer question = some a ↔
      ∃ msg, X.json.fromSlice queryMsg.codec question = some msg ∧ a = truth P s₀.prices w msg := by
  cases hmsg : X.json.fromSlice queryMsg.codec question with
  | none => simp [ask, hmsg]
  | some msg =>
    rw [ask_eq hmsg (hl.query_eq hsync msg)]
    simp [eq_comm]

theorem Linked.ask_prices {h : String} (hl : Linked P s₀ s w h)
    (hsync : s.child.codeHash = w.childHash) {question : Binary} {prices : List Coin}
    (hask : ask X w.dealer question = some (.getPrices prices)) : prices = s₀.prices := by
  obtain ⟨msg, _, hanswer⟩ := (hl.ask_some_iff hsync).mp hask
  cases msg <;> cases hanswer
  rfl

theorem Linked.ask_child {h : String} (hl : Linked P s₀ s w h)
    (hsync : s.child.codeHash = w.childHash) {question : Binary} {child : ContractInfo}
    (hask : ask X w.dealer question = some (.contractInfo child)) :
    child = ⟨P.child, w.childHash⟩ := by
  obtain ⟨msg, _, hanswer⟩ := (hl.ask_some_iff hsync).mp hask
  cases msg <;> cases hanswer
  rfl

theorem checkFunds_iff_find {prices : List Coin} {c : Coin} :
    Dealer.checkFunds prices c = .ok () ↔ prices.find? (fun p => p.denom = c.denom) = some c := by
  rw [Dealer.checkFunds_ok]
  constructor
  · intro h
    obtain ⟨p, hp, hamount⟩ := h
    have hdenom : p.denom = c.denom := by simpa using List.find?_some hp
    obtain ⟨_, _⟩ := p
    obtain ⟨_, _⟩ := c
    cases hdenom
    cases hamount
    exact hp
  · intro h
    exact ⟨c, h, rfl⟩

/-- In every world that a run reaches, both questions are answered, and an answer is a promise: the
dealer takes a purchase exactly when it is paid with the first coin of its denom among the prices
that were read, and then calls the child, where and under the code hash that was read, to mint a
token for the buyer. -/
theorem queries_are_truthful (hX : X.Documented) (hT : X.Tagged) {d : Deployment P}
    (hd : d.deploy = some w) (ts : List (List (Outsider P × CosmosMsg) × List (Reaction P)))
    {w₁ : World} (hw₁ : (machine X P).run w ts = w₁) :
    (∀ question a, ask X w₁.dealer question = some a ↔
      ∃ msg, X.json.fromSlice queryMsg.codec question = some msg ∧
        a = truth P d.msg.prices w₁ msg) ∧
    ∀ question question' prices child,
      ask X w₁.dealer question = some (.getPrices prices) →
      ask X w₁.dealer question' = some (.contractInfo child) →
      ∀ (buyer : Outsider P) a b funds ρ, X.api.addrCanonicalize a = .ok P.dealerRaw →
        Dealer.visitBytes X b = .ok (.dealer .purchaseMint) →
        ((∃ w' out, handle w₁ ⟨.third buyer, .wasm (.execute a w₁.dealerHash b funds)⟩ ρ =
            some (w', out)) ↔
          ∃ c, funds = [c] ∧ prices.find? (fun p => p.denom = c.denom) = some c) ∧
        ∀ w' out, handle w₁ ⟨.third buyer, .wasm (.execute a w₁.dealerHash b funds)⟩ ρ =
            some (w', out) →
          ∃ pay mint, out = [⟨.dealer, .bank pay⟩,
              ⟨.dealer, .wasm (.execute child.address child.codeHash mint [])⟩] ∧
            Migratable.visitBytes X mint = .ok (.base (Dealer.mintNftMsg buyer.addr
              ⟨d.msg.publicMetadata, d.msg.privateMetadata⟩)) := by
  subst hw₁
  obtain ⟨s, hs⟩ := deploy_holds hX hT hd
  obtain ⟨adminAddr, hadm⟩ := hs.admin_humanizes
  rw [← hs.prices, ← hs.metadata]
  cases hs.run_routed hX hT ts with
  | linked hl hsync _ =>
    refine ⟨fun question a => hl.ask_some_iff hsync, ?_⟩
    intro question question' prices child hprices hchild buyer a b funds ρ ha hmsg
    obtain rfl := hl.ask_prices hsync hprices
    obtain rfl := hl.ask_child hsync hchild
    refine ⟨⟨?_, ?_⟩, ?_⟩
    · intro haccepted
      obtain ⟨w', out, hh⟩ := haccepted
      obtain ⟨c, hc, hck, _⟩ := (hl.purchase_handled ha hmsg hadm buyer).mp hh
      exact ⟨c, hc, checkFunds_iff_find.mp hck⟩
    · intro hpaid
      obtain ⟨c, hc, hfind⟩ := hpaid
      exact ⟨_, _, (hl.purchase_handled ha hmsg hadm buyer).mpr
        ⟨c, hc, checkFunds_iff_find.mpr hfind, rfl, rfl⟩⟩
    · intro w' out hh
      obtain ⟨c, _, _, _, rfl⟩ := (hl.purchase_handled ha hmsg hadm buyer).mp hh
      refine ⟨.send adminAddr [c], _, ?_, Migratable.visitBytes_toBytes hT (.base _)⟩
      rw [← hsync]
      rfl

end

section

open Reference Reference.Chain

/-- After two sales and a migration of the child, a client asks for the prices and buys. -/
theorem queries_are_truthful_chain :
    ∃ w' out, handle ((machine crates parties).run world sales)
      ⟨.third buyer, purchase ((machine crates parties).run world sales).dealerHash [Sale.price]⟩
        silent = some (w', out) := by
  obtain ⟨hanswers, hpurchases⟩ :=
    queries_are_truthful crates_documented crates_tagged deploy_eq sales rfl
  have hprices := (hanswers _ _).mpr
    ⟨.getPrices, crates.json.fromSlice_toBytes queryMsg.codec .getPrices, rfl⟩
  have hchild := (hanswers _ _).mpr
    ⟨.getChildSnip721, crates.json.fromSlice_toBytes queryMsg.codec .getChildSnip721, rfl⟩
  refine (hpurchases _ _ _ _ hprices hchild buyer "dealer" _ [Sale.price] silent
    parties.dealer_canonicalize
    (Dealer.visitBytes_toBytes crates_tagged (.dealer .purchaseMint))).1.mpr ?_
  exact ⟨Sale.price, rfl, by decide⟩

end

end Snip721Migratable
