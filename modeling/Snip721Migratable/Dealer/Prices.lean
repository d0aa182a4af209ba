import Snip721Migratable.Dealer.ChildReference

/-!
# Dealer.Prices

What the dealer advertises and what it sells. `GetPrices` answers the whole price list; a purchase
looks up the first price of the denom it is paid in, and compares the amount with that one only.

`sold_as_advertised_iff`: the two agree in every reachable state exactly when the price list gives
every denom one amount (`OnePriceEach`). `second_price_is_refused` is a list that does not.
-/

namespace Snip721Migratable
namespace Dealer

open Reference

/-- No denom is listed with two different amounts. -/
def OnePriceEach (prices : List Coin) : Prop :=
  ∀ c ∈ prices, ∀ c' ∈ prices, c.denom = c'.denom → c.amount = c'.amount

/-- The stored addresses of the admin and of the child can be humanized. -/
structure Humanizes (X : Crates) (st : Store) : Prop where
  admin : ∃ raw a, X.items.admin.load st = .ok raw ∧ X.api.addrHumanize raw = .ok a
  child : ∃ raw a, X.items.childSnip721Address.load st = .ok raw ∧ X.api.addrHumanize raw = .ok a

/-- A purchase is accepted exactly when it is paid with one coin that `GetPrices` lists; a refused
one writes nothing. -/
structure SellsAsAdvertised (X : Crates) (st : Store) : Prop where
  accepted : ∃ prices, X.items.purchasePrices.load st = .ok prices ∧
    query X st .getPrices = .ok (X.json.render (QueryAnswer.getPrices prices).toJson) ∧
    ∀ (env : Env) (info : MessageInfo),
      (∃ r st', execute X env info (.dealer .purchaseMint) st = (.ok r, st')) ↔
        ∃ c ∈ prices, info.funds = [c]
  refused : ∀ (env : Env) (info : MessageInfo) (e : Fault) (st' : Store),
    execute X env info (.dealer .purchaseMint) st = (.error e, st') → st' = st

/-! ## One lookup -/

/-- The checks let every listed coin through exactly when the list has one price for each denom. -/
theorem checkFunds_all_iff {prices : List Coin} :
    (∀ c ∈ prices, checkFunds prices c = .ok ()) ↔ OnePriceEach prices := by
  constructor
  · intro h c hc c' hc' hd
    obtain ⟨p, hp, ha⟩ := checkFunds_ok.mp (h c hc)
    obtain ⟨p', hp', ha'⟩ := checkFunds_ok.mp (h c' hc')
    rw [hd] at hp
    cases hp.symm.trans hp'
    exact ha.trans ha'.symm
  · intro h c hc
    rw [checkFunds_ok]
    cases hp : prices.find? (fun p => p.denom = c.denom) with
    | none =>
      have hn := List.find?_eq_none.mp hp c hc
      simp at hn
    | some p =>
      have hd : p.denom = c.denom := by simpa using List.find?_some hp
      exact ⟨p, rfl, h c hc p (List.mem_of_find?_eq_some hp) hd.symm⟩

section

variable {X : Crates} {st : Store} {s : State}

theorem query_getPrices (hs : Holds X st s) :
    query X st .getPrices = .ok (X.json.render (QueryAnswer.getPrices s.prices).toJson) := by
  simp only [query, queryPrices, loadItem_ok.mpr hs.prices]

theorem Humanizes.of_holds (h : Humanizes X st) (hs : Holds X st s) :
    (∃ a, X.api.addrHumanize s.admin = .ok a) ∧ ∃ a, X.api.addrHumanize s.child.address = .ok a := by
  obtain ⟨raw, a, hl, ha⟩ := h.admin
  obtain ⟨raw', a', hl', ha'⟩ := h.child
  cases hl.symm.trans hs.admin
  cases hl'.symm.trans hs.childAddress
  exact ⟨⟨a, ha⟩, ⟨a', ha'⟩⟩

theorem purchase_accepted_iff (hs : Holds X st s) (hh : Humanizes X st) (env : Env)
    (info : MessageInfo) :
    (∃ r st', execute X env info (.dealer .purchaseMint) st = (.ok r, st')) ↔
      ∃ c, info.funds = [c] ∧ checkFunds s.prices c = .ok () := by
  obtain ⟨⟨adminAddr, ha⟩, ⟨childAddr, hc⟩⟩ := hh.of_holds hs
  constructor
  · intro haccepted
    obtain ⟨r, st', h⟩ := haccepted
    obtain ⟨_, c, _, _, hf, hck, _⟩ := (purchaseAndMint_ok hs).mp h
    exact ⟨c, hf, hck⟩
  · intro hpaid
    obtain ⟨c, hf, hck⟩ := hpaid
    exact ⟨⟨purchaseMessages X s info adminAddr childAddr⟩, st,
      (purchaseAndMint_ok hs).mpr ⟨rfl, c, adminAddr, childAddr, hf, hck, ha, hc, rfl⟩⟩

theorem sellsAsAdvertised_iff (hs : Holds X st s) (hh : Humanizes X st) :
    SellsAsAdvertised X st ↔ OnePriceEach s.prices := by
  rw [← checkFunds_all_iff]
  constructor
  · intro h c hc
    obtain ⟨prices, hl, _, hacc⟩ := h.accepted
    cases hl.symm.trans hs.prices
    have env : Env := ⟨⟨0, 0, "", none⟩, none, ⟨"", ""⟩⟩
    obtain ⟨c', hf, hck⟩ := (purchase_accepted_iff hs hh env ⟨"", [c]⟩).mp
      ((hacc env ⟨"", [c]⟩).mpr ⟨c, hc, rfl⟩)
    cases hf
    exact hck
  · intro h
    refine ⟨⟨s.prices, hs.prices, query_getPrices hs, fun env info => ?_⟩, ?_⟩
    · rw [purchase_accepted_iff hs hh]
      constructor
      · intro hpaid
        obtain ⟨c, hf, hck⟩ := hpaid
        exact ⟨c, mem_of_checkFunds hck, hf⟩
      · intro hlisted
        obtain ⟨c, hc, hf⟩ := hlisted
        exact ⟨c, hf, h c hc⟩
    · intro env info e st' he
      have hro : (purchaseAndMint X info st).2 = st := purchaseAndMint_readOnly st
      rw [show purchaseAndMint X info st = _ from he] at hro
      exact hro

/-- Along every run from an instantiated dealer, in every state whose stored addresses humanize,
the dealer sells what it advertises, exactly when its price list has one price for each denom. -/
theorem sold_as_advertised_iff (hX : X.Documented) {env replyEnv : Env} {info : MessageInfo}
    {msg : InstantiateMsg} {rep : Reply} (h : Instantiated X env info msg replyEnv rep st) :
    (∀ ops : List Op, Humanizes X (run X st ops) → SellsAsAdvertised X (run X st ops)) ↔
      OnePriceEach msg.prices := by
  obtain ⟨s, hs, hi⟩ := h.holds hX
  constructor
  · intro hall
    have hh : Humanizes X st := by
      obtain ⟨a, ha⟩ := hi.admin_humanizes
      obtain ⟨c, hc⟩ := hi.child_humanizes
      exact ⟨⟨s.admin, a, hs.admin, ha⟩, ⟨s.child.address, c, hs.childAddress, hc⟩⟩
    rw [← hi.prices]
    exact (sellsAsAdvertised_iff hs hh).mp (hall [] hh)
  · intro hp ops hh
    obtain ⟨s', hs', hn⟩ := run_nexts hX ops hs
    rw [sellsAsAdvertised_iff hs' hh, hn.child.2.2.1, hi.prices]
    exact hp

end

theorem sold_as_advertised_iff_sale :
    (∀ ops : List Op, Humanizes crates (run crates (Sale.storage [Sale.price]) ops) →
      SellsAsAdvertised crates (run crates (Sale.storage [Sale.price]) ops)) ↔
      OnePriceEach [Sale.price] :=
  sold_as_advertised_iff crates_documented (Sale.instantiated [Sale.price] (by decide))

/-- With two prices in one denom, only the first one is sold. -/
theorem second_price_is_refused :
    ¬ ∀ ops : List Op, Humanizes crates (run crates (Sale.storage Sale.twoPrices) ops) →
      SellsAsAdvertised crates (run crates (Sale.storage Sale.twoPrices) ops) := by
  intro h
  have hs := Sale.holds Sale.twoPrices (by decide)
  have hh : Humanizes crates (Sale.storage Sale.twoPrices) :=
    ⟨⟨_, "seller", hs.admin, humanize_ok (by decide)⟩,
      ⟨_, "child", hs.childAddress, humanize_ok (by decide)⟩⟩
  obtain ⟨prices, hl, _, hacc⟩ := (h [] hh).accepted
  cases hl.symm.trans hs.prices
  obtain ⟨c, hf, hck⟩ := (purchase_accepted_iff hs hh Sale.env ⟨"buyer", [⟨"uscrt", 200⟩]⟩).mp
    ((hacc _ _).mpr ⟨⟨"uscrt", 200⟩, by decide, rfl⟩)
  cases hf
  revert hck
  decide +kernel

end Dealer
end Snip721Migratable
