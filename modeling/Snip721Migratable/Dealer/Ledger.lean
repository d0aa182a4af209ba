import Snip721Migratable.Dealer.Prices

/-!
# Dealer.Ledger

The coins that calls bring to the dealer, and the coins its responses pay out. Every entry point
receives the coins sent with an accepted message; only a purchase sends them on.

* `Keeps X st o` : the call `o` is accepted in `st` and is not a purchase. It is decided by the
  call and the state before it.
* `balanced_iff` : along a run, what came in is what was paid to the admin exactly when every
  accepted call pays out what it brings.
* `no_coins_stranded_iff` : the books balance exactly when no such call brings coins.
-/

namespace Snip721Migratable
namespace Dealer

open Registry Reference

/-- The coins the responses of a call send away, with where they go. -/
def bankSends (r : Response) : List (String × List Coin) :=
  r.messages.filterMap fun m => match m.msg with
    | .bank (.send toAddress amount) => some (toAddress, amount)
    | .wasm _ => none

/-- How much of `denom` is sent to `a`. -/
def paidTo (a : Addr) (denom : String) (sends : List (String × List Coin)) : Nat :=
  (sends.map fun p => if p.1 = a then amountOf denom p.2 else 0).sum

def Op.funds : Op → List Coin
  | .execute _ info _ => info.funds
  | .migrate _ => []

section Books

variable (X : Crates)

/-- The coins that came with the accepted calls of a run. -/
def receipts : Store → List Op → List Coin
  | _, [] => []
  | st, o :: os =>
    match o.call X st with
    | (.ok _, st') => o.funds ++ receipts st' os
    | (.error _, _) => receipts st os

/-- The coins that the accepted calls of a run sent away. -/
def payments : Store → List Op → List (String × List Coin)
  | _, [] => []
  | st, o :: os =>
    match o.call X st with
    | (.ok r, st') => bankSends r ++ payments st' os
    | (.error _, _) => payments st os

/-- Calls that are accepted and do not send on what they bring: subscriptions of a valid address,
and notifications by the child of that moment. -/
def Keeps (st : Store) : Op → Prop
  | .execute _ _ (.migrate (.subscribeToMigrationCompleteEvent address _)) =>
    ∃ valid, X.api.addrValidate address = .ok valid
  | .execute _ info (.migrateListener (.migrationCompleteNotification migratedTo _)) =>
    ∃ child raw, X.items.childSnip721Address.load st = .ok child ∧
      X.api.addrCanonicalize info.sender = .ok child ∧
      X.api.addrCanonicalize migratedTo.address = .ok raw
  | _ => False

/-- At its place in the run, every call that keeps its coins brings none. -/
def KeepsNothing (st : Store) (ops : List Op) : Prop :=
  ∀ pre o post, ops = pre ++ o :: post → Keeps X (run X st pre) o →
    ∀ denom, amountOf denom o.funds = 0

/-- At its place in the run, every accepted call pays the coins it brings to `a`. -/
def ForwardsAll (a : Addr) (st : Store) (ops : List Op) : Prop :=
  ∀ pre o post, ops = pre ++ o :: post →
    ∀ r st', o.call X (run X st pre) = (.ok r, st') →
      ∀ denom, amountOf denom o.funds = paidTo a denom (bankSends r)

end Books

@[simp] theorem paidTo_nil (a : Addr) (denom : String) : paidTo a denom [] = 0 := rfl

theorem paidTo_append (a : Addr) (denom : String) (xs ys : List (String × List Coin)) :
    paidTo a denom (xs ++ ys) = paidTo a denom xs + paidTo a denom ys := by
  simp [paidTo]

theorem bankSends_wasm {r : Response} (h : ∀ m ∈ r.messages, ∃ w, m.msg = .wasm w) :
    bankSends r = [] := by
  rw [bankSends, List.filterMap_eq_nil_iff]
  intro m hm
  obtain ⟨w, hw⟩ := h m hm
  rw [hw]

section

variable {X : Crates} {st st' : Store} {s : State}

/-- What the books of one accepted call look like. -/
theorem call_coins (hX : X.Documented) (hs : Holds X st s) {adminAddr : Addr}
    (ha : X.api.addrHumanize s.admin = .ok adminAddr) {o : Op} {r : Response}
    (h : o.call X st = (.ok r, st')) :
    (bankSends r = [(adminAddr, o.funds)] ∧ ¬ Keeps X st o) ∨
    (bankSends r = [] ∧ Keeps X st o) ∨
    (bankSends r = [] ∧ o.funds = [] ∧ ¬ Keeps X st o) := by
  cases o with
  | migrate env =>
    obtain ⟨_, cs, _, hr⟩ := (migrate_ok hX.cw hs).mp h
    refine .inr (.inr ⟨bankSends_wasm ?_, rfl, id⟩)
    intro m hm
    rw [hr] at hm
    obtain ⟨c, _, rfl⟩ := List.mem_map.mp hm
    exact ⟨_, rfl⟩
  | execute env info msg =>
    rcases execute_cases hX.cw hs env h with ⟨rfl, _, c, admin', _, _, _, ha', _, hr⟩ |
      ⟨address, codeHash, valid, _, _, rfl, hr, hv, _⟩ |
      ⟨migratedTo, data, raw, _, rfl, hr, hsender, hto, _⟩
    · cases ha.symm.trans ha'
      exact .inl ⟨by rw [bankSends, hr]; rfl, id⟩
    · exact .inr (.inl ⟨by rw [bankSends, hr]; rfl, valid, hv⟩)
    · exact .inr (.inl ⟨by rw [bankSends, hr]; rfl, s.child.address, raw, hs.childAddress,
        hsender, hto⟩)

/-- A call that would keep its coins is accepted. -/
theorem call_of_keeps (hX : X.Documented) (hs : Holds X st s) (hslots : s.registry.slots = none)
    {o : Op} (h : Keeps X st o) : ∃ r st', o.call X st = (.ok r, st') ∧ bankSends r = [] := by
  match o with
  | .execute _ _ (.migrate (.subscribeToMigrationCompleteEvent address codeHash)) =>
    obtain ⟨valid, hv⟩ := h
    obtain ⟨rfl, raw, hraw, _⟩ := hX.api.validate hv
    obtain ⟨st', hok⟩ := hX.cw.register_run hs.registry hv hraw (add_unlimited hslots _)
    exact ⟨_, st', hok, rfl⟩
  | .execute env info (.migrateListener (.migrationCompleteNotification migratedTo data)) =>
    obtain ⟨child, raw, hl, hsender, hto⟩ := h
    cases hl.symm.trans hs.childAddress
    obtain ⟨st', hok⟩ := updateChildSnip721_accepts hX.cw hs hsender hto
    exact ⟨_, st', hok, rfl⟩

/-- A dealer never counts slots. -/
theorem Next.slots {s' : State} {o : Op} (hs : s.registry.slots = none) (h : Next X s o s') :
    s'.registry.slots = none := by
  cases h with
  | purchase | refused | ignored | migrated | heard => exact hs
  | subscribed _ _ hadd => exact add_slots_none hadd hs

end

/-! ## Books of a run -/

section

variable {X : Crates} (hX : X.Documented) {adminAddr : Addr}

include hX

/-- Calls that keep nothing pay out what they bring. -/
theorem forwardsAll_iff {st : Store} {s : State} (hs : Holds X st s)
    (hslots : s.registry.slots = none) (ha : X.api.addrHumanize s.admin = .ok adminAddr)
    (ops : List Op) : ForwardsAll X adminAddr st ops ↔ KeepsNothing X st ops := by
  have hat : ∀ pre, ∃ s', Holds X (run X st pre) s' ∧ s'.registry.slots = none ∧
      X.api.addrHumanize s'.admin = .ok adminAddr := by
    intro pre
    obtain ⟨s', hs', hn⟩ := run_nexts hX pre hs
    refine ⟨s', hs', hn.inv (fun _ _ _ hs hn => hn.slots hs) hslots, ?_⟩
    rw [hn.child.2.1]; exact ha
  constructor
  · intro h pre o post heq hk denom
    obtain ⟨s', hs', hsl, _⟩ := hat pre
    obtain ⟨r, st', hok, hr⟩ := call_of_keeps hX hs' hsl hk
    rw [h pre o post heq r st' hok denom, hr, paidTo_nil]
  · intro h pre o post heq r st' hok denom
    obtain ⟨s', hs', _, ha'⟩ := hat pre
    rcases call_coins hX hs' ha' hok with ⟨hr, _⟩ | ⟨hr, hk⟩ | ⟨hr, hf, _⟩
    · simp [hr, paidTo]
    · rw [hr, paidTo_nil]; exact h pre o post heq hk denom
    · rw [hr, hf]; rfl

omit hX in
theorem forwardsAll_cons {a : Addr} {st : Store} {o : Op} {os : List Op} :
    ForwardsAll X a st (o :: os) ↔
      (∀ r st', o.call X st = (.ok r, st') →
        ∀ denom, amountOf denom o.funds = paidTo a denom (bankSends r)) ∧
      ForwardsAll X a (step X st o) os := by
  constructor
  · intro h
    exact ⟨h [] o os rfl, fun pre o' post heq => h (o :: pre) o' post (by rw [heq]; rfl)⟩
  · rintro ⟨ho, hos⟩ pre o' post heq
    cases pre with
    | nil => cases heq; exact ho
    | cons p pre => cases heq; exact hos pre o' post rfl

/-- An accepted call pays out at most what it brings. -/
theorem paid_le_of_call {st st' : Store} {s : State} (hs : Holds X st s)
    (ha : X.api.addrHumanize s.admin = .ok adminAddr) {o : Op} {r : Response}
    (h : o.call X st = (.ok r, st')) (denom : String) :
    paidTo adminAddr denom (bankSends r) ≤ amountOf denom o.funds := by
  rcases call_coins hX hs ha h with ⟨hr, _⟩ | ⟨hr, _⟩ | ⟨hr, _, _⟩
  · simp [hr, paidTo]
  · rw [hr]; exact Nat.zero_le _
  · rw [hr]; exact Nat.zero_le _

theorem paid_le {st : Store} {s : State} (hs : Holds X st s)
    (ha : X.api.addrHumanize s.admin = .ok adminAddr) (ops : List Op) (denom : String) :
    paidTo adminAddr denom (payments X st ops) ≤ amountOf denom (receipts X st ops) := by
  induction ops generalizing st s with
  | nil => exact Nat.le_refl 0
  | cons o os ih =>
    simp only [payments, receipts]
    rcases Prog.outcome (o.call X) st with ⟨r, st', h⟩ | ⟨e, st', h⟩
    · obtain ⟨s', hs', hn⟩ := call_next hX hs h
      have hle := paid_le_of_call hX hs ha h denom
      have hrest := ih hs' (by rw [hn.child.2.1]; exact ha)
      simp only [h, paidTo_append, amountOf_append]
      omega
    · simp only [h]
      exact ih hs ha

/-- The books of a run balance exactly when every call pays out what it brings. -/
theorem balanced_iff {st : Store} {s : State} (hs : Holds X st s)
    (ha : X.api.addrHumanize s.admin = .ok adminAddr) (ops : List Op) :
    (∀ denom, amountOf denom (receipts X st ops) =
      paidTo adminAddr denom (payments X st ops)) ↔ ForwardsAll X adminAddr st ops := by
  induction ops generalizing st s with
  | nil =>
    refine ⟨fun _ pre o post heq => ?_, fun _ _ => rfl⟩
    simp at heq
  | cons o os ih =>
    rw [forwardsAll_cons]
    simp only [payments, receipts, step]
    rcases Prog.outcome (o.call X) st with ⟨r, st', h⟩ | ⟨e, st', h⟩
    · obtain ⟨s', hs', hn⟩ := call_next hX hs h
      have ha' : X.api.addrHumanize s'.admin = .ok adminAddr := by rw [hn.child.2.1]; exact ha
      rw [Prog.commit_of_ok h, ← ih hs' ha']
      simp only [h, paidTo_append, amountOf_append, Prod.mk.injEq, Except.ok.injEq]
      constructor
      · -- both parts fall short at most, so both are exact
        intro hsum
        have hpart : ∀ denom, amountOf denom o.funds = paidTo adminAddr denom (bankSends r) ∧
            amountOf denom (receipts X st' os) =
              paidTo adminAddr denom (payments X st' os) := by
          intro denom
          have hle := paid_le_of_call hX hs ha h denom
          have hrest := paid_le hX hs' ha' os denom
          have := hsum denom
          omega
        refine ⟨?_, fun denom => (hpart denom).2⟩
        rintro _ _ ⟨rfl, rfl⟩ denom
        exact (hpart denom).1
      · rintro ⟨hcall, hrest⟩ denom
        rw [hcall r st' ⟨rfl, rfl⟩ denom, hrest denom]
    · rw [Prog.commit_of_error h, ← ih hs ha]
      simp [h]

end

/-- The claim of the books: what a run received was paid to the admin, and each accepted message
was paid on by itself. -/
structure NothingStranded (X : Crates) (adminAddr : Addr) (info : MessageInfo) (r r' : Response)
    (st : Store) (ops : List Op) : Prop where
  balanced : ∀ denom, amountOf denom (info.funds ++ receipts X st ops) =
    paidTo adminAddr denom (bankSends r ++ bankSends r' ++ payments X st ops)
  instantiate_forwards : ∀ denom, amountOf denom info.funds = paidTo adminAddr denom (bankSends r)
  forwards : ForwardsAll X adminAddr st ops

/-- No coins stay in the dealer exactly when the instantiation and all calls that keep their coins
bring none. -/
theorem no_coins_stranded_iff {X : Crates} (hX : X.Documented) {env replyEnv : Env}
    {info : MessageInfo} {msg : InstantiateMsg} {rep : Reply} {st₀ st : Store} {r r' : Response}
    (hinst : instantiate X env info msg Store.empty = (.ok r, st₀))
    (hrep : reply X replyEnv rep st₀ = (.ok r', st)) :
    ∃ rawAdmin adminAddr, X.items.admin.load st = .ok rawAdmin ∧
      X.api.addrHumanize rawAdmin = .ok adminAddr ∧
      ∀ ops : List Op, NothingStranded X adminAddr info r r' st ops ↔
        (∀ denom, amountOf denom info.funds = 0) ∧ KeepsNothing X st ops := by
  obtain ⟨s, hs, hi⟩ := Instantiated.holds hX ⟨r, st₀, r', hinst, hrep⟩
  obtain ⟨adminAddr, ha⟩ := hi.admin_humanizes
  refine ⟨s.admin, adminAddr, hs.admin, ha, fun ops => ?_⟩
  obtain ⟨⟨admin, _, hr⟩, child, admin', _, hr'⟩ := instantiated_messages hX hinst hrep
  have hb : bankSends r = [] := by rw [bankSends, hr]; rfl
  have hb' : bankSends r' = [] := by rw [bankSends, hr']; rfl
  have hslots : s.registry.slots = none := by rw [hi.registry]
  rw [← forwardsAll_iff hX hs hslots ha]
  constructor
  · intro h
    exact ⟨fun denom => by rw [h.instantiate_forwards, hb, paidTo_nil], h.forwards⟩
  · intro hcond
    obtain ⟨hzero, hf⟩ := hcond
    refine ⟨fun denom => ?_, fun denom => by rw [hzero, hb, paidTo_nil], hf⟩
    rw [amountOf_append, hzero, hb, hb', (balanced_iff hX hs ha ops).mpr hf denom]
    simp

theorem no_coins_stranded_iff_sale :
    ∃ r st₀ r' rawAdmin adminAddr,
      instantiate crates Sale.env Sale.seller (Sale.msg [Sale.price]) Store.empty = (.ok r, st₀) ∧
      crates.items.admin.load (Sale.storage [Sale.price]) = .ok rawAdmin ∧
      crates.api.addrHumanize rawAdmin = .ok adminAddr ∧
      ∀ ops : List Op,
        NothingStranded crates adminAddr Sale.seller r r' (Sale.storage [Sale.price]) ops ↔
          (∀ denom, amountOf denom Sale.seller.funds = 0) ∧
            KeepsNothing crates (Sale.storage [Sale.price]) ops := by
  obtain ⟨r, st₀, r', hinst, hrep⟩ := Sale.instantiated [Sale.price] (by decide)
  obtain ⟨rawAdmin, adminAddr, hl, ha, h⟩ := no_coins_stranded_iff crates_documented hinst hrep
  exact ⟨r, st₀, r', rawAdmin, adminAddr, hinst, hl, ha, h⟩

/-- Coins sent along with a subscription stay in the dealer. -/
theorem subscription_strands_coins :
    receipts crates (Sale.storage [Sale.price]) [Sale.subscribePaying "eve" [Sale.price]] =
      [Sale.price] ∧
    payments crates (Sale.storage [Sale.price]) [Sale.subscribePaying "eve" [Sale.price]] = [] ∧
    ∀ r r' : Response, ¬ NothingStranded crates "seller" Sale.seller r r'
      (Sale.storage [Sale.price]) [Sale.subscribePaying "eve" [Sale.price]] := by
  have hrec : receipts crates (Sale.storage [Sale.price])
      [Sale.subscribePaying "eve" [Sale.price]] = [Sale.price] := by decide +kernel
  have hpay : payments crates (Sale.storage [Sale.price])
      [Sale.subscribePaying "eve" [Sale.price]] = [] := by decide +kernel
  refine ⟨hrec, hpay, fun r r' h => ?_⟩
  have hbal := (balanced_iff crates_documented (Sale.holds [Sale.price] (by decide))
    (humanize_ok (by decide)) _).mpr h.forwards "uscrt"
  rw [hrec, hpay] at hbal
  revert hbal
  decide

end Dealer
end Snip721Migratable
