import Snip721Migratable.Messages
import Snip721Migratable.Subscribers
import Snip721Migratable.Lib.Transaction

/-!
# System.World

The chain, as far as a dealer and its child are concerned: their two storages, the code hash and
the chain-level admin of each, and the messages in flight. Every other account is an outsider. What
an outsider does when it gets a message is a reaction from outside the model. It may refuse the
message: nothing is known of what runs at its address, nor under which code hash. If it accepts,
any list of messages follows, sent by outsiders. A failure that an outsider catches undoes what the
failed message did, so it is a message that was not sent.

* `Parties` : the addresses of the two contracts.
* `World`, `handle` : one delivery. Executing needs the current code hash of the receiver;
  migrating needs the chain-level admin as sender and a message that is read as `Empty`, replaces
  the code hash and runs `migrate`.
* `machine` : transactions of these deliveries. All messages that the two contracts send while
  they run ask for no reply (`execute_never`, `notifySubscribers_never`), so a failure reverts
  everything.
* `handle_cases` : what one delivery can be.
-/

namespace Snip721Migratable

/-- The addresses of the two contracts, in their normal form. -/
structure Parties (X : Crates) where
  dealer : Addr
  child : Addr
  dealerRaw : CanonicalAddr
  childRaw : CanonicalAddr
  dealer_canonicalize : X.api.addrCanonicalize dealer = .ok dealerRaw
  dealer_humanize : X.api.addrHumanize dealerRaw = .ok dealer
  child_validate : X.api.addrValidate child = .ok child
  child_canonicalize : X.api.addrCanonicalize child = .ok childRaw
  child_humanize : X.api.addrHumanize childRaw = .ok child
  distinct : dealerRaw ≠ childRaw

/-- An account that is neither of the two contracts. -/
structure Outsider {X : Crates} (P : Parties X) where
  addr : Addr
  raw : CanonicalAddr
  canonicalize : X.api.addrCanonicalize addr = .ok raw
  humanize : X.api.addrHumanize raw = .ok addr
  ne_dealer : raw ≠ P.dealerRaw
  ne_child : raw ≠ P.childRaw

inductive Party {X : Crates} (P : Parties X) where
  | dealer
  | child
  | third (o : Outsider P)

namespace Party

variable {X : Crates} {P : Parties X}

def addr : Party P → Addr
  | .dealer => P.dealer
  | .child => P.child
  | .third o => o.addr

def raw : Party P → CanonicalAddr
  | .dealer => P.dealerRaw
  | .child => P.childRaw
  | .third o => o.raw

theorem canonicalize_addr (p : Party P) : X.api.addrCanonicalize p.addr = .ok p.raw := by
  cases p with
  | dealer => exact P.dealer_canonicalize
  | child => exact P.child_canonicalize
  | third o => exact o.canonicalize

end Party

/-- A message in flight, with the account that sent it. -/
structure Mail {X : Crates} (P : Parties X) where
  origin : Party P
  body : CosmosMsg

/-- What the books of the dealer are about: the purchases it accepted, the coins it sent, and the
tokens its child minted. -/
inductive Entry where
  | purchased (buyer : Addr) (funds : List Coin)
  | paid (toAddress : String) (amount : List Coin)
  | minted (token : Minted)

structure World where
  dealer : Store
  dealerHash : String
  dealerAdmin : Option Addr
  child : Store
  childHash : String
  childAdmin : Option Addr
  log : List Entry

/-- What the outside adds to a delivery: the block it happens in, and what the receiver does if it
is an outsider. It accepts a message or not by all that the message holds: the address, the code
hash, the bytes and the funds. -/
structure Reaction {X : Crates} (P : Parties X) where
  block : BlockInfo
  transaction : Option TransactionInfo
  accepts : WasmMsg → Bool
  sends : List (Outsider P × CosmosMsg)

inductive Place where
  | dealer
  | child
  | elsewhere
  deriving DecidableEq, Repr

section Machine

variable (X : Crates) (P : Parties X)

/-- Whom a contract address names; an invalid address names nobody. -/
def resolve (contractAddr : String) : Option Place :=
  match X.api.addrCanonicalize contractAddr with
  | .ok raw =>
    if raw = P.dealerRaw then some .dealer
    else if raw = P.childRaw then some .child
    else some .elsewhere
  | .error _ => none

/-- Who gets a message. A creation is the business of the new contract. -/
def receiver : WasmMsg → Option Place
  | .execute contractAddr .. => resolve X P contractAddr
  | .instantiate .. => some .elsewhere
  | .migrate contractAddr .. => resolve X P contractAddr

variable {X P}

/-- `m` is for neither of the two contracts. -/
def Mail.Elsewhere (m : Mail P) : Prop :=
  ∃ msg, m.body = .wasm msg ∧ receiver X P msg = some .elsewhere

def Reaction.env (ρ : Reaction P) (contract : ContractInfo) : Env where
  block := ρ.block
  transaction := ρ.transaction
  contract := contract

def Reaction.mail (ρ : Reaction P) : List (Mail P) := ρ.sends.map fun p => ⟨.third p.1, p.2⟩

/-- The messages of a response, on their way. -/
def mailFrom (p : Party P) (r : Response) : List (Mail P) := r.messages.map fun m => ⟨p, m.msg⟩

def purchasesOf (sender : Addr) (funds : List Coin) : Dealer.ExecuteMsg → List Entry
  | .dealer .purchaseMint => [.purchased sender funds]
  | _ => []

def paymentsOf (toAddress : String) (amount : List Coin) : Party P → List Entry
  | .dealer => [.paid toAddress amount]
  | _ => []

def mintsOf (env : Env) (info : MessageInfo) (st : Store) : Migratable.ExecuteMsg → List Entry
  | .base msg => (X.impl.mints env info msg st).map .minted
  | _ => []

def executeDealer (w : World) (m : Mail P) (b : Binary) (funds : List Coin) (ρ : Reaction P) :
    Option (World × List (Mail P)) :=
  match Dealer.visitBytes X b with
  | .error _ => none
  | .ok msg =>
    match Dealer.execute X (ρ.env ⟨P.dealer, w.dealerHash⟩) { sender := m.origin.addr, funds } msg
        w.dealer with
    | (.error _, _) => none
    | (.ok r, st) =>
      some ({ w with dealer := st, log := w.log ++ purchasesOf m.origin.addr funds msg },
        mailFrom .dealer r)

def executeChild (w : World) (m : Mail P) (b : Binary) (funds : List Coin) (ρ : Reaction P) :
    Option (World × List (Mail P)) :=
  match Migratable.visitBytes X b with
  | .error _ => none
  | .ok msg =>
    match Migratable.execute X (ρ.env ⟨P.child, w.childHash⟩) { sender := m.origin.addr, funds }
        msg w.child with
    | (.error _, _) => none
    | (.ok r, st) =>
      some
        ({ w with
            child := st
            log := w.log ++ mintsOf (X := X) (ρ.env ⟨P.child, w.childHash⟩)
              { sender := m.origin.addr, funds } w.child msg },
          mailFrom .child r)

def migrateDealer (w : World) (codeHash : String) (b : Binary) (ρ : Reaction P) :
    Option (World × List (Mail P)) :=
  match X.json.fromSlice Empty.codec b with
  | none => none
  | some _ =>
    match Dealer.migrate X (ρ.env ⟨P.dealer, codeHash⟩) w.dealer with
    | (.error _, _) => none
    | (.ok r, st) => some ({ w with dealer := st, dealerHash := codeHash }, mailFrom .dealer r)

def migrateChild (w : World) (codeHash : String) (b : Binary) (ρ : Reaction P) :
    Option (World × List (Mail P)) :=
  match X.json.fromSlice Empty.codec b with
  | none => none
  | some _ =>
    match Migratable.migrate X (ρ.env ⟨P.child, codeHash⟩) w.child with
    | (.error _, _) => none
    | (.ok r, st) => some ({ w with child := st, childHash := codeHash }, mailFrom .child r)

/-- A message to an outsider changes neither contract. -/
def leaveTo (ρ : Reaction P) (w : World) (msg : WasmMsg) : Option (World × List (Mail P)) :=
  if ρ.accepts msg then some (w, ρ.mail) else none

/-- The delivery of one message. -/
def handle (w : World) (m : Mail P) (ρ : Reaction P) : Option (World × List (Mail P)) :=
  match m.body with
  | .bank (.send toAddress amount) =>
    some ({ w with log := w.log ++ paymentsOf toAddress amount m.origin }, [])
  | .wasm (.execute contractAddr codeHash b funds) =>
    match resolve X P contractAddr with
    | some .dealer => if codeHash = w.dealerHash then executeDealer w m b funds ρ else none
    | some .child => if codeHash = w.childHash then executeChild w m b funds ρ else none
    | some .elsewhere => leaveTo ρ w (.execute contractAddr codeHash b funds)
    | none => none
  | .wasm (.migrate contractAddr codeId codeHash b) =>
    match resolve X P contractAddr with
    | some .dealer =>
      if w.dealerAdmin = some m.origin.addr then migrateDealer w codeHash b ρ else none
    | some .child =>
      if w.childAdmin = some m.origin.addr then migrateChild w codeHash b ρ else none
    | some .elsewhere => leaveTo ρ w (.migrate contractAddr codeId codeHash b)
    | none => none
  | .wasm (.instantiate admin codeId codeHash b funds label) =>
    leaveTo ρ w (.instantiate admin codeId codeHash b funds label)

variable (X P)

/-- A transaction starts with messages of outsiders. -/
def machine : Machine World (Mail P) (Reaction P) (List (Outsider P × CosmosMsg)) where
  handle := handle
  start ms := ms.map fun p => ⟨.third p.1, p.2⟩

end Machine

/-! ## What a delivery can be -/

section Cases

variable {X : Crates} {P : Parties X} {w w' : World} {m : Mail P} {ρ : Reaction P}
  {out : List (Mail P)}

theorem resolve_dealer {a : String} :
    resolve X P a = some .dealer ↔ X.api.addrCanonicalize a = .ok P.dealerRaw := by
  unfold resolve
  cases X.api.addrCanonicalize a with
  | error e => simp
  | ok raw =>
    by_cases hd : raw = P.dealerRaw
    · simp [hd]
    · by_cases hc : raw = P.childRaw <;> simp [hd, hc]

theorem resolve_child {a : String} :
    resolve X P a = some .child ↔ X.api.addrCanonicalize a = .ok P.childRaw := by
  unfold resolve
  cases X.api.addrCanonicalize a with
  | error e => simp
  | ok raw =>
    by_cases hd : raw = P.dealerRaw
    · simp [hd, P.distinct]
    · by_cases hc : raw = P.childRaw <;> simp [hd, hc, P.distinct.symm]

inductive Handled (w : World) (m : Mail P) (ρ : Reaction P) : World → List (Mail P) → Prop where
  | bank {toAddress : String} {amount : List Coin} :
      m.body = .bank (.send toAddress amount) →
      Handled w m ρ { w with log := w.log ++ paymentsOf toAddress amount m.origin } []
  | executeDealer {a codeHash : String} {b : Binary} {funds : List Coin} {msg : Dealer.ExecuteMsg}
      {r : Response} {st : Store} :
      m.body = .wasm (.execute a codeHash b funds) →
      X.api.addrCanonicalize a = .ok P.dealerRaw → codeHash = w.dealerHash →
      Dealer.visitBytes X b = .ok msg →
      Dealer.execute X (ρ.env ⟨P.dealer, w.dealerHash⟩) { sender := m.origin.addr, funds } msg
        w.dealer = (.ok r, st) →
      Handled w m ρ
        { w with dealer := st, log := w.log ++ purchasesOf m.origin.addr funds msg }
        (mailFrom .dealer r)
  | executeChild {a codeHash : String} {b : Binary} {funds : List Coin}
      {msg : Migratable.ExecuteMsg} {r : Response} {st : Store} :
      m.body = .wasm (.execute a codeHash b funds) →
      X.api.addrCanonicalize a = .ok P.childRaw → codeHash = w.childHash →
      Migratable.visitBytes X b = .ok msg →
      Migratable.execute X (ρ.env ⟨P.child, w.childHash⟩) { sender := m.origin.addr, funds } msg
        w.child = (.ok r, st) →
      Handled w m ρ
        { w with
          child := st,
          log := w.log ++ mintsOf (X := X) (ρ.env ⟨P.child, w.childHash⟩)
            { sender := m.origin.addr, funds } w.child msg }
        (mailFrom .child r)
  | migrateDealer {a codeHash : String} {codeId : Nat} {b : Binary} {r : Response} {st : Store} :
      m.body = .wasm (.migrate a codeId codeHash b) →
      X.api.addrCanonicalize a = .ok P.dealerRaw → w.dealerAdmin = some m.origin.addr →
      X.json.fromSlice Empty.codec b = some {} →
      Dealer.migrate X (ρ.env ⟨P.dealer, codeHash⟩) w.dealer = (.ok r, st) →
      Handled w m ρ { w with dealer := st, dealerHash := codeHash } (mailFrom .dealer r)
  | migrateChild {a codeHash : String} {codeId : Nat} {b : Binary} {r : Response} {st : Store} :
      m.body = .wasm (.migrate a codeId codeHash b) →
      X.api.addrCanonicalize a = .ok P.childRaw → w.childAdmin = some m.origin.addr →
      X.json.fromSlice Empty.codec b = some {} →
      Migratable.migrate X (ρ.env ⟨P.child, codeHash⟩) w.child = (.ok r, st) →
      Handled w m ρ { w with child := st, childHash := codeHash } (mailFrom .child r)
  | elsewhere {msg : WasmMsg} :
      m.body = .wasm msg → receiver X P msg = some .elsewhere → ρ.accepts msg = true →
      Handled w m ρ w ρ.mail

theorem executeDealer_cases {a codeHash : String} {b : Binary} {funds : List Coin}
    (hb : m.body = .wasm (.execute a codeHash b funds))
    (ha : X.api.addrCanonicalize a = .ok P.dealerRaw) (hh : codeHash = w.dealerHash)
    (h : executeDealer w m b funds ρ = some (w', out)) : Handled w m ρ w' out := by
  unfold executeDealer at h
  split at h
  · cases h
  · rename_i msg hmsg
    split at h
    · cases h
    · rename_i r st hcall
      cases h
      exact .executeDealer hb ha hh hmsg hcall

theorem executeChild_cases {a codeHash : String} {b : Binary} {funds : List Coin}
    (hb : m.body = .wasm (.execute a codeHash b funds))
    (ha : X.api.addrCanonicalize a = .ok P.childRaw) (hh : codeHash = w.childHash)
    (h : executeChild w m b funds ρ = some (w', out)) : Handled w m ρ w' out := by
  unfold executeChild at h
  split at h
  · cases h
  · rename_i msg hmsg
    split at h
    · cases h
    · rename_i r st hcall
      cases h
      exact .executeChild hb ha hh hmsg hcall

theorem migrateDealer_cases {a codeHash : String} {codeId : Nat} {b : Binary}
    (hb : m.body = .wasm (.migrate a codeId codeHash b))
    (ha : X.api.addrCanonicalize a = .ok P.dealerRaw) (hadm : w.dealerAdmin = some m.origin.addr)
    (h : migrateDealer w codeHash b ρ = some (w', out)) : Handled w m ρ w' out := by
  unfold migrateDealer at h
  split at h
  · cases h
  · rename_i msg hmsg
    split at h
    · cases h
    · rename_i r st hcall
      cases h
      exact .migrateDealer hb ha hadm hmsg hcall

theorem migrateChild_cases {a codeHash : String} {codeId : Nat} {b : Binary}
    (hb : m.body = .wasm (.migrate a codeId codeHash b))
    (ha : X.api.addrCanonicalize a = .ok P.childRaw) (hadm : w.childAdmin = some m.origin.addr)
    (h : migrateChild w codeHash b ρ = some (w', out)) : Handled w m ρ w' out := by
  unfold migrateChild at h
  split at h
  · cases h
  · rename_i msg hmsg
    split at h
    · cases h
    · rename_i r st hcall
      cases h
      exact .migrateChild hb ha hadm hmsg hcall

theorem leaveTo_eq_some {msg : WasmMsg} :
    leaveTo ρ w msg = some (w', out) ↔ ρ.accepts msg = true ∧ w' = w ∧ out = ρ.mail := by
  unfold leaveTo
  split
  · rename_i hacc
    simp [hacc, eq_comm]
  · rename_i hacc
    simp [hacc]

theorem leaveTo_cases {msg : WasmMsg} (hb : m.body = .wasm msg)
    (hr : receiver X P msg = some .elsewhere) (h : leaveTo ρ w msg = some (w', out)) :
    Handled w m ρ w' out := by
  obtain ⟨hacc, rfl, rfl⟩ := leaveTo_eq_some.mp h
  exact .elsewhere hb hr hacc

theorem handle_cases (h : handle w m ρ = some (w', out)) : Handled w m ρ w' out := by
  unfold handle at h
  split at h
  · rename_i toAddress amount hb
    cases h
    exact .bank hb
  · rename_i a codeHash b funds hb
    split at h
    · rename_i hr
      split at h
      · rename_i hh; exact executeDealer_cases hb (resolve_dealer.mp hr) hh h
      · cases h
    · rename_i hr
      split at h
      · rename_i hh; exact executeChild_cases hb (resolve_child.mp hr) hh h
      · cases h
    · rename_i hr
      exact leaveTo_cases hb hr h
    · cases h
  · rename_i a codeId codeHash b hb
    split at h
    · rename_i hr
      split at h
      · rename_i hadm; exact migrateDealer_cases hb (resolve_dealer.mp hr) hadm h
      · cases h
    · rename_i hr
      split at h
      · rename_i hadm; exact migrateChild_cases hb (resolve_child.mp hr) hadm h
      · cases h
    · rename_i hr
      exact leaveTo_cases hb hr h
    · cases h
  · rename_i hb
    exact leaveTo_cases hb rfl h

end Cases

/-! ## No replies during runs -/

section Replies

variable {X : Crates} {st st' : Store} {env : Env} {info : MessageInfo} {r : Response}

theorem Dealer.execute_never (hX : X.Documented) {s : Dealer.State} (hs : Dealer.Holds X st s)
    {msg : Dealer.ExecuteMsg} (h : Dealer.execute X env info msg st = (.ok r, st')) :
    ∀ m ∈ r.messages, m.replyOn = .never := by
  intro m hm
  rcases Dealer.execute_cases hX.cw hs env h with ⟨_, _, _, _, _, _, _, _, _, hr⟩ |
    ⟨_, _, _, _, _, _, hr, _⟩ | ⟨_, _, _, _, _, hr, _⟩
  · rw [hr] at hm
    simp only [Dealer.purchaseMessages, List.mem_cons, List.not_mem_nil, or_false] at hm
    rcases hm with rfl | rfl <;> rfl
  · rw [hr] at hm; cases hm
  · rw [hr] at hm; cases hm

theorem Migratable.execute_never (hX : X.Documented) {reg : Registry CanonicalContractInfo}
    (hreg : X.cw.registry st = some reg) {msg : Migratable.ExecuteMsg}
    (h : Migratable.execute X env info msg st = (.ok r, st')) :
    ∀ m ∈ r.messages, m.replyOn = .never := by
  intro m hm
  rcases Migratable.execute_cases hX hreg env h with ⟨_, _, hbase, _⟩ | ⟨_, _, _, _, _, hr, _⟩ |
    ⟨_, _, _, _, _, _, hr, _⟩
  · exact (hX.impl.callbacks hbase m hm).1
  · rw [hr] at hm; cases hm
  · rw [hr] at hm; cases hm

theorem notifySubscribers_never (hX : X.Documented)
    (h : notifySubscribers X env st = (.ok r, st')) : ∀ m ∈ r.messages, m.replyOn = .never := by
  intro m hm
  obtain ⟨_, cs, _, hr⟩ := (notifySubscribers_ok hX.cw).mp h
  rw [hr] at hm
  obtain ⟨c, _, rfl⟩ := List.mem_map.mp hm
  rfl

end Replies

end Snip721Migratable
