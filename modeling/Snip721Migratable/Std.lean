import Mathlib.Algebra.GroupWithZero.Nat
import Snip721Migratable.Lib.Program
import Snip721Migratable.Lib.Store
import Snip721Migratable.Lib.Json

/-!
# Std

What the contracts use of `cosmwasm_std` and of the storage items of `secret_toolkit`: the
environment of a call, the messages a response carries, the address API of the chain.

Contract code is a `ContractM` program over the contract's own storage. It ends with a value, with
an error it returns, or with a panic.
-/

namespace Snip721Migratable

abbrev Binary := Bytes
abbrev Addr := String
abbrev CanonicalAddr := Binary
abbrev Uint128 := BitVec 128

inductive StdError where
  | genericErr (msg : String)
  | notFound (kind : String)
  | parseErr (targetType : String)
  deriving DecidableEq, Repr

abbrev StdResult := Except StdError

inductive Fault where
  | std (e : StdError)
  | panic (msg : String)
  deriving DecidableEq, Repr

abbrev ContractM := Prog Store Fault

/-- The `?` operator. -/
def attempt {α : Type} (r : StdResult α) : ContractM α :=
  Prog.reads fun _ => match r with
    | .ok a => .ok a
    | .error e => .error (.std e)

def failWith {α : Type} (msg : String) : ContractM α := Prog.fail (.std (.genericErr msg))

/-! ## Storage items -/

/-- `Item::load` on `Deps`. -/
def loadItem {α : Type} (i : Item α) (st : Store) : StdResult α :=
  match i.load st with
  | .ok a => .ok a
  | .error .absent => .error (.notFound i.typeName)
  | .error .corrupt => .error (.parseErr i.typeName)

def load {α : Type} (i : Item α) : ContractM α :=
  Prog.reads fun st => match loadItem i st with
    | .ok a => .ok a
    | .error e => .error (.std e)

def save {α : Type} (i : Item α) (a : α) : ContractM Unit := Prog.modify (i.save a)

/-! ## Calls -/

structure Coin where
  denom : String
  amount : Uint128
  deriving DecidableEq, Repr

def Coin.display (c : Coin) : String := toString c.amount.toNat ++ c.denom

structure ContractInfo where
  address : Addr
  codeHash : String
  deriving DecidableEq, Repr

structure BlockInfo where
  height : Nat
  time : Nat
  chainId : String
  random : Option Binary
  deriving DecidableEq, Repr

structure TransactionInfo where
  index : Nat
  hash : String
  deriving DecidableEq, Repr

structure Env where
  block : BlockInfo
  transaction : Option TransactionInfo
  contract : ContractInfo
  deriving DecidableEq, Repr

structure MessageInfo where
  sender : Addr
  funds : List Coin
  deriving DecidableEq, Repr

/-- The message of an entry point that needs none. -/
structure Empty where
  deriving DecidableEq, Repr

/-- `{}`; the reader ignores any fields it is given. -/
def Empty.codec : JsonCodec Empty where
  toJson _ := .obj []
  ofJson
    | .obj _ => some {}
    | _ => none
  ofJson_toJson _ := rfl

/-! ## Responses -/

inductive ReplyOn where
  | always
  | error
  | success
  | never
  deriving DecidableEq, Repr

inductive BankMsg where
  | send (toAddress : String) (amount : List Coin)
  deriving DecidableEq, Repr

inductive WasmMsg where
  | execute (contractAddr codeHash : String) (msg : Binary) (funds : List Coin)
  | instantiate (admin : Option String) (codeId : Nat) (codeHash : String) (msg : Binary)
      (funds : List Coin) (label : String)
  | migrate (contractAddr : String) (codeId : Nat) (codeHash : String) (msg : Binary)
  deriving DecidableEq, Repr

inductive CosmosMsg where
  | bank (msg : BankMsg)
  | wasm (msg : WasmMsg)
  deriving DecidableEq, Repr

structure SubMsg where
  id : Nat
  msg : CosmosMsg
  gasLimit : Option Nat
  replyOn : ReplyOn
  deriving DecidableEq, Repr

def SubMsg.new (msg : CosmosMsg) : SubMsg :=
  { id := 0, msg, gasLimit := none, replyOn := .never }

def SubMsg.replyOnSuccess (msg : CosmosMsg) (id : Nat) : SubMsg :=
  { id, msg, gasLimit := none, replyOn := .success }

structure Response where
  messages : List SubMsg
  deriving DecidableEq, Repr

def Response.new : Response := { messages := [] }

def Response.addSubmessages (r : Response) (msgs : List SubMsg) : Response :=
  { messages := r.messages ++ msgs }

/-! ## Replies -/

structure Attribute where
  key : String
  value : String
  deriving DecidableEq, Repr

structure Event where
  ty : String
  attributes : List Attribute
  deriving DecidableEq, Repr

structure SubMsgResponse where
  events : List Event
  data : Option Binary
  deriving DecidableEq, Repr

inductive SubMsgResult where
  | ok (response : SubMsgResponse)
  | err (error : String)
  deriving DecidableEq, Repr

structure Reply where
  id : Nat
  result : SubMsgResult
  deriving DecidableEq, Repr

/-! ## Addresses -/

/-- The address functions of the chain. -/
structure Api where
  addrValidate : String → StdResult Addr
  addrCanonicalize : String → StdResult CanonicalAddr
  addrHumanize : CanonicalAddr → StdResult Addr

/-- Validation accepts an address in its normal form and returns it; humanizing is the inverse of
canonicalizing. -/
structure Api.Documented (api : Api) : Prop where
  validate : ∀ {s a}, api.addrValidate s = .ok a →
    a = s ∧ ∃ raw, api.addrCanonicalize s = .ok raw ∧ api.addrHumanize raw = .ok s
  humanize : ∀ {raw a}, api.addrHumanize raw = .ok a → api.addrCanonicalize a = .ok raw

/-! ## Taking completed calls apart -/

theorem attempt_ok {α : Type} {r : StdResult α} {st st' : Store} {a : α} :
    attempt r st = (.ok a, st') ↔ r = .ok a ∧ st = st' := by
  unfold attempt
  rw [Prog.reads_ok]
  cases r <;> simp

theorem load_ok {α : Type} {i : Item α} {st st' : Store} {a : α} :
    load i st = (.ok a, st') ↔ i.load st = .ok a ∧ st = st' := by
  unfold load
  rw [Prog.reads_ok]
  have h : (match loadItem i st with
      | .ok a => Except.ok a
      | .error e => .error (Fault.std e)) = .ok a ↔ i.load st = .ok a := by
    unfold loadItem
    cases i.load st with
    | ok b => simp
    | error e => cases e <;> simp
  rw [h]

theorem loadItem_ok {α : Type} {i : Item α} {st : Store} {a : α} :
    loadItem i st = .ok a ↔ i.load st = .ok a := by
  unfold loadItem
  cases i.load st with
  | ok b => simp
  | error e => cases e <;> simp

theorem save_ok {α : Type} {i : Item α} {a : α} {st st' : Store} {u : Unit} :
    save i a st = (.ok u, st') ↔ i.save a st = st' := Prog.modify_ok

theorem save_run {α : Type} (i : Item α) (a : α) (st : Store) :
    save i a st = (.ok (), i.save a st) := rfl

theorem failWith_ok {α : Type} {msg : String} {st st' : Store} {a : α} :
    (failWith msg : ContractM α) st = (.ok a, st') ↔ False := Prog.fail_ok

theorem readOnly_attempt {α : Type} (r : StdResult α) : (attempt r).ReadOnly :=
  Prog.ReadOnly.reads _

theorem readOnly_load {α : Type} (i : Item α) : (load i).ReadOnly := Prog.ReadOnly.reads _

theorem readOnly_failWith {α : Type} (msg : String) :
    (failWith msg : ContractM α).ReadOnly := Prog.ReadOnly.fail _

/-! ## Coins -/

/-- How much of `denom` a list of coins holds. -/
def amountOf (denom : String) (coins : List Coin) : Nat :=
  (coins.map fun c => if c.denom = denom then c.amount.toNat else 0).sum

@[simp] theorem amountOf_nil (denom : String) : amountOf denom [] = 0 := rfl

theorem amountOf_append (denom : String) (xs ys : List Coin) :
    amountOf denom (xs ++ ys) = amountOf denom xs + amountOf denom ys := by
  simp [amountOf]

end Snip721Migratable
