import Snip721Migratable.Reference.Crates
import Snip721Migratable.Dealer.Run

/-!
# Reference.Sale

A dealer over the reference crates: it is instantiated by `seller` with a given price list, and
the chain reports the address `child` for the contract it creates.
-/

namespace Snip721Migratable
namespace Reference
namespace Sale

open Dealer

def env : Env where
  block := { height := 1, time := 0, chainId := "secret-4", random := none }
  transaction := none
  contract := { address := "dealer", codeHash := "dealer_v1" }

def seller : MessageInfo := { sender := "seller", funds := [] }

def publicMetadata : Metadata := { tokenUri := some "ipfs://public", extension := none }

def msg (prices : List Coin) : InstantiateMsg where
  snip721CodeHash := "child_v1"
  snip721CodeId := 7
  snip721Label := "child"
  prices := prices
  publicMetadata := some publicMetadata
  privateMetadata := none
  admin := none
  entropy := "entropy"
  royaltyInfo := none

def childReply : Reply where
  id := 1
  result := .ok
    { events := [⟨"instantiate", [⟨"code_id", "7"⟩, ⟨"contract_address", "child"⟩]⟩]
      data := none }

/-- The storage of the dealer once its child exists. -/
def storageOf (X : Crates) (prices : List Coin) : Store :=
  (reply X env childReply (instantiate X env seller (msg prices) Store.empty).2).2

def storage (prices : List Coin) : Store := storageOf crates prices

theorem instantiated_over {X : Crates} (hX : X.Documented) (hapi : X.api = api)
    (prices : List Coin) (h : prices ≠ []) :
    Instantiated X env seller (msg prices) env childReply (storageOf X prices) := by
  have hcanon : X.api.addrCanonicalize "seller" = .ok (Json.stringBytes "seller") := by
    rw [hapi]
    exact canonicalize_ok (by decide)
  have hhuman : X.api.addrHumanize (Json.stringBytes "seller") = .ok "seller" := by
    rw [hapi]
    exact humanize_ok (by decide)
  have hchild : X.api.addrValidate "child" = .ok "child" := by
    rw [hapi]
    exact validate_ok (by decide)
  obtain ⟨st, r, st₀, r', hinst, hrep⟩ : ∃ st, Instantiated X env seller (msg prices) env
      childReply st :=
    instantiated_of hX env env h rfl hcanon hhuman rfl rfl hchild
  refine ⟨r, st₀, r', hinst, ?_⟩
  simp only [storageOf, hinst, hrep]

theorem instantiated (prices : List Coin) (h : prices ≠ []) :
    Instantiated crates env seller (msg prices) env childReply (storage prices) :=
  instantiated_over crates_documented rfl prices h

/-- The state that storage holds. -/
def state (prices : List Coin) : State where
  admin := Json.stringBytes "seller"
  prices := prices
  metadata := { publicMetadata := some publicMetadata, privateMetadata := none }
  child := { address := Json.stringBytes "child", codeHash := "child_v1" }
  registry :=
    { entries := [{ address := Json.stringBytes "child", codeHash := "child_v1" }], slots := none }

theorem holds (prices : List Coin) (h : prices ≠ []) :
    Holds crates (storage prices) (state prices) := by
  obtain ⟨s, hs, hi⟩ := (instantiated prices h).holds crates_documented
  have heq : s = state prices := by
    obtain ⟨a, ha, hadmin⟩ := hi.admin
    cases ha
    obtain ⟨c, hc, hchild⟩ := hi.childAddress
    cases hc
    have hch : s.child = (state prices).child := by
      obtain ⟨admin, ps, m, ⟨address, codeHash⟩, reg⟩ := s
      cases hchild
      cases hi.childCodeHash
      rfl
    have hreg := hi.registry
    rw [hch] at hreg
    obtain ⟨admin, ps, m, child, reg⟩ := s
    cases hadmin; cases hi.prices; cases hi.metadata; cases hch; cases hreg
    rfl
  exact heq ▸ hs

/-! ## Calls -/

def price : Coin := { denom := "uscrt", amount := 100 }

/-- One denom, listed with two amounts. -/
def twoPrices : List Coin := [{ denom := "uscrt", amount := 100 }, { denom := "uscrt", amount := 200 }]

def subscribe (sender : Addr) (address codeHash : String) : Op :=
  .execute env { sender, funds := [] }
    (.migrate (.subscribeToMigrationCompleteEvent address codeHash))

/-- A subscription of the sender itself, with coins attached. -/
def subscribePaying (sender : Addr) (funds : List Coin) : Op :=
  .execute env { sender, funds }
    (.migrate (.subscribeToMigrationCompleteEvent sender (sender ++ "_v1")))

def announce (sender : Addr) (migratedTo : ContractInfo) : Op :=
  .execute env { sender, funds := [] }
    (.migrateListener (.migrationCompleteNotification migratedTo none))

end Sale
end Reference
end Snip721Migratable
