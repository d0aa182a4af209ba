import Snip721Migratable.ReferenceImpl

/-!
# Dealer.State

The storage items of the dealer.
-/

namespace Snip721Migratable
namespace Dealer

structure PurchasableMetadata where
  publicMetadata : Option Metadata
  privateMetadata : Option Metadata

/-- How the items are encoded. -/
structure Items where
  canonicalAddr : Codec CanonicalAddr
  string : Codec String
  coins : Codec (List Coin)
  metadata : Codec PurchasableMetadata

namespace Items

variable (s : Items)

def admin : Item CanonicalAddr :=
  { key := "admin", typeName := "secret_cosmwasm_std::addresses::CanonicalAddr",
    codec := s.canonicalAddr }

def childSnip721CodeHash : Item String :=
  { key := "childSnip721CodeHash", typeName := "alloc::string::String", codec := s.string }

def childSnip721Address : Item CanonicalAddr :=
  { key := "childSnip721Addr", typeName := "secret_cosmwasm_std::addresses::CanonicalAddr",
    codec := s.canonicalAddr }

def purchasePrices : Item (List Coin) :=
  { key := "prices", typeName := "alloc::vec::Vec<secret_cosmwasm_std::coin::Coin>",
    codec := s.coins }

def purchasableMetadata : Item PurchasableMetadata :=
  { key := "purMetadata", typeName := "snip721_dealer::state::PurchasableMetadata",
    codec := s.metadata }

@[simp] theorem admin_key : s.admin.key = "admin" := rfl
@[simp] theorem childSnip721CodeHash_key : s.childSnip721CodeHash.key = "childSnip721CodeHash" := rfl
@[simp] theorem childSnip721Address_key : s.childSnip721Address.key = "childSnip721Addr" := rfl
@[simp] theorem purchasePrices_key : s.purchasePrices.key = "prices" := rfl
@[simp] theorem purchasableMetadata_key : s.purchasableMetadata.key = "purMetadata" := rfl

end Items

end Dealer
end Snip721Migratable
