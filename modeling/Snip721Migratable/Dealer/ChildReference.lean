import Snip721Migratable.Reference.Sale

/-!
# Dealer.ChildReference

The dealer's two records of its child: the pair of stored items that purchases use, and the entry
in its list of subscribers.

* `child_reference_is_fold` : the stored pair is a fold over the notifications of the run. Who may
  change it is decided by the pair itself at that moment.
* `child_is_subscribed` : the pair is always one of the subscribers, so the next migration of the
  dealer tells the child.
-/

namespace Snip721Migratable
namespace Dealer

open Registry Reference

/-- The notification a call delivers, with its sender. -/
def Op.announcement? : Op → Option (Addr × ContractInfo)
  | .execute _ info (.migrateListener (.migrationCompleteNotification migratedTo _)) =>
    some (info.sender, migratedTo)
  | _ => none

def announcements (ops : List Op) : List (Addr × ContractInfo) := ops.filterMap Op.announcement?

/-- What a notification does to the child reference. -/
def followChild (api : Api) (child : CanonicalContractInfo) (n : Addr × ContractInfo) :
    CanonicalContractInfo :=
  match api.addrCanonicalize n.1, api.addrCanonicalize n.2.address with
  | .ok sender, .ok raw => if sender = child.address then ⟨raw, n.2.codeHash⟩ else child
  | _, _ => child

section

variable {X : Crates}

theorem followChild_heard {child : CanonicalContractInfo} {sender : Addr} {migratedTo : ContractInfo}
    {raw : CanonicalAddr} (hs : X.api.addrCanonicalize sender = .ok child.address)
    (ht : X.api.addrCanonicalize migratedTo.address = .ok raw) :
    followChild X.api child (sender, migratedTo) = ⟨raw, migratedTo.codeHash⟩ := by
  simp [followChild, hs, ht]

theorem followChild_ignored {s : State} {info : MessageInfo} {migratedTo : ContractInfo}
    (h : ¬ Heard X s info migratedTo) :
    followChild X.api s.child (info.sender, migratedTo) = s.child := by
  unfold followChild
  split
  · rename_i sender raw hs ht
    rw [if_neg]
    rintro rfl
    exact h ⟨hs, raw, ht⟩
  · rfl

/-- One step: the child reference follows the announcement, and nothing else is touched. -/
theorem Next.child {s s' : State} {o : Op} (h : Next X s o s') :
    s'.child = (announcements [o]).foldl (followChild X.api) s.child ∧
      s'.admin = s.admin ∧ s'.prices = s.prices ∧ s'.metadata = s.metadata := by
  cases h with
  | purchase | subscribed | refused | migrated => exact ⟨rfl, rfl, rfl, rfl⟩
  | heard hs ht _ => exact ⟨(followChild_heard hs ht).symm, rfl, rfl, rfl⟩
  | ignored hn => exact ⟨(followChild_ignored hn).symm, rfl, rfl, rfl⟩

theorem Nexts.child {s s' : State} {ops : List Op} (h : Nexts X s ops s') :
    s'.child = (announcements ops).foldl (followChild X.api) s.child ∧
      s'.admin = s.admin ∧ s'.prices = s.prices ∧ s'.metadata = s.metadata := by
  induction h with
  | nil s => exact ⟨rfl, rfl, rfl, rfl⟩
  | @cons s s₁ s' o ops hn _ ih =>
    obtain ⟨hc, ha, hp, hm⟩ := hn.child
    obtain ⟨hc', ha', hp', hm'⟩ := ih
    refine ⟨?_, ha'.trans ha, hp'.trans hp, hm'.trans hm⟩
    have hsplit : announcements (o :: ops) = announcements [o] ++ announcements ops :=
      List.filterMap_append (l := [o])
    rw [hsplit, List.foldl_append, ← hc]
    exact hc'

/-- Along every run the child reference is the fold of the announcements, starting from the address
of the reply and the code hash of the instantiate message; a notification is accepted exactly when
its sender is the child of that moment and its address canonicalizes; the admin, the prices and the
metadata never change. -/
theorem child_reference_is_fold (hX : X.Documented) {env replyEnv : Env} {info : MessageInfo}
    {msg : InstantiateMsg} {rep : Reply} {st : Store}
    (h : Instantiated X env info msg replyEnv rep st) :
    ∃ address raw admin rawAdmin,
      reportedChild rep = some address ∧ X.api.addrCanonicalize address = .ok raw ∧
      trueAdmin X info msg = .ok admin ∧ X.api.addrCanonicalize admin = .ok rawAdmin ∧
      ∀ ops : List Op, ∃ child : CanonicalContractInfo,
        child = (announcements ops).foldl (followChild X.api) ⟨raw, msg.snip721CodeHash⟩ ∧
        X.items.childSnip721Address.load (run X st ops) = .ok child.address ∧
        X.items.childSnip721CodeHash.load (run X st ops) = .ok child.codeHash ∧
        X.items.admin.load (run X st ops) = .ok rawAdmin ∧
        X.items.purchasePrices.load (run X st ops) = .ok msg.prices ∧
        X.items.purchasableMetadata.load (run X st ops) =
          .ok ⟨msg.publicMetadata, msg.privateMetadata⟩ ∧
        ∀ (env : Env) (info : MessageInfo) (migratedTo : ContractInfo) (data : Option Binary),
          (∃ r st', execute X env info
              (.migrateListener (.migrationCompleteNotification migratedTo data)) (run X st ops) =
                (.ok r, st')) ↔
            X.api.addrCanonicalize info.sender = .ok child.address ∧
              ∃ raw', X.api.addrCanonicalize migratedTo.address = .ok raw' := by
  obtain ⟨s, hs, hi⟩ := h.holds hX
  obtain ⟨address, haddr, hraw⟩ := hi.childAddress
  obtain ⟨admin, hadm, hrawAdm⟩ := hi.admin
  refine ⟨address, s.child.address, admin, s.admin, haddr, hraw, hadm, hrawAdm, fun ops => ?_⟩
  obtain ⟨s', hs', hn⟩ := run_nexts hX ops hs
  obtain ⟨hc, ha, hp, hm⟩ := hn.child
  refine ⟨s'.child, ?_, hs'.childAddress, hs'.childCodeHash, ?_, ?_, ?_, ?_⟩
  · rw [hc, ← hi.childCodeHash]
  · rw [hs'.admin, ha]
  · rw [hs'.prices, hp, hi.prices]
  · rw [hs'.metadata, hm, hi.metadata]
  · intro env info migratedTo data
    exact notification_ok_iff hX hs' env data

/-- The child announces a new code hash, and then somebody else announces itself. -/
theorem child_reference_is_fold_sale :
    (items.childSnip721Address.load
      (run crates (Sale.storage [Sale.price])
        [Sale.announce "child" ⟨"child", "child_v2"⟩, Sale.announce "eve" ⟨"eve", "eve_v1"⟩])) =
      .ok (Json.stringBytes "child") ∧
    (items.childSnip721CodeHash.load
      (run crates (Sale.storage [Sale.price])
        [Sale.announce "child" ⟨"child", "child_v2"⟩, Sale.announce "eve" ⟨"eve", "eve_v1"⟩])) =
      .ok "child_v2" := by
  obtain ⟨address, raw, _, _, haddr, hraw, _, _, h⟩ :=
    child_reference_is_fold crates_documented (Sale.instantiated [Sale.price] (by decide))
  cases haddr
  cases hraw
  obtain ⟨child, hchild, ha, hh, _⟩ := h [Sale.announce "child" ⟨"child", "child_v2"⟩,
    Sale.announce "eve" ⟨"eve", "eve_v1"⟩]
  have heq : child = ⟨Json.stringBytes "child", "child_v2"⟩ := hchild.trans (by decide +kernel)
  subst heq
  exact ⟨ha, hh⟩

/-! ## The subscriber entry of the child -/

/-- The child reference is one of the subscribers. -/
def ChildListed (s : State) : Prop := s.child ∈ s.registry.entries

theorem Next.childListed (hX : X.Documented) {s s' : State} {o : Op} (hs : ChildListed s) (h : Next X s o s') :
    ChildListed s' := by
  cases h with
  | purchase | refused | ignored | migrated => exact hs
  | subscribed _ _ hadd =>
    show s.child ∈ _
    rw [add_entries hadd]
    exact mem_insertNew_of_mem hs
  | heard _ _ hup => exact (hup.renamed hX.cw).mem ⟨s.child, hs, rfl⟩

theorem Initial.childListed {info : MessageInfo} {msg : InstantiateMsg} {rep : Reply} {s : State}
    (h : Initial X info msg rep s) : ChildListed s := by
  simp [ChildListed, h.registry]

/-- In every reachable state the child reference is listed as a subscriber, and a migration of the
dealer that completes notifies it under the code hash of the reference. -/
theorem child_is_subscribed (hX : X.Documented) {env replyEnv : Env} {info : MessageInfo}
    {msg : InstantiateMsg} {rep : Reply} {st : Store}
    (h : Instantiated X env info msg replyEnv rep st) (ops : List Op) :
    ∃ child : CanonicalContractInfo,
      X.items.childSnip721Address.load (run X st ops) = .ok child.address ∧
      X.items.childSnip721CodeHash.load (run X st ops) = .ok child.codeHash ∧
      child ∈ X.cw.subscribers (run X st ops) ∧
      ∀ (env : Env) (r : Response) (st' : Store), migrate X env (run X st ops) = (.ok r, st') →
        ∃ address, X.api.addrHumanize child.address = .ok address ∧
          X.cw.notify X.json .never 0 env.contract none ⟨address, child.codeHash⟩ ∈ r.messages := by
  obtain ⟨s, hs, hi⟩ := h.holds hX
  obtain ⟨s', hs', hn⟩ := run_nexts hX ops hs
  have hlisted : s'.child ∈ s'.registry.entries :=
    hn.inv (fun _ _ _ hs hn => hn.childListed hX hs) hi.childListed
  refine ⟨s'.child, hs'.childAddress, hs'.childCodeHash, ?_, ?_⟩
  · rw [CwMigratable.subscribers_of_registry hs'.registry]
    exact hlisted
  · intro env r st' hm
    rw [← CwMigratable.subscribers_of_registry hs'.registry] at hlisted
    obtain ⟨i, hi⟩ := List.getElem?_of_mem hlisted
    obtain ⟨address, hhum, hmsg⟩ := notified hX.cw hm hi
    exact ⟨address, hhum, List.mem_of_getElem? hmsg⟩

/-- Somebody lists the child's address under another code hash before the child announces it. -/
theorem child_is_subscribed_sale :
    ∃ child : CanonicalContractInfo,
      items.childSnip721Address.load (run crates (Sale.storage [Sale.price])
        [Sale.subscribe "eve" "child" "child_v2",
          Sale.announce "child" ⟨"child", "child_v2"⟩]) = .ok child.address ∧
      items.childSnip721CodeHash.load (run crates (Sale.storage [Sale.price])
        [Sale.subscribe "eve" "child" "child_v2",
          Sale.announce "child" ⟨"child", "child_v2"⟩]) = .ok child.codeHash ∧
      child ∈ cw.subscribers (run crates (Sale.storage [Sale.price])
        [Sale.subscribe "eve" "child" "child_v2",
          Sale.announce "child" ⟨"child", "child_v2"⟩]) := by
  obtain ⟨child, haddr, hhash, hmem, _⟩ := child_is_subscribed crates_documented
    (Sale.instantiated [Sale.price] (by decide))
    [Sale.subscribe "eve" "child" "child_v2", Sale.announce "child" ⟨"child", "child_v2"⟩]
  exact ⟨child, haddr, hhash, hmem⟩

end

end Dealer
end Snip721Migratable
