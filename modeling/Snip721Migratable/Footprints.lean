import Snip721Migratable.Lib.Footprint
import Snip721Migratable.Reference.Sale
import Snip721Migratable.Migratable.Spec

/-!
# Footprints

Which storage keys the entry points read and write.

* `Crates.Separate` : the migration crate keeps to its two keys, the base contract stays off them.
* `Dealer.keys` : the storage keys of the dealer, its five items and the two of the migration crate.
* `dealer_keeps_to_its_keys` : no run of a dealer reads or writes anything else.
-/

namespace Snip721Migratable

open Prog (Local)

def CwMigratable.keySet : Set String := {k | k ∈ CwMigratable.keys}

/-- What the linked crates read and write. -/
structure Crates.Separate (X : Crates) : Prop where
  add : ∀ raw codeHash,
    Local CwMigratable.keySet (X.cw.addMigrationCompleteEventSubscriber raw codeHash)
  update : ∀ raw migratedTo,
    Local CwMigratable.keySet (X.cw.updateMigratedSubscriber raw migratedTo)
  instantiate : ∀ env info msg,
    Local (CwMigratable.keySet)ᶜ (X.impl.instantiate env info msg)
  execute : ∀ env info msg, Local (CwMigratable.keySet)ᶜ (X.impl.execute env info msg)

section

variable {K : Set String} {α : Type}

theorem attempt_local (r : StdResult α) : Local K (attempt r) := .reads fun _ => rfl

theorem failWith_local (msg : String) : Local K (failWith msg : ContractM α) := .fail _

theorem loadItem_congr {i : Item α} (hi : i.key ∈ K) {st st' : Store} (h : Set.EqOn st st' K) :
    loadItem i st = loadItem i st' := by
  simp only [loadItem, i.load_congr (h hi).symm]

theorem load_local {i : Item α} (hi : i.key ∈ K) : Local K (load i) := by
  refine .reads fun h => ?_
  simp only [loadItem_congr hi h]

theorem save_local {i : Item α} (hi : i.key ∈ K) (a : α) : Local K (save i a) :=
  i.save_local hi a

variable {X : Crates}

theorem CwMigratable.subscribers_congr {st st' : Store}
    (h : Set.EqOn st st' CwMigratable.keySet) : X.cw.subscribers st = X.cw.subscribers st' := by
  have hk : X.cw.migrationCompleteEventSubscribers.key ∈ CwMigratable.keySet := by
    simp [CwMigratable.keySet, CwMigratable.keys]
  simp only [CwMigratable.subscribers, Item.load_congr _ (h hk).symm]

theorem notifySubscribers_local (hcw : X.cw.Documented X.api X.json) (env : Env) :
    Local CwMigratable.keySet (notifySubscribers X env) where
  frame s := by
    rw [notifySubscribers_run hcw]
    split <;> exact Set.eqOn_refl _ _
  answer := by
    intro s s' h
    rw [notifySubscribers_run hcw, notifySubscribers_run hcw, CwMigratable.subscribers_congr h]
    split <;> rfl
  effect := by
    intro s s' h
    rw [notifySubscribers_run hcw, notifySubscribers_run hcw, CwMigratable.subscribers_congr h]
    split <;> exact h

theorem register_local (hcw : X.cw.Documented X.api X.json) (hsep : X.Separate)
    (address codeHash : String) :
    Local CwMigratable.keySet (X.cw.registerToNotifyOnMigrationComplete address codeHash) := by
  rw [hcw.register]
  refine .bind (attempt_local _) fun valid => .bind (attempt_local _) fun raw => ?_
  exact .bind (hsep.add raw codeHash) fun _ => .pure _

end

/-! ## The dealer -/

namespace Dealer

/-- The storage keys of the dealer. -/
def keys : List String :=
  ["admin", "childSnip721CodeHash", "childSnip721Addr", "prices", "purMetadata"] ++
    CwMigratable.keys

def keySet : Set String := {k | k ∈ keys}

theorem cw_keySet_subset : CwMigratable.keySet ⊆ keySet :=
  fun _ hk => List.mem_append_right _ hk

section

variable (X : Crates)

theorem item_keys : X.items.admin.key ∈ keySet ∧ X.items.childSnip721CodeHash.key ∈ keySet ∧
    X.items.childSnip721Address.key ∈ keySet ∧ X.items.purchasePrices.key ∈ keySet ∧
    X.items.purchasableMetadata.key ∈ keySet := by
  simp [keySet, keys]

variable {X}

theorem purchaseAndMint_local (info : MessageInfo) :
    Local keySet (purchaseAndMint X info) := by
  obtain ⟨hadmin, hhash, haddr, hprices, hmeta⟩ := item_keys X
  unfold purchaseAndMint
  split
  · refine .bind (load_local hprices) fun _ => .bind (attempt_local _) fun _ => ?_
    refine .bind (load_local hadmin) fun _ => .bind (attempt_local _) fun _ => ?_
    refine .bind (load_local hmeta) fun _ => .bind (load_local hhash) fun _ => ?_
    exact .bind (load_local haddr) fun _ => .bind (attempt_local _) fun _ => .pure _
  · exact failWith_local _

theorem updateChildSnip721_local (hsep : X.Separate) (info : MessageInfo)
    (migratedTo : ContractInfo) : Local keySet (updateChildSnip721 X info migratedTo) := by
  obtain ⟨_, hhash, haddr, _, _⟩ := item_keys X
  unfold updateChildSnip721
  refine .bind (load_local haddr) fun _ => .bind (attempt_local _) fun _ => ?_
  refine .ite (failWith_local _) (.bind (attempt_local _) fun _ => ?_)
  refine .bind (save_local haddr _) fun _ => .bind (save_local hhash _) fun _ => ?_
  exact .bind ((hsep.update _ _).mono cw_keySet_subset) fun _ => .pure _

theorem execute_local (hcw : X.cw.Documented X.api X.json) (hsep : X.Separate) (env : Env)
    (info : MessageInfo) (msg : ExecuteMsg) : Local keySet (execute X env info msg) := by
  match msg with
  | .dealer .purchaseMint => exact purchaseAndMint_local info
  | .migrate (.subscribeToMigrationCompleteEvent address codeHash) =>
    exact (register_local hcw hsep address codeHash).mono cw_keySet_subset
  | .migrate (.broadcastMigrationCompleteNotification ..) => exact failWith_local _
  | .migrateListener (.migrationCompleteNotification migratedTo _) =>
    exact updateChildSnip721_local hsep info migratedTo

theorem instantiate_local (env : Env) (info : MessageInfo) (msg : InstantiateMsg) :
    Local keySet (instantiate X env info msg) := by
  obtain ⟨hadmin, hhash, _, hprices, hmeta⟩ := item_keys X
  unfold instantiate
  refine .ite (failWith_local _) (.bind (attempt_local _) fun _ => .bind (attempt_local _) ?_)
  intro _
  refine .bind (save_local hadmin _) fun _ => .bind (save_local hprices _) fun _ => ?_
  exact .bind (save_local hhash _) fun _ => .bind (save_local hmeta _) fun _ => .pure _

theorem reply_local (hsep : X.Separate) (env : Env) (msg : Reply) :
    Local keySet (reply X env msg) := by
  obtain ⟨hadmin, hhash, haddr, _, _⟩ := item_keys X
  unfold reply
  refine .ite ?_ (failWith_local _)
  unfold onInstantiatedSnip721Reply
  split
  · exact .fail _
  · split
    · exact .fail _
    · refine .bind (attempt_local _) fun _ => .bind (attempt_local _) fun _ => ?_
      refine .bind (save_local haddr _) fun _ => .bind (load_local hhash) fun _ => ?_
      refine .bind (load_local hadmin) fun _ => .bind (attempt_local _) fun _ => ?_
      exact .bind ((hsep.add _ _).mono cw_keySet_subset) fun _ => .pure _

theorem query_congr {st st' : Store} (h : Set.EqOn st st' keySet) (q : QueryMsg) :
    query X st q = query X st' q := by
  obtain ⟨_, hhash, haddr, hprices, _⟩ := item_keys X
  cases q with
  | getPrices => simp only [query, queryPrices, loadItem_congr hprices h]
  | getChildSnip721 =>
    simp only [query, queryChildSnip721, loadItem_congr hhash h, loadItem_congr haddr h]

end

/-- Any call of an entry point that may write. -/
inductive Call where
  | instantiate (env : Env) (info : MessageInfo) (msg : InstantiateMsg)
  | reply (env : Env) (msg : Reply)
  | op (o : Op)

def Call.prog (X : Crates) : Call → ContractM Response
  | .instantiate env info msg => Dealer.instantiate X env info msg
  | .reply env msg => Dealer.reply X env msg
  | .op o => o.call X

theorem Call.prog_local {X : Crates} (hcw : X.cw.Documented X.api X.json) (hsep : X.Separate)
    (c : Call) : Local keySet (c.prog X) := by
  cases c with
  | instantiate env info msg => exact instantiate_local env info msg
  | reply env msg => exact reply_local hsep env msg
  | op o =>
    cases o with
    | execute env info msg => exact execute_local hcw hsep env info msg
    | migrate env => exact (notifySubscribers_local hcw env).mono cw_keySet_subset

end Dealer

/-- Whatever is called in whatever order, from whatever storage: what is stored under other keys
stays as it is, and neither the answers, nor what is stored under the dealer's keys, nor its
queries depend on it. -/
theorem dealer_keeps_to_its_keys {X : Crates} (hX : X.Documented) (hsep : X.Separate)
    (calls : List Dealer.Call) (st : Store) :
    Set.EqOn (Prog.runAll (Dealer.Call.prog X) st calls) st (Dealer.keySet)ᶜ ∧
    ∀ st', Set.EqOn st st' Dealer.keySet →
      Prog.trace (Dealer.Call.prog X) st calls = Prog.trace (Dealer.Call.prog X) st' calls ∧
      Set.EqOn (Prog.runAll (Dealer.Call.prog X) st calls)
        (Prog.runAll (Dealer.Call.prog X) st' calls) Dealer.keySet ∧
      ∀ q, Dealer.query X (Prog.runAll (Dealer.Call.prog X) st calls) q =
        Dealer.query X (Prog.runAll (Dealer.Call.prog X) st' calls) q := by
  have hlocal := Dealer.Call.prog_local hX.cw hsep
  refine ⟨Prog.runAll_frame hlocal calls st, fun st' h => ?_⟩
  have hc : Prog.Component Dealer.keySet (Dealer.Call.prog X) (Dealer.Call.prog X) some :=
    { mine := fun h => by cases h; rfl
      keeps := hlocal
      others := fun h => by cases h }
  obtain ⟨hrun, htrace⟩ := Prog.run_project hc calls h
  simp only [List.filterMap_some] at hrun htrace
  refine ⟨?_, hrun, fun q => Dealer.query_congr hrun q⟩
  rw [← htrace, Prog.answersOf_some]

/-! ## The reference crates -/

namespace Reference

theorem mayLoad_local {K : Set String} {α : Type} {i : Item α} (hi : i.key ∈ K) :
    Local K (mayLoad i) := by
  refine .reads fun h => ?_
  rw [i.mayLoad_congr (h hi).symm]

theorem cw_item_keys : slots.key ∈ CwMigratable.keySet ∧ subscribers.key ∈ CwMigratable.keySet := by
  simp [CwMigratable.keySet, CwMigratable.keys, slots, subscribers]

theorem impl_item_keys : adminItem.key ∈ (CwMigratable.keySet)ᶜ ∧
    mintersItem.key ∈ (CwMigratable.keySet)ᶜ ∧ mintedItem.key ∈ (CwMigratable.keySet)ᶜ := by
  simp [CwMigratable.keySet, CwMigratable.keys, adminItem, mintersItem, mintedItem]

theorem implInstantiate_local (info : MessageInfo) (msg : Snip721InstantiateMsg) :
    Local (CwMigratable.keySet)ᶜ (implInstantiate info msg) := by
  obtain ⟨hadmin, hminters, hminted⟩ := impl_item_keys
  unfold implInstantiate
  refine .bind (attempt_local _) fun _ => .bind (save_local hadmin _) fun _ => ?_
  refine .bind (save_local hminters _) fun _ => .bind (save_local hminted _) fun _ => ?_
  split <;> exact .pure _

theorem implExecute_local (info : MessageInfo) (msg : Snip721ExecuteMsg) :
    Local (CwMigratable.keySet)ᶜ (implExecute info msg) := by
  obtain ⟨hadmin, hminters, hminted⟩ := impl_item_keys
  have hchange : ∀ addresses f, Local (CwMigratable.keySet)ᶜ (changeMinters info addresses f) := by
    intro addresses f
    unfold changeMinters
    refine .bind (attempt_local _) fun _ => .bind (load_local hadmin) fun _ => ?_
    refine .ite (failWith_local _) (.bind (attempt_local _) fun _ => ?_)
    exact .bind (load_local hminters) fun _ => .bind (save_local hminters _) fun _ => .pure _
  cases msg with
  | mintNft m =>
    show Local _ (mint info m)
    unfold mint
    refine .bind (attempt_local _) fun _ => .bind (load_local hminters) fun _ => ?_
    refine .ite (failWith_local _) (.bind (attempt_local _) fun _ => ?_)
    exact .bind (load_local hminted) fun _ => .bind (save_local hminted _) fun _ => .pure _
  | addMinters addresses _ => exact hchange addresses _
  | removeMinters addresses _ => exact hchange addresses _
  | setMinters addresses _ => exact hchange addresses _
  | changeAdmin address _ =>
    show Local _ (changeAdmin info address)
    unfold changeAdmin
    refine .bind (attempt_local _) fun _ => .bind (load_local hadmin) fun _ => ?_
    refine .ite (failWith_local _) (.bind (attempt_local _) fun _ => ?_)
    exact .bind (save_local hadmin _) fun _ => .pure _
  | other tag fields => exact failWith_local _

theorem crates_separate : crates.Separate where
  add raw codeHash := by
    obtain ⟨hslots, hsubs⟩ := cw_item_keys
    show Local _ (addMigrationCompleteEventSubscriber raw codeHash)
    unfold addMigrationCompleteEventSubscriber
    refine .bind (mayLoad_local hslots) fun remaining => .bind ?_ fun _ => ?_
    · cases remaining with
      | none => exact .pure _
      | some n => exact .ite (failWith_local _) (save_local hslots _)
    · exact .bind (mayLoad_local hsubs) fun _ => save_local hsubs _
  update raw migratedTo := by
    obtain ⟨_, hsubs⟩ := cw_item_keys
    show Local _ (updateMigratedSubscriber _ raw migratedTo)
    unfold updateMigratedSubscriber
    exact .bind (mayLoad_local hsubs) fun _ => save_local hsubs _
  instantiate _ info msg := implInstantiate_local info msg
  execute _ info msg := implExecute_local info msg

end Reference

/-- A dealer next to an entry of somebody else: it is instantiated, hears of its child, and sells a
token, as it does on an empty storage. -/
def foreign : Store := fun k => if k = "config" then some [1] else none

def saleCalls : List Dealer.Call :=
  [.instantiate Reference.Sale.env Reference.Sale.seller (Reference.Sale.msg [Reference.Sale.price]),
    .reply Reference.Sale.env Reference.Sale.childReply,
    .op (.execute Reference.Sale.env { sender := "buyer", funds := [Reference.Sale.price] }
      (.dealer .purchaseMint))]

theorem dealer_keeps_to_its_keys_sale :
    Prog.runAll (Dealer.Call.prog Reference.crates) foreign saleCalls "config" = some [1] ∧
    Prog.trace (Dealer.Call.prog Reference.crates) foreign saleCalls =
      Prog.trace (Dealer.Call.prog Reference.crates) Store.empty saleCalls := by
  obtain ⟨hframe, hlocal⟩ :=
    dealer_keeps_to_its_keys Reference.crates_documented Reference.crates_separate saleCalls foreign
  refine ⟨hframe (by simp [Dealer.keySet, Dealer.keys, CwMigratable.keys]), ?_⟩
  refine (hlocal Store.empty fun k hk => ?_).1
  have hne : k ≠ "config" := by
    rintro rfl
    simp [Dealer.keySet, Dealer.keys, CwMigratable.keys] at hk
  simp [foreign, hne, Store.empty]

end Snip721Migratable
