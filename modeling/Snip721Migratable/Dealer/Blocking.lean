import Snip721Migratable.Dealer.Ledger

/-!
# Dealer.Blocking

Who can stop the dealer from migrating. A migration notifies every subscriber with messages whose
failure reverts it, anybody may subscribe any valid address under any code hash, and the dealer
stores no limit on subscribers.

`accepts c b` stands for the chain: a contract with the code hash of `c` lives at the address of
`c`, and it takes the message `b`.

* `migrationCommits_iff` : a migration commits when every subscriber is reached.
* `thirdParty_entries` : what strangers can do to the list of subscribers.
* `migration_commits_after_iff` : after calls by strangers the migration commits exactly when
  every contract they subscribed takes the notification.
-/

namespace Snip721Migratable
namespace Dealer

open Registry Reference

section Chain

variable (X : Crates) (accepts : ContractInfo → Binary → Prop)

def Delivered (m : SubMsg) : Prop :=
  match m.msg with
  | .wasm (.execute contractAddr codeHash b _) => accepts ⟨contractAddr, codeHash⟩ b
  | _ => False

/-- The migration completes and all of its messages, none of which may fail, are delivered. -/
def MigrationCommits (env : Env) (st : Store) : Prop :=
  ∃ r st', migrate X env st = (.ok r, st') ∧ ∀ m ∈ r.messages, Delivered accepts m

/-- The entry can be addressed, and takes the notification of a migration in `env`. -/
def Reached (env : Env) (c : CanonicalContractInfo) : Prop :=
  ∃ a, X.api.addrHumanize c.address = .ok a ∧
    accepts ⟨a, c.codeHash⟩ (X.cw.notification X.json env.contract none)

/-- The call is an execute message, and its sender is neither the admin nor the child. -/
def ThirdParty (st : Store) (o : Op) : Prop :=
  ∃ env info msg, o = .execute env info msg ∧
    ∀ raw, X.items.admin.load st = .ok raw ∨ X.items.childSnip721Address.load st = .ok raw →
      X.api.addrCanonicalize info.sender ≠ .ok raw

/-- The call subscribes `c`, under a valid address. -/
def Subscribes (o : Op) (c : ContractInfo) : Prop :=
  ∃ env info, o = .execute env info
      (.migrate (.subscribeToMigrationCompleteEvent c.address c.codeHash)) ∧
    X.api.addrValidate c.address = .ok c.address

end Chain

section

variable {X : Crates} {accepts : ContractInfo → Binary → Prop} {st : Store} {s s' : State}

/-- Humanizing a list entry by entry. -/
theorem exists_humanized {f : CanonicalContractInfo → StdResult ContractInfo}
    {l : List CanonicalContractInfo} {P : CanonicalContractInfo → ContractInfo → Prop}
    (h : ∀ c ∈ l, ∃ i, f c = .ok i ∧ P c i) :
    ∃ cs, List.Forall₂ (fun c i => f c = .ok i) l cs ∧ ∀ i ∈ cs, ∃ c ∈ l, P c i := by
  induction l with
  | nil => exact ⟨[], .nil, by simp⟩
  | cons c l ih =>
    obtain ⟨i, hi, hp⟩ := h c (by simp)
    obtain ⟨cs, hcs, hps⟩ := ih fun c' hc' => h c' (by simp [hc'])
    refine ⟨i :: cs, .cons hi hcs, ?_⟩
    intro i' hi'
    rcases List.mem_cons.mp hi' with rfl | hi'
    · exact ⟨c, by simp, hp⟩
    · obtain ⟨c', hc', hp'⟩ := hps i' hi'
      exact ⟨c', by simp [hc'], hp'⟩

theorem migrationCommits_iff (hX : X.Documented) (hs : Holds X st s) (env : Env) :
    MigrationCommits X accepts env st ↔ ∀ c ∈ s.registry.entries, Reached X accepts env c := by
  constructor
  · rintro ⟨r, st', h, hd⟩ c hc
    rw [← CwMigratable.subscribers_of_registry hs.registry] at hc
    obtain ⟨i, hi⟩ := List.getElem?_of_mem hc
    obtain ⟨a, ha, hm⟩ := notified hX.cw h hi
    exact ⟨a, ha, hd _ (List.mem_of_getElem? hm)⟩
  · intro h
    obtain ⟨cs, hcs, hacc⟩ := exists_humanized (f := X.cw.intoHumanized)
      (P := fun _ i => accepts i (X.cw.notification X.json env.contract none)) (by
        intro c hc
        obtain ⟨a, ha, hd⟩ := h c hc
        exact ⟨⟨a, c.codeHash⟩, by rw [hX.cw.intoHumanized, ha]; rfl, hd⟩)
    refine ⟨⟨cs.map (X.cw.notify X.json .never 0 env.contract none)⟩, st,
      (migrate_ok hX.cw hs).mpr ⟨rfl, cs, hcs, rfl⟩, ?_⟩
    intro m hm
    obtain ⟨i, hi, rfl⟩ := List.mem_map.mp hm
    obtain ⟨_, _, hd⟩ := hacc i hi
    exact hd

/-- A stranger's call can only list the contract it subscribes. -/
theorem Next.thirdParty_entries {o : Op} (h : Next X s o s') (hslots : s.registry.slots = none)
    (ho : ∃ env info msg, o = .execute env info msg ∧
      X.api.addrCanonicalize info.sender ≠ .ok s.child.address) (c : CanonicalContractInfo) :
    c ∈ s'.registry.entries ↔ c ∈ s.registry.entries ∨ ∃ i, Subscribes X o i ∧
      X.api.addrCanonicalize i.address = .ok c.address ∧ i.codeHash = c.codeHash := by
  cases h with
  | purchase =>
    refine ⟨.inl, ?_⟩
    rintro (hc | ⟨i, ⟨_, _, heq, _⟩, _⟩)
    · exact hc
    · cases heq
  | @subscribed env info address codeHash raw reg' hv hraw hadd =>
    show c ∈ reg'.entries ↔ _
    rw [add_entries hadd, mem_insertNew_iff]
    refine or_congr Iff.rfl ⟨?_, ?_⟩
    · rintro rfl
      exact ⟨⟨address, codeHash⟩, ⟨env, info, rfl, hv⟩, hraw, rfl⟩
    · intro hsub
      obtain ⟨i, ⟨_, _, heq, _⟩, hi, hh⟩ := hsub
      cases heq
      obtain ⟨_, _⟩ := c
      cases hraw.symm.trans hi
      cases hh; rfl
  | refused hn =>
    refine ⟨.inl, ?_⟩
    rintro (hc | ⟨i, ⟨_, _, heq, hv⟩, hraw, _⟩)
    · exact hc
    · cases heq
      exact (hn ⟨i.address, i.codeHash, _, _, rfl, hv, hraw, add_unlimited hslots _⟩).elim
  | heard hsender _ _ =>
    obtain ⟨_, _, _, heq, hne⟩ := ho
    cases heq
    exact (hne hsender).elim
  | ignored _ =>
    refine ⟨.inl, ?_⟩
    rintro (hc | ⟨i, ⟨_, _, heq, _⟩, _⟩)
    · exact hc
    · cases heq
  | migrated env =>
    obtain ⟨_, _, _, heq, _⟩ := ho
    cases heq

theorem Nexts.thirdParty_entries {ops : List Op} (h : Nexts X s ops s')
    (hslots : s.registry.slots = none)
    (hops : ∀ o ∈ ops, ∃ env info msg, o = .execute env info msg ∧
      X.api.addrCanonicalize info.sender ≠ .ok s.child.address) (c : CanonicalContractInfo) :
    c ∈ s'.registry.entries ↔ c ∈ s.registry.entries ∨ ∃ o ∈ ops, ∃ i, Subscribes X o i ∧
      X.api.addrCanonicalize i.address = .ok c.address ∧ i.codeHash = c.codeHash := by
  induction h with
  | nil s => simp
  | @cons s s₁ s' o os hn hns ih =>
    have hchild : s₁.child = s.child := by
      obtain ⟨env, info, msg, heq, hne⟩ := hops o (by simp)
      cases hn with
      | heard hsender _ _ => cases heq; exact (hne hsender).elim
      | _ => rfl
    rw [ih (hn.slots hslots) (fun o' ho' => by rw [hchild]; exact hops o' (by simp [ho'])),
      hn.thirdParty_entries hslots (hops o (by simp)), or_assoc]
    simp only [List.mem_cons, exists_eq_or_imp]

/-- Take a reachable state from which the migration commits, and calls by strangers. Afterwards it
commits exactly when every contract that the calls subscribed takes the notification. -/
theorem migration_commits_after_iff (hX : X.Documented) {env replyEnv : Env} {info : MessageInfo}
    {msg : InstantiateMsg} {rep : Reply} (h : Instantiated X env info msg replyEnv rep st)
    (ops calls : List Op) (migrateEnv : Env)
    (hthird : ∀ o ∈ calls, ThirdParty X (run X st ops) o)
    (hcommits : MigrationCommits X accepts migrateEnv (run X st ops)) :
    MigrationCommits X accepts migrateEnv (run X st (ops ++ calls)) ↔
      ∀ o ∈ calls, ∀ c, Subscribes X o c →
        accepts c (X.cw.notification X.json migrateEnv.contract none) := by
  obtain ⟨s₀, hs₀, hi⟩ := h.holds hX
  obtain ⟨s, hs, hn⟩ := run_nexts hX ops hs₀
  have hslots : s.registry.slots = none :=
    hn.inv (fun _ _ _ hs hn => hn.slots hs) (by rw [hi.registry])
  obtain ⟨s', hs', hns⟩ := run_nexts hX calls hs
  have hrun : run X st (ops ++ calls) = run X (run X st ops) calls := List.foldl_append
  have hcalls : ∀ o ∈ calls, ∃ env info msg, o = .execute env info msg ∧
      X.api.addrCanonicalize info.sender ≠ .ok s.child.address := by
    intro o ho
    obtain ⟨env, info, msg, heq, hne⟩ := hthird o ho
    exact ⟨env, info, msg, heq, hne _ (.inr hs.childAddress)⟩
  have hmem := hns.thirdParty_entries hslots hcalls
  have hreach := (migrationCommits_iff hX hs migrateEnv).mp hcommits
  rw [hrun, migrationCommits_iff hX hs']
  constructor
  · intro hall o ho c hsub
    obtain ⟨_, _, _, hv⟩ := id hsub
    obtain ⟨_, raw, hraw, hhum⟩ := hX.api.validate hv
    obtain ⟨a, ha, hacc⟩ := hall ⟨raw, c.codeHash⟩
      ((hmem _).mpr (.inr ⟨o, ho, c, hsub, hraw, rfl⟩))
    cases hhum.symm.trans ha
    exact hacc
  · intro hacc c hc
    rcases (hmem c).mp hc with hc | ⟨o, ho, i, hsub, hraw, hh⟩
    · exact hreach c hc
    · obtain ⟨_, _, _, hv⟩ := id hsub
      obtain ⟨_, raw, hraw', hhum⟩ := hX.api.validate hv
      cases hraw.symm.trans hraw'
      exact ⟨i.address, hhum, hh ▸ hacc o ho i hsub⟩

end

/-! ## A dealer with its child -/

/-- A chain on which only the given contracts live; they take every message. -/
def onlyLive (live : List ContractInfo) (c : ContractInfo) (_ : Binary) : Prop := c ∈ live

theorem sale_migrationCommits (live : List ContractInfo) (h : ⟨"child", "child_v1"⟩ ∈ live) :
    MigrationCommits crates (onlyLive live) Sale.env (Sale.storage [Sale.price]) := by
  rw [migrationCommits_iff crates_documented (Sale.holds [Sale.price] (by decide))]
  intro c hc
  rw [List.mem_singleton.mp hc]
  exact ⟨"child", humanize_ok (by decide), h⟩

theorem sale_thirdParty (address codeHash : String) :
    ThirdParty crates (Sale.storage [Sale.price]) (Sale.subscribe "eve" address codeHash) := by
  refine ⟨_, _, _, rfl, ?_⟩
  have hs := Sale.holds [Sale.price] (by decide)
  rintro raw (h | h)
  · cases h.symm.trans hs.admin
    decide +kernel
  · cases h.symm.trans hs.childAddress
    decide +kernel

/-- A stranger subscribes itself, and it lives. -/
theorem migration_commits_after_iff_sale :
    MigrationCommits crates (onlyLive [⟨"child", "child_v1"⟩, ⟨"eve", "eve_v1"⟩]) Sale.env
        (run crates (Sale.storage [Sale.price]) ([] ++ [Sale.subscribe "eve" "eve" "eve_v1"])) ↔
      ∀ o ∈ [Sale.subscribe "eve" "eve" "eve_v1"], ∀ c, Subscribes crates o c →
        onlyLive [⟨"child", "child_v1"⟩, ⟨"eve", "eve_v1"⟩] c
          (crates.cw.notification crates.json Sale.env.contract none) :=
  migration_commits_after_iff crates_documented (Sale.instantiated [Sale.price] (by decide)) []
    [Sale.subscribe "eve" "eve" "eve_v1"] Sale.env
    (fun o ho => List.mem_singleton.mp ho ▸ sale_thirdParty "eve" "eve_v1")
    (sale_migrationCommits _ (by decide))

/-- A stranger subscribes an address where nothing lives; from then on no migration commits. -/
theorem ghost_blocks_migration :
    MigrationCommits crates (onlyLive [⟨"child", "child_v1"⟩]) Sale.env
        (Sale.storage [Sale.price]) ∧
      ThirdParty crates (Sale.storage [Sale.price]) (Sale.subscribe "eve" "ghost" "none") ∧
      ¬ MigrationCommits crates (onlyLive [⟨"child", "child_v1"⟩]) Sale.env
        (run crates (Sale.storage [Sale.price]) [Sale.subscribe "eve" "ghost" "none"]) := by
  refine ⟨sale_migrationCommits _ (by decide), sale_thirdParty _ _, ?_⟩
  obtain ⟨s', hs', hn⟩ := run_nexts crates_documented [Sale.subscribe "eve" "ghost" "none"]
    (Sale.holds [Sale.price] (by decide))
  have hghost : (⟨Json.stringBytes "ghost", "none"⟩ : CanonicalContractInfo) ∈
      s'.registry.entries := by
    rw [← CwMigratable.subscribers_of_registry hs'.registry]
    decide +kernel
  rw [migrationCommits_iff crates_documented hs']
  intro h
  obtain ⟨a, ha, hlive⟩ := h _ hghost
  cases ha.symm.trans (humanize_ok (by decide))
  revert hlive
  simp [onlyLive]

end Dealer
end Snip721Migratable
