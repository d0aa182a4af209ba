import Snip721Migratable.Reference.Chain

/-!
# Notifications

What a migration owes to the listed subscribers, whatever lies under the key of the list: a
migration runs new code over what old code stored. The list can be absent or fail to decode, and
an entry can fail to humanize.

* `NotifiesAll` : a migration that succeeds has notified every entry of the list, and one that
  cannot read the list or an entry of it fails.
* `migration_notifies_all_iff` : a migration does so if and only if the list is `Readable`. To
  `load(..).unwrap_or_default()` a list that does not decode is an empty one.
* `run_notifies_all` : the contracts themselves store readable lists only.
* `old_list_is_dropped` : both contracts over a list in another format.
-/

namespace Snip721Migratable

/-- Whatever is stored as the list of subscribers decodes as one. -/
def CwMigratable.Readable (cw : CwMigratable) (st : Store) : Prop :=
  ∀ b, st cw.migrationCompleteEventSubscribers.key = some b →
    ∃ l, cw.subscribersCodec.decode b = some l

/-- What `migrate` owes to the subscribers that `st` lists. -/
structure NotifiesAll (X : Crates) (env : Env) (st : Store) (migrate : ContractM Response) :
    Prop where
  success : ∀ r st', migrate st = (.ok r, st') →
    (st X.cw.migrationCompleteEventSubscribers.key = none ∧ r.messages = []) ∨
    ∃ b l, st X.cw.migrationCompleteEventSubscribers.key = some b ∧
      X.cw.subscribersCodec.decode b = some l ∧ r.messages.length = l.length ∧
      ∀ (i : Nat) (c : CanonicalContractInfo), l[i]? = some c →
        ∃ address, X.api.addrHumanize c.address = .ok address ∧
          r.messages[i]? =
            some (X.cw.notify X.json .never 0 env.contract none ⟨address, c.codeHash⟩)
  undecodable : ∀ b, st X.cw.migrationCompleteEventSubscribers.key = some b →
    X.cw.subscribersCodec.decode b = none → ∃ e, (migrate st).1 = .error (.std e)
  unhumanizable : ∀ b l c, st X.cw.migrationCompleteEventSubscribers.key = some b →
    X.cw.subscribersCodec.decode b = some l → c ∈ l →
    (∀ address, X.api.addrHumanize c.address ≠ .ok address) →
    ∃ e, (migrate st).1 = .error (.std e)
  unchanged : (migrate st).2 = st

/-! ## What is read of the list -/

namespace CwMigratable

variable {cw : CwMigratable} {st : Store} {b : Binary}

theorem subscribers_absent (h : st cw.migrationCompleteEventSubscribers.key = none) :
    cw.subscribers st = [] := by
  rw [subscribers, Item.load_absent_iff.mpr h]

theorem subscribers_decoded {l : List CanonicalContractInfo}
    (h : st cw.migrationCompleteEventSubscribers.key = some b)
    (hb : cw.subscribersCodec.decode b = some l) : cw.subscribers st = l := by
  rw [subscribers, Item.load_ok_iff.mpr ⟨b, h, hb⟩]

/-- A list that does not decode is read as an empty one. -/
theorem subscribers_undecodable (h : st cw.migrationCompleteEventSubscribers.key = some b)
    (hb : cw.subscribersCodec.decode b = none) : cw.subscribers st = [] := by
  rw [subscribers, Item.load_corrupt_iff.mpr ⟨b, h, hb⟩]

theorem readable_of_load {l : List CanonicalContractInfo}
    (h : cw.migrationCompleteEventSubscribers.load st = .ok l) : cw.Readable st := by
  obtain ⟨b, hb, hl⟩ := Item.load_ok_iff.mp h
  intro b' hb'
  cases hb.symm.trans hb'
  exact ⟨l, hl⟩

theorem readable_of_registry {reg : Registry CanonicalContractInfo}
    (h : cw.registry st = some reg) : cw.Readable st := by
  intro b hb
  cases hl : cw.subscribersCodec.decode b with
  | some l => exact ⟨l, rfl⟩
  | none =>
    have hload : cw.migrationCompleteEventSubscribers.load st = .error .corrupt :=
      Item.load_corrupt_iff.mpr ⟨b, hb, hl⟩
    simp [registry, Item.mayLoad, hload] at h

end CwMigratable

/-! ## One migration -/

section

variable {X : Crates} {env : Env} {st : Store}

theorem notifySubscribers_unchanged (hcw : X.cw.Documented X.api X.json) (env : Env)
    (st : Store) : (notifySubscribers X env st).2 = st := by
  rw [notifySubscribers_run hcw]
  split <;> rfl

/-- Over an empty list a migration succeeds and tells nobody. -/
theorem notifySubscribers_nobody (hcw : X.cw.Documented X.api X.json) (env : Env)
    (h : X.cw.subscribers st = []) : notifySubscribers X env st = (.ok Response.new, st) := by
  rw [notifySubscribers_run hcw, h]
  rfl

/-- An entry that does not humanize stops the migration. -/
theorem notifySubscribers_error (hcw : X.cw.Documented X.api X.json) (env : Env)
    {c : CanonicalContractInfo} (hc : c ∈ X.cw.subscribers st)
    (hhum : ∀ address, X.api.addrHumanize c.address ≠ .ok address) :
    ∃ e, (notifySubscribers X env st).1 = .error (.std e) := by
  have hnot : ∀ i, X.cw.intoHumanized c ≠ .ok i := by
    intro i hi
    rw [hcw.intoHumanized] at hi
    cases ha : X.api.addrHumanize c.address with
    | ok address => exact hhum address ha
    | error e => rw [ha] at hi; cases hi
  obtain ⟨e, he⟩ := collect_map_error hc hnot
  refine ⟨e, ?_⟩
  rw [notifySubscribers_run hcw, he]

theorem notifiesAll_of_readable (hcw : X.cw.Documented X.api X.json) (env : Env)
    (h : X.cw.Readable st) : NotifiesAll X env st (notifySubscribers X env) where
  success := by
    intro r st' hm
    obtain ⟨_, cs, hcs, hr⟩ := (notifySubscribers_ok hcw).mp hm
    cases hb : st X.cw.migrationCompleteEventSubscribers.key with
    | none =>
      rw [CwMigratable.subscribers_absent hb] at hcs
      cases hcs
      exact .inl ⟨rfl, hr⟩
    | some b =>
      obtain ⟨l, hl⟩ := h b hb
      have hlist := CwMigratable.subscribers_decoded hb hl
      rw [hlist] at hcs
      refine .inr ⟨b, l, rfl, hl, ?_, ?_⟩
      · rw [hr, List.length_map, hcs.length_eq]
      · intro i c hc
        exact notified hcw hm (by rw [hlist]; exact hc)
  undecodable := by
    intro b hb hnone
    obtain ⟨l, hl⟩ := h b hb
    rw [hl] at hnone
    cases hnone
  unhumanizable := by
    intro b l c hb hl hc hhum
    refine notifySubscribers_error hcw env ?_ hhum
    rw [CwMigratable.subscribers_decoded hb hl]
    exact hc
  unchanged := notifySubscribers_unchanged hcw env st

theorem notifiesAll_iff (hcw : X.cw.Documented X.api X.json) (env : Env) :
    NotifiesAll X env st (notifySubscribers X env) ↔ X.cw.Readable st := by
  constructor
  · intro h b hb
    cases hl : X.cw.subscribersCodec.decode b with
    | some l => exact ⟨l, rfl⟩
    | none =>
      obtain ⟨e, he⟩ := h.undecodable b hb hl
      rw [notifySubscribers_nobody hcw env (CwMigratable.subscribers_undecodable hb hl)] at he
      cases he
  · exact notifiesAll_of_readable hcw env

/-- Whatever lies in storage, a migration of either contract notifies every subscriber or fails
if and only if the list of subscribers is absent or decodes. -/
theorem migration_notifies_all_iff (hX : X.Documented) (env : Env) (st : Store) :
    (NotifiesAll X env st (Dealer.migrate X env) ↔ X.cw.Readable st) ∧
      (NotifiesAll X env st (Migratable.migrate X env) ↔ X.cw.Readable st) :=
  ⟨notifiesAll_iff hX.cw env, notifiesAll_iff hX.cw env⟩

/-! ## Runs -/

/-- In every run of either contract, every migration notifies all subscribers. -/
theorem run_notifies_all (hX : X.Documented) :
    (∀ env info msg replyEnv rep st, Dealer.Instantiated X env info msg replyEnv rep st →
      ∀ ops migrateEnv, NotifiesAll X migrateEnv (Dealer.run X st ops)
        (Dealer.migrate X migrateEnv)) ∧
    (∀ env info msg st, Migratable.Instantiated X env info msg st →
      ∀ ops migrateEnv, NotifiesAll X migrateEnv (Migratable.run X st ops)
        (Migratable.migrate X migrateEnv)) := by
  constructor
  · intro env info msg replyEnv rep st h ops migrateEnv
    obtain ⟨s, hs, _⟩ := h.holds hX
    obtain ⟨s', hs', _⟩ := Dealer.run_nexts hX ops hs
    exact notifiesAll_of_readable hX.cw migrateEnv
      (CwMigratable.readable_of_registry hs'.registry)
  · intro env info msg st h ops migrateEnv
    obtain ⟨reg, hreg⟩ := Migratable.Instantiated.run_registry hX h ops
    exact notifiesAll_of_readable hX.cw migrateEnv (CwMigratable.readable_of_registry hreg)

end

/-! ## A dealer and its child -/

section

open Reference Reference.Chain

theorem migration_notifies_all_iff_chain :
    NotifiesAll crates (deployment.env ⟨"dealer", "dealer_v2"⟩) world.dealer
        (Dealer.migrate crates (deployment.env ⟨"dealer", "dealer_v2"⟩)) ∧
      NotifiesAll crates (deployment.env ⟨"child", "child_v2"⟩) world.child
        (Migratable.migrate crates (deployment.env ⟨"child", "child_v2"⟩)) := by
  have hdealer : crates.cw.Readable world.dealer :=
    CwMigratable.readable_of_load (l := [⟨Json.stringBytes "child", "child_v1"⟩]) (by decide +kernel)
  have hchild : crates.cw.Readable world.child :=
    CwMigratable.readable_of_load (l := [⟨Json.stringBytes "dealer", "dealer_v1"⟩])
      (by decide +kernel)
  exact ⟨(migration_notifies_all_iff crates_documented _ _).1.mpr hdealer,
    (migration_notifies_all_iff crates_documented _ _).2.mpr hchild⟩

/-- A list of subscribers that were stored without their code hashes. -/
def addressList : Item (List CanonicalAddr) where
  key := crates.cw.migrationCompleteEventSubscribers.key
  typeName := "alloc::vec::Vec<cosmwasm_std::addresses::CanonicalAddr>"
  codec := jsonBytes.codec JsonCodec.bytes.list

/-- The dealer and the child after their deployment, but with such lists. -/
def oldDealer : Store := addressList.save [Json.stringBytes "child"] world.dealer

def oldChild : Store := addressList.save [Json.stringBytes "dealer"] world.child

theorem addressList_save (l : List CanonicalAddr) (st : Store) :
    addressList.save l st crates.cw.migrationCompleteEventSubscribers.key =
      some (addressList.codec.encode l) := by
  simp [Item.save, addressList]

/-- A migration over such a list is one over an empty list. -/
theorem addressList_dropped {l : List CanonicalAddr}
    (hl : crates.cw.subscribersCodec.decode (addressList.codec.encode l) = none) (env : Env)
    (st : Store) :
    notifySubscribers crates env (addressList.save l st) =
        (.ok Response.new, addressList.save l st) ∧
      ¬ NotifiesAll crates env (addressList.save l st) (notifySubscribers crates env) := by
  constructor
  · exact notifySubscribers_nobody cw_documented env
      (CwMigratable.subscribers_undecodable (addressList_save l st) hl)
  · intro h
    obtain ⟨l', hl'⟩ := (notifiesAll_iff cw_documented env).mp h _ (addressList_save l st)
    rw [hl] at hl'
    cases hl'

/-- The new code of either contract finds a list in the old format. The migrations succeed and
notify nobody. -/
theorem old_list_is_dropped :
    (Dealer.migrate crates (deployment.env ⟨"dealer", "dealer_v2"⟩) oldDealer =
        (.ok Response.new, oldDealer) ∧
      ¬ NotifiesAll crates (deployment.env ⟨"dealer", "dealer_v2"⟩) oldDealer
        (Dealer.migrate crates (deployment.env ⟨"dealer", "dealer_v2"⟩))) ∧
    (Migratable.migrate crates (deployment.env ⟨"child", "child_v2"⟩) oldChild =
        (.ok Response.new, oldChild) ∧
      ¬ NotifiesAll crates (deployment.env ⟨"child", "child_v2"⟩) oldChild
        (Migratable.migrate crates (deployment.env ⟨"child", "child_v2"⟩))) :=
  ⟨addressList_dropped (by decide +kernel) _ _, addressList_dropped (by decide +kernel) _ _⟩

end

end Snip721Migratable
