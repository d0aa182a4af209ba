import Snip721Migratable.Migratable.Spec
import Snip721Migratable.Reference.Sale

/-!
# Migratable.Minters

Who may mint, and what a notification does about it. A contract that announces a new place is
renamed in the list of subscribers, which belongs to the migration crate. The minters belong to
the base contract, and `update_migrated_dependency` does not pass the announcement on to it. Nor
does the renaming reach every entry: the crate stops at the first one of the sender.

* `RightFollows` : the minting right of a contract has moved along with it, and its subscriptions.
* `run_minters` : only messages of the base contract change who may mint.
* `minting_right_follows_iff` : after a notification the right is where its sender is now if and
  only if the sender has kept its address; the subscriptions are if there is nothing to rename
  behind the first of them.
* `moved_minter_is_left_behind` : a dealer that moves to another address.
-/

namespace Snip721Migratable
namespace Migratable

open Registry

section

variable (X : Crates)

/-- The contract at `sender` is at `raw` now: its minting right is found there, and nobody else's
right has changed. -/
structure MintersFollow (sender raw : CanonicalAddr) (st st' : Store) : Prop where
  gained : raw ∈ X.impl.minters st'
  lost : raw ≠ sender → sender ∉ X.impl.minters st'
  others : ∀ a, a ≠ sender → a ≠ raw → (a ∈ X.impl.minters st' ↔ a ∈ X.impl.minters st)

/-- So are its subscriptions. -/
structure RightFollows (sender : CanonicalAddr) (migratedTo : CanonicalContractInfo)
    (st st' : Store) : Prop extends MintersFollow X sender migratedTo.address st st' where
  subscribed : ∀ (i : Nat) (c : CanonicalContractInfo), (X.cw.subscribers st)[i]? = some c →
    c.address = sender → (X.cw.subscribers st')[i]? = some migratedTo

/-- The call goes to the base contract. -/
def Op.IsBase : Op → Prop
  | .execute _ _ (.base _) => True
  | _ => False

end

variable {X : Crates} {st st' : Store} {reg : Registry CanonicalContractInfo} {info : MessageInfo}
  {r : Response}

/-! ## Who may mint -/

theorem call_minters (hX : X.Documented) (hreg : X.cw.registry st = some reg) {o : Op}
    (ho : ¬ o.IsBase) (h : o.call X st = (.ok r, st')) :
    X.impl.minters st' = X.impl.minters st := by
  cases o with
  | migrate env =>
    obtain ⟨rfl, _⟩ := (migrate_ok hX.cw hreg).mp h
    rfl
  | execute env info msg =>
    rcases execute_cases hX hreg env h with ⟨baseMsg, rfl, _⟩ |
      ⟨_, _, _, _, _, _, _, _, _, _, hoff⟩ | ⟨_, _, _, _, _, _, _, _, _, _, _, hoff⟩
    · exact (ho trivial).elim
    · exact (hX.impl.own_state hoff).2
    · exact (hX.impl.own_state hoff).2

theorem step_minters (hX : X.Documented) (hreg : X.cw.registry st = some reg) {o : Op}
    (ho : ¬ o.IsBase) : X.impl.minters (step X st o) = X.impl.minters st := by
  rcases Prog.outcome (o.call X) st with ⟨r, st', h⟩ | ⟨e, st', h⟩
  · rw [step, Prog.commit_of_ok h]
    exact call_minters hX hreg ho h
  · rw [step, Prog.commit_of_error h]

/-- However long the contracts notify each other, the same addresses may mint. -/
theorem run_minters (hX : X.Documented) (hreg : X.cw.registry st = some reg) (ops : List Op)
    (hops : ∀ o ∈ ops, ¬ o.IsBase) : X.impl.minters (run X st ops) = X.impl.minters st := by
  induction ops generalizing st reg with
  | nil => rfl
  | cons o ops ih =>
    obtain ⟨reg', hreg', _⟩ := step_next hX hreg o
    have hstep : X.impl.minters (step X st o) = X.impl.minters st :=
      step_minters hX hreg (hops o (.head _))
    exact (ih hreg' fun o' ho' => hops o' (.tail _ ho')).trans hstep

/-! ## A notification -/

/-- What an accepted notification does to the two lists. -/
theorem notification_lists (hX : X.Documented) (hreg : X.cw.registry st = some reg) {env : Env}
    {migratedTo : ContractInfo} {data : Option Binary} {sender : CanonicalAddr}
    (hsender : X.api.addrCanonicalize info.sender = .ok sender)
    (h : execute X env info (.migrateListener (.migrationCompleteNotification migratedTo data)) st =
      (.ok r, st')) :
    X.impl.minters st' = X.impl.minters st ∧ ∃ raw,
      X.api.addrCanonicalize migratedTo.address = .ok raw ∧
      X.cw.Updated sender ⟨raw, migratedTo.codeHash⟩ (X.cw.subscribers st)
        (X.cw.subscribers st') := by
  obtain ⟨_, hoff, sender', raw, l', hsender', hto, hup, hreg'⟩ :=
    updateMigratedDependency_ok hX.cw hreg h
  cases hsender.symm.trans hsender'
  refine ⟨(hX.impl.own_state hoff).2, raw, hto, ?_⟩
  rw [CwMigratable.subscribers_of_registry hreg', CwMigratable.subscribers_of_registry hreg]
  exact hup

theorem mintersFollow_iff {sender raw : CanonicalAddr} (hminter : sender ∈ X.impl.minters st)
    (hminters : X.impl.minters st' = X.impl.minters st) :
    MintersFollow X sender raw st st' ↔ raw = sender := by
  constructor
  · intro h
    by_contra hne
    have hlost := h.lost hne
    rw [hminters] at hlost
    exact hlost hminter
  · rintro rfl
    refine ⟨?_, ?_, ?_⟩
    · rw [hminters]
      exact hminter
    · intro hne
      exact (hne rfl).elim
    · intro a _ _
      rw [hminters]

theorem rightFollows_iff {sender : CanonicalAddr} {migratedTo : CanonicalContractInfo}
    (hminter : sender ∈ X.impl.minters st) (hminters : X.impl.minters st' = X.impl.minters st)
    (hsubs : X.cw.subscribers st' =
      renameFirst CanonicalContractInfo.address sender migratedTo (X.cw.subscribers st)) :
    RightFollows X sender migratedTo st st' ↔ migratedTo.address = sender ∧
      (X.cw.subscribers st).Pairwise fun c c' =>
        c.address = sender → c'.address = sender → c' = migratedTo := by
  rw [← mintersFollow_iff hminter hminters, ← renameFirst_forall_iff, ← hsubs]
  constructor
  · intro h
    exact ⟨h.toMintersFollow, h.subscribed⟩
  · rintro ⟨hminters, hsubscribed⟩
    exact ⟨hminters, hsubscribed⟩

/-- In every reachable state, the minting right of a contract follows a notification that it sends
if and only if the notification names the address the contract already has. With an update that
stops at the first entry, its subscriptions follow as well if and only if every entry that it has
behind the first is already what the notification says. -/
theorem minting_right_follows_iff (hX : X.Documented) {env callEnv : Env}
    {instantiator : MessageInfo} {msg : InstantiateMsg}
    (hinst : Instantiated X env instantiator msg st) (ops : List Op) {migratedTo : ContractInfo}
    {data : Option Binary} {sender : CanonicalAddr}
    (hsender : X.api.addrCanonicalize info.sender = .ok sender)
    (hminter : sender ∈ X.impl.minters (run X st ops))
    (hcall : execute X callEnv info
      (.migrateListener (.migrationCompleteNotification migratedTo data)) (run X st ops) =
        (.ok r, st')) :
    ∃ raw, X.api.addrCanonicalize migratedTo.address = .ok raw ∧
      (MintersFollow X sender raw (run X st ops) st' ↔ raw = sender) ∧
      (X.cw.RenamesFirst →
        (RightFollows X sender ⟨raw, migratedTo.codeHash⟩ (run X st ops) st' ↔ raw = sender ∧
          (X.cw.subscribers (run X st ops)).Pairwise fun c c' =>
            c.address = sender → c'.address = sender → c' = ⟨raw, migratedTo.codeHash⟩)) := by
  obtain ⟨reg, hreg⟩ := hinst.run_registry hX ops
  obtain ⟨hminters, raw, hto, hup⟩ := notification_lists hX hreg hsender hcall
  exact ⟨raw, hto, mintersFollow_iff hminter hminters, fun hfirst =>
    rightFollows_iff hminter hminters (hup.eq_renameFirst hfirst)⟩

/-! ## A dealer that moves -/

section

open Reference

def tokenEnv : Env := { Sale.env with contract := ⟨"child", "child_v1"⟩ }

def dealer : MessageInfo := { sender := "dealer", funds := [] }

/-- The message with which the dealer instantiates its child. -/
def tokenMsg : InstantiateMsg where
  instantiate := (Dealer.childInstantiateMsg Sale.env (Sale.msg [Sale.price])).instantiate
  maxMigrationCompleteEventSubscribers := 1

def token : Store := (instantiate crates tokenEnv dealer tokenMsg Store.empty).2

theorem token_instantiated : Instantiated crates tokenEnv dealer tokenMsg token :=
  ⟨Response.new, Prod.ext (by decide +kernel) rfl⟩

/-- The dealer takes the only slot. -/
def subscription : Op :=
  .execute tokenEnv dealer (.migrate (.subscribeToMigrationCompleteEvent "dealer" "dealer_v1"))

def announcement (migratedTo : ContractInfo) : ExecuteMsg :=
  .migrateListener (.migrationCompleteNotification migratedTo none)

theorem dealer_mints :
    Json.stringBytes "dealer" ∈ crates.impl.minters (run crates token [subscription]) := by
  decide +kernel

theorem dealer_listed :
    crates.cw.subscribers (run crates token [subscription]) =
      [⟨Json.stringBytes "dealer", "dealer_v1"⟩] := by
  decide +kernel

theorem announcement_accepted {a : Addr} (codeHash : String)
    (ha : 3 ≤ (Json.stringBytes a).length) :
    ∃ st', execute crates tokenEnv dealer (announcement ⟨a, codeHash⟩)
      (run crates token [subscription]) = (.ok Response.new, st') := by
  obtain ⟨reg, hreg⟩ := token_instantiated.run_registry crates_documented [subscription]
  have hsender : crates.api.addrCanonicalize dealer.sender = .ok (Json.stringBytes "dealer") :=
    canonicalize_ok (by decide)
  have hto : crates.api.addrCanonicalize a = .ok (Json.stringBytes a) := canonicalize_ok ha
  exact updateMigratedDependency_accepts cw_documented hreg hsender hto

/-- The dealer is migrated and keeps its address. -/
theorem minting_right_follows_iff_token :
    ∃ st', execute crates tokenEnv dealer (announcement ⟨"dealer", "dealer_v2"⟩)
        (run crates token [subscription]) = (.ok Response.new, st') ∧
      RightFollows crates (Json.stringBytes "dealer") ⟨Json.stringBytes "dealer", "dealer_v2"⟩
        (run crates token [subscription]) st' := by
  obtain ⟨st', hcall⟩ := announcement_accepted "dealer_v2" (a := "dealer") (by decide)
  obtain ⟨raw, hto, _, hiff⟩ := minting_right_follows_iff crates_documented token_instantiated
    [subscription] (canonicalize_ok (by decide)) dealer_mints hcall
  cases hto.symm.trans (canonicalize_ok (by decide))
  refine ⟨st', hcall, (hiff renamesFirst).mpr ⟨rfl, ?_⟩⟩
  rw [dealer_listed]
  exact List.pairwise_singleton _ _

/-- The dealer is the only subscriber, and a minter. It announces another address: the snip721
accepts that, and its list of subscribers follows, but the right to mint stays where it was. -/
theorem moved_minter_is_left_behind :
    Instantiated crates tokenEnv dealer tokenMsg token ∧
    crates.cw.subscribers (run crates token [subscription]) =
      [⟨Json.stringBytes "dealer", "dealer_v1"⟩] ∧
    Json.stringBytes "dealer" ∈ crates.impl.minters (run crates token [subscription]) ∧
    ∃ st', execute crates tokenEnv dealer (announcement ⟨"dealer2", "dealer_v2"⟩)
        (run crates token [subscription]) = (.ok Response.new, st') ∧
      crates.cw.subscribers st' = [⟨Json.stringBytes "dealer2", "dealer_v2"⟩] ∧
      Json.stringBytes "dealer2" ∉ crates.impl.minters st' ∧
      Json.stringBytes "dealer" ∈ crates.impl.minters st' ∧
      ¬ RightFollows crates (Json.stringBytes "dealer") ⟨Json.stringBytes "dealer2", "dealer_v2"⟩
        (run crates token [subscription]) st' := by
  obtain ⟨reg, hreg⟩ := token_instantiated.run_registry crates_documented [subscription]
  obtain ⟨st', hcall⟩ := announcement_accepted "dealer_v2" (a := "dealer2") (by decide)
  obtain ⟨hminters, raw, hto, hup⟩ := notification_lists crates_documented hreg
    (canonicalize_ok (by decide)) hcall
  cases hto.symm.trans (canonicalize_ok (by decide))
  have hnew : Json.stringBytes "dealer2" ∉ crates.impl.minters st' := by
    rw [hminters]
    decide +kernel
  refine ⟨token_instantiated, dealer_listed, dealer_mints, st', hcall, ?_, hnew, ?_, ?_⟩
  · rw [hup.eq_renameFirst renamesFirst, dealer_listed]
    simp [renameFirst, dealer]
  · rw [hminters]
    exact dealer_mints
  · intro h
    exact hnew h.gained

end

end Migratable
end Snip721Migratable
