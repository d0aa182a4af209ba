import Snip721Migratable.Dealer.Blocking
import Snip721Migratable.Migratable.Spec

/-!
# Subscribers

The lists of subscribers of the two contracts over whole runs. Each entry has a history of its own:
it stays at its position, and only the contract it names can change it, by announcing where it is
now. The dealer listens to its child only.

An announcement is sure to reach the first entry of its sender. Whether it also reaches the others
is up to the migration crate, so what an entry holds after a run is stated twice: for an update that
reaches every entry, and for any update as long as no earlier entry has the same address.

* `announcedBy` : the announcement that a call accepted.
* `Change` : what one call may do to a list, given the announcement it accepted.
* `Histories` : what holds of the list of a contract in every run from a given storage.
* `Histories.of_changes` : it holds when every step is a `Change`.
* `subscribers_never_lost_or_hijacked` : both contracts keep the histories of their subscribers.
-/

namespace Snip721Migratable

open Registry Reference

/-! ## Announcements -/

/-- An announcement: who made it, and what it says. -/
abbrev Announcement := CanonicalAddr × CanonicalContractInfo

/-- The announcement in a notification, if the call that delivered it was accepted. -/
def announcement? (X : Crates) (sender : Addr) (migratedTo : ContractInfo) :
    Except Fault Response → Option Announcement
  | .error _ => none
  | .ok _ =>
    match X.api.addrCanonicalize sender, X.cw.canonicalize migratedTo with
    | .ok k, .ok e => some (k, e)
    | _, _ => none

/-- The announcement that a call accepts, if it is a notification. -/
def announcedBy {ω : Type} (X : Crates) (call : ω → ContractM Response)
    (notification? : ω → Option (Addr × ContractInfo)) (st : Store) (o : ω) : Option Announcement :=
  match notification? o with
  | some (sender, migratedTo) => announcement? X sender migratedTo (call o st).1
  | none => none

def Migratable.Op.announcement? : Migratable.Op → Option (Addr × ContractInfo)
  | .execute _ info (.migrateListener (.migrationCompleteNotification migratedTo _)) =>
    some (info.sender, migratedTo)
  | _ => none

def Dealer.announced (X : Crates) : Store → Dealer.Op → Option Announcement :=
  announcedBy X (Dealer.Op.call X) Dealer.Op.announcement?

def Migratable.announced (X : Crates) : Store → Migratable.Op → Option Announcement :=
  announcedBy X (Migratable.Op.call X) Migratable.Op.announcement?

section

variable {ω : Type} {X : Crates} {call : ω → ContractM Response}
  {notification? : ω → Option (Addr × ContractInfo)} {st st' : Store} {o : ω}

theorem announcedBy_of_error {e : Fault} (h : call o st = (.error e, st')) :
    announcedBy X call notification? st o = none := by
  unfold announcedBy
  split
  · rw [h]; rfl
  · rfl

theorem announcedBy_of_ok (hX : X.Documented) {sender : Addr} {migratedTo : ContractInfo}
    {k raw : CanonicalAddr} {r : Response} (hn : notification? o = some (sender, migratedTo))
    (h : call o st = (.ok r, st')) (hs : X.api.addrCanonicalize sender = .ok k)
    (ht : X.api.addrCanonicalize migratedTo.address = .ok raw) :
    announcedBy X call notification? st o = some (k, ⟨raw, migratedTo.codeHash⟩) := by
  simp [announcedBy, hn, h, announcement?, hX.cw.canonicalize, hs, ht, Except.map]

/-- Only accepted notifications announce something. -/
theorem announcedBy_eq_some {k : CanonicalAddr} {e : CanonicalContractInfo}
    (h : announcedBy X call notification? st o = some (k, e)) :
    ∃ sender migratedTo r, notification? o = some (sender, migratedTo) ∧
      call o st = (.ok r, (call o st).2) ∧ X.api.addrCanonicalize sender = .ok k := by
  unfold announcedBy at h
  split at h
  · rename_i sender migratedTo hn
    unfold announcement? at h
    split at h
    · cases h
    · rename_i r hr
      split at h
      · rename_i k' e' hk _
        cases h
        exact ⟨sender, migratedTo, r, hn, Prod.ext hr rfl, hk⟩
      · cases h
  · cases h

end

/-- What an announcement makes of an entry: the entry of its sender becomes what it says. -/
def renameBy : Option Announcement → CanonicalContractInfo → CanonicalContractInfo
  | some (k, e'), e => if e.address = k then e' else e
  | none, e => e

/-! ## Changes -/

inductive Change (X : Crates) : Option Announcement → List CanonicalContractInfo →
    List CanonicalContractInfo → Prop where
  | grow {l l' : List CanonicalContractInfo} : Keeps (· = ·) l l' → Change X none l l'
  | rename {k : CanonicalAddr} {e : CanonicalContractInfo} {l l' : List CanonicalContractInfo} :
      X.cw.Updated k e l l' → Change X (some (k, e)) l l'

namespace Change

variable {X : Crates} {a : Option Announcement} {l l' : List CanonicalContractInfo}

theorem same (l : List CanonicalContractInfo) : Change X none l l :=
  .grow (.refl (fun _ => rfl) l)

theorem add {reg reg' : Registry CanonicalContractInfo} {e : CanonicalContractInfo}
    (h : reg.add e = some reg') : Change X none reg.entries reg'.entries := by
  rw [add_entries h]
  exact .grow (keeps_insertNew (fun _ => rfl) _ _)

theorem of_registry {st st' : Store} {reg reg' : Registry CanonicalContractInfo}
    (hreg : X.cw.registry st = some reg) (hreg' : X.cw.registry st' = some reg')
    (h : Change X a reg.entries reg'.entries) :
    Change X a (X.cw.subscribers st) (X.cw.subscribers st') := by
  rw [CwMigratable.subscribers_of_registry hreg, CwMigratable.subscribers_of_registry hreg']
  exact h

/-- An accepted notification. -/
theorem heard {ω : Type} (hX : X.Documented) {call : ω → ContractM Response}
    {notification? : ω → Option (Addr × ContractInfo)} {st st' : Store} {o : ω}
    {reg reg' : Registry CanonicalContractInfo} {sender : Addr} {migratedTo : ContractInfo}
    {k raw : CanonicalAddr} {r : Response} (hn : notification? o = some (sender, migratedTo))
    (h : call o st = (.ok r, st')) (hs : X.api.addrCanonicalize sender = .ok k)
    (ht : X.api.addrCanonicalize migratedTo.address = .ok raw)
    (hreg : X.cw.registry st = some reg) (hreg' : X.cw.registry st' = some reg')
    (hup : X.cw.Updated k ⟨raw, migratedTo.codeHash⟩ reg.entries reg'.entries) :
    Change X (announcedBy X call notification? st o) (X.cw.subscribers st)
      (X.cw.subscribers st') := by
  rw [announcedBy_of_ok hX hn h hs ht]
  exact .of_registry hreg hreg' (.rename hup)

/-- A call that fails announces nothing and changes nothing. -/
theorem of_call {ω : Type} {call : ω → ContractM Response}
    {notification? : ω → Option (Addr × ContractInfo)} {st : Store} {o : ω}
    (hok : ∀ r st', call o st = (.ok r, st') →
      Change X (announcedBy X call notification? st o) (X.cw.subscribers st)
        (X.cw.subscribers st')) :
    Change X (announcedBy X call notification? st o) (X.cw.subscribers st)
      (X.cw.subscribers ((call o).commit st)) := by
  rcases Prog.outcome (call o) st with ⟨r, st', h⟩ | ⟨e, st', h⟩
  · rw [Prog.commit_of_ok h]
    exact hok r st' h
  · rw [Prog.commit_of_error h, announcedBy_of_error h]
    exact .same _

theorem authority (hX : X.Documented) (h : Change X a l l') :
    Keeps (fun e e' => e' = e ∨ a = some (e.address, e')) l l' := by
  cases h with
  | grow h => exact h.mono fun e e' he => .inl he.symm
  | rename h =>
    refine (h.renamed hX.cw).keeps.mono ?_
    rintro e e' (rfl | ⟨rfl, rfl⟩)
    · exact .inl rfl
    · exact .inr rfl

theorem getElem? (hX : X.Documented) (h : Change X a l l') {i : Nat} {e : CanonicalContractInfo}
    (hreach : X.cw.RenamesAll ∨ FirstOfOwner CanonicalContractInfo.address i l)
    (he : l[i]? = some e) : l'[i]? = some (renameBy a e) := by
  cases h with
  | grow h =>
    obtain ⟨e', he', rfl⟩ := h i e he
    exact he'
  | rename h =>
    rcases hreach with hall | hfirst
    · rw [h.eq_renameAll hall]
      exact getElem?_renameAll _ he
    · exact (h.renamed hX.cw).getElem?_first hfirst he

end Change

/-! ## Histories -/

section

variable {ω : Type} (X : Crates) (step : Store → ω → Store)
  (announced : Store → ω → Option Announcement)

/-- What `later` makes of the entry `e` at position `i`: it holds the last announcement of the
contract it names, and the next migration notifies that contract there. -/
def HoldsLatest (migrate : Env → ContractM Response) (st : Store) (later : List ω) (i : Nat)
    (e : CanonicalContractInfo) : Prop :=
  ∃ e', e' = follow step (fun st o => renameBy (announced st o)) st later e ∧
    (X.cw.subscribers (later.foldl step st))[i]? = some e' ∧
    ∀ (env : Env) (r : Response) (st' : Store), migrate env (later.foldl step st) = (.ok r, st') →
      ∃ address, X.api.addrHumanize e'.address = .ok address ∧
        r.messages[i]? =
          some (X.cw.notify X.json .never 0 env.contract none ⟨address, e'.codeHash⟩)

/-- The histories of the subscribers of one contract. `listens` says whom it listens to. -/
structure Histories (listens : Store → CanonicalAddr → Prop) (migrate : Env → ContractM Response)
    (st : Store) : Prop where
  /-- An entry stays at its position, and changes only to what the contract it names announces. -/
  authority : ∀ (ops : List ω) (o : ω) (i : Nat) (e : CanonicalContractInfo),
    (X.cw.subscribers (ops.foldl step st))[i]? = some e →
    ∃ e', (X.cw.subscribers (step (ops.foldl step st) o))[i]? = some e' ∧
      (e' = e ∨ (announced (ops.foldl step st) o = some (e.address, e') ∧
        listens (ops.foldl step st) e.address))
  /-- If updates reach every entry of their sender, every entry is up to date. -/
  latest : X.cw.RenamesAll → ∀ (ops later : List ω) (i : Nat) (e : CanonicalContractInfo),
    (X.cw.subscribers (ops.foldl step st))[i]? = some e →
    HoldsLatest X step announced migrate (ops.foldl step st) later i e
  /-- Whatever updates reach, an entry is up to date if no earlier entry has its address along the
  way. -/
  latest_first : ∀ (ops later : List ω) (i : Nat) (e : CanonicalContractInfo),
    (X.cw.subscribers (ops.foldl step st))[i]? = some e →
    Along step (fun st => FirstOfOwner CanonicalContractInfo.address i (X.cw.subscribers st))
      (ops.foldl step st) later →
    HoldsLatest X step announced migrate (ops.foldl step st) later i e

variable {X step announced}

theorem holdsLatest_of_changes (hX : X.Documented) {migrate : Env → ContractM Response}
    {inv : Store → Prop} (hinv : ∀ st o, inv st → inv (step st o))
    (hchange : ∀ st o, inv st →
      Change X (announced st o) (X.cw.subscribers st) (X.cw.subscribers (step st o)))
    (hmigrate : ∀ env, migrate env = notifySubscribers X env) {st : Store} (hst : inv st)
    {later : List ω} {i : Nat} {e : CanonicalContractInfo}
    (he : (X.cw.subscribers st)[i]? = some e)
    (hreach : Along step (fun st => X.cw.RenamesAll ∨
      FirstOfOwner CanonicalContractInfo.address i (X.cw.subscribers st)) st later) :
    HoldsLatest X step announced migrate st later i e := by
  have hget := getElem?_run step (fun st o => renameBy (announced st o)) X.cw.subscribers hinv
    (fun st o e hst hreach he => (hchange st o hst).getElem? hX hreach he) later st e hst hreach he
  refine ⟨_, rfl, hget, ?_⟩
  intro env r st' hm
  rw [hmigrate] at hm
  exact notified hX.cw hm hget

theorem Histories.of_changes (hX : X.Documented) {listens : Store → CanonicalAddr → Prop}
    {migrate : Env → ContractM Response} (inv : Store → Prop)
    (hinv : ∀ st o, inv st → inv (step st o))
    (hchange : ∀ st o, inv st →
      Change X (announced st o) (X.cw.subscribers st) (X.cw.subscribers (step st o)))
    (hlistens : ∀ st o k e, inv st → announced st o = some (k, e) → listens st k)
    (hmigrate : ∀ env, migrate env = notifySubscribers X env) {st : Store} (hst : inv st) :
    Histories X step announced listens migrate st where
  authority ops o i e he := by
    have hs := List.foldlRecOn ops step hst fun st hst o _ => hinv st o hst
    obtain ⟨e', he', h⟩ := (hchange _ o hs).authority hX i e he
    refine ⟨e', he', h.imp id fun ha => ⟨ha, hlistens _ o _ _ hs ha⟩⟩
  latest hall ops later i e he := by
    have hs := List.foldlRecOn ops step hst fun st hst o _ => hinv st o hst
    exact holdsLatest_of_changes hX hinv hchange hmigrate hs he
      (along_of_forall step (fun _ => .inl hall) _ _)
  latest_first ops later i e he hfirst := by
    have hs := List.foldlRecOn ops step hst fun st hst o _ => hinv st o hst
    exact holdsLatest_of_changes hX hinv hchange hmigrate hs he (hfirst.mono fun _ h => .inr h)

end

/-! ## The dealer -/

namespace Dealer

variable {X : Crates} {st : Store} {s : State}

theorem change (hX : X.Documented) (hs : Holds X st s) (o : Op) :
    Change X (announced X st o) (X.cw.subscribers st) (X.cw.subscribers (step X st o)) := by
  refine .of_call fun r st' h => ?_
  cases o with
  | migrate env =>
    obtain ⟨rfl, _⟩ := (migrate_ok hX.cw hs).mp h
    exact .same _
  | execute env info msg =>
    rcases execute_cases hX.cw hs env h with ⟨rfl, rfl, _⟩ |
      ⟨address, codeHash, valid, raw, reg', rfl, _, _, _, hadd, hs'⟩ |
      ⟨migratedTo, data, raw, l', rfl, _, hsender, hto, hup, hs'⟩
    · exact .same _
    · exact .of_registry hs.registry hs'.registry (.add hadd)
    · exact .heard hX rfl h hsender hto hs.registry hs'.registry hup

/-- The dealer hears its child only. -/
theorem announced_child (hX : X.Documented) (hs : Holds X st s) {o : Op} {k : CanonicalAddr}
    {e : CanonicalContractInfo} (h : announced X st o = some (k, e)) :
    X.items.childSnip721Address.load st = .ok k := by
  obtain ⟨sender, migratedTo, r, hn, hcall, hk⟩ := announcedBy_eq_some h
  unfold Op.announcement? at hn
  split at hn
  · rename_i env info _ data
    cases hn
    have hheard := (notification_ok_iff hX hs env data).mp ⟨r, _, hcall⟩
    cases hk.symm.trans hheard.1
    exact hs.childAddress
  · cases hn

theorem histories (hX : X.Documented) {env replyEnv : Env} {info : MessageInfo}
    {msg : InstantiateMsg} {rep : Reply} (h : Instantiated X env info msg replyEnv rep st) :
    Histories X (step X) (announced X) (fun st k => X.items.childSnip721Address.load st = .ok k)
      (migrate X) st := by
  obtain ⟨s, hs, _⟩ := h.holds hX
  refine .of_changes hX (fun st => ∃ s, Holds X st s) ?_ ?_ ?_ (fun _ => rfl) ⟨s, hs⟩
  · intro st o hinv
    obtain ⟨s, hs⟩ := hinv
    obtain ⟨s', hs', _⟩ := step_next hX hs o
    exact ⟨s', hs'⟩
  · intro st o hinv
    obtain ⟨s, hs⟩ := hinv
    exact change hX hs o
  · rintro st o k e ⟨s, hs⟩ ha
    exact announced_child hX hs ha

end Dealer

/-! ## The migratable snip721 -/

namespace Migratable

variable {X : Crates} {st : Store} {reg : Registry CanonicalContractInfo}

theorem change (hX : X.Documented) (hreg : X.cw.registry st = some reg) (o : Op) :
    Change X (announced X st o) (X.cw.subscribers st) (X.cw.subscribers (step X st o)) := by
  refine .of_call fun r st' h => ?_
  cases o with
  | migrate env =>
    obtain ⟨rfl, _⟩ := (migrate_ok hX.cw hreg).mp h
    exact .same _
  | execute env info msg =>
    rcases execute_cases hX hreg env h with ⟨baseMsg, rfl, _, hreg'⟩ |
      ⟨address, codeHash, raw, reg', rfl, _, _, _, hadd, hreg', _⟩ |
      ⟨migratedTo, data, sender, raw, l', rfl, _, hsender, hto, hup, hreg', _⟩
    · exact .of_registry hreg hreg' (.same _)
    · exact .of_registry hreg hreg' (.add hadd)
    · exact .heard hX rfl h hsender hto hreg hreg' hup

theorem histories (hX : X.Documented) {env : Env} {info : MessageInfo} {msg : InstantiateMsg}
    (h : Instantiated X env info msg st) :
    Histories X (step X) (announced X) (fun _ _ => True) (migrate X) st := by
  refine .of_changes hX (fun st => ∃ reg, X.cw.registry st = some reg) ?_ ?_
    (fun _ _ _ _ _ _ => trivial) (fun _ => rfl) (h.registry hX)
  · intro st o hinv
    obtain ⟨reg, hreg⟩ := hinv
    obtain ⟨reg', hreg', _⟩ := step_next hX hreg o
    exact ⟨reg', hreg'⟩
  · intro st o hinv
    obtain ⟨reg, hreg⟩ := hinv
    exact change hX hreg o

end Migratable

/-- In every run of either contract, every subscriber keeps its place, only the contract an entry
names can change it, and migrations notify each subscriber where it last announced to be. -/
theorem subscribers_never_lost_or_hijacked {X : Crates} (hX : X.Documented) :
    (∀ env info msg replyEnv rep st, Dealer.Instantiated X env info msg replyEnv rep st →
      Histories X (Dealer.step X) (Dealer.announced X)
        (fun st k => X.items.childSnip721Address.load st = .ok k) (Dealer.migrate X) st) ∧
    (∀ env info msg st, Migratable.Instantiated X env info msg st →
      Histories X (Migratable.step X) (Migratable.announced X) (fun _ _ => True)
        (Migratable.migrate X) st) :=
  ⟨fun _ _ _ _ _ _ h => Dealer.histories hX h, fun _ _ _ _ h => Migratable.histories hX h⟩

/-- `eve` subscribes to the dealer and announces a new place for itself, which the dealer does not
hear; then the child announces a new code hash, which it does. -/
def announcing : List Dealer.Op :=
  [Sale.announce "eve" ⟨"eve", "eve_v2"⟩, Sale.announce "child" ⟨"child", "child_v2"⟩]

theorem subscribers_never_lost_or_hijacked_sale :
    (crates.cw.subscribers (Dealer.run crates (Sale.storage [Sale.price])
        (Sale.subscribe "eve" "eve" "eve_v1" :: announcing)))[0]? =
      some ⟨Json.stringBytes "child", "child_v2"⟩ ∧
    (crates.cw.subscribers (Dealer.run crates (Sale.storage [Sale.price])
        (Sale.subscribe "eve" "eve" "eve_v1" :: announcing)))[1]? =
      some ⟨Json.stringBytes "eve", "eve_v1"⟩ ∧
    eager.cw.RenamesAll ∧
    (eager.cw.subscribers (Dealer.run eager (Sale.storageOf eager [Sale.price])
        (Sale.subscribe "eve" "eve" "eve_v1" :: announcing)))[0]? =
      some ⟨Json.stringBytes "child", "child_v2"⟩ := by
  have h := ((subscribers_never_lost_or_hijacked crates_documented).1 _ _ _ _ _ _
    (Sale.instantiated [Sale.price] (by decide))).latest_first
    [Sale.subscribe "eve" "eve" "eve_v1"] announcing
  obtain ⟨e₀, he₀, h₀, _⟩ := h 0 ⟨Json.stringBytes "child", "child_v1"⟩ (by decide +kernel)
    (by decide +kernel)
  obtain ⟨e₁, he₁, h₁, _⟩ := h 1 ⟨Json.stringBytes "eve", "eve_v1"⟩ (by decide +kernel)
    (by decide +kernel)
  -- the same run with an update that reaches every entry
  obtain ⟨e₂, he₂, h₂, _⟩ := ((subscribers_never_lost_or_hijacked eager_documented).1 _ _ _ _ _ _
    (Sale.instantiated_over eager_documented rfl [Sale.price] (by decide))).latest renamesAll
    [Sale.subscribe "eve" "eve" "eve_v1"] announcing 0 ⟨Json.stringBytes "child", "child_v1"⟩
    (by decide +kernel)
  have hv₀ : e₀ = ⟨Json.stringBytes "child", "child_v2"⟩ := he₀.trans (by decide +kernel)
  have hv₁ : e₁ = ⟨Json.stringBytes "eve", "eve_v1"⟩ := he₁.trans (by decide +kernel)
  have hv₂ : e₂ = ⟨Json.stringBytes "child", "child_v2"⟩ := he₂.trans (by decide +kernel)
  subst hv₀ hv₁ hv₂
  exact ⟨h₀, h₁, renamesAll, h₂⟩

end Snip721Migratable
