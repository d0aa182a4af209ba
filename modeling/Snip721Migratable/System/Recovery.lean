import Snip721Migratable.Dealer.Blocking
import Snip721Migratable.System.Availability

/-!
# System.Recovery

Migrations of the dealer. One that commits puts the pair right again, however stale the child's
knowledge was. But every subscriber has to take the dealer's announcement: the dealer itself never
does, the child does not under a code hash that it no longer has, and a third party may refuse it
for reasons of its own. There may be no contract at the address, or one with another code hash.

* `dealer_migration_restores_agreement` : after a migration of the dealer both sides know each other.
* `Takes` : what it needs for a subscriber to take the announcement.
* `broadcast_transact` : the delivery of the dealer's announcements.
* `dealer_migration_commits_iff` : when the migration commits.
* `refusal_blocks_migration` : one subscriber that refuses is enough, whatever the others do.
* `pair_recovers` : what the two admins can do about a child that is behind.
-/

namespace Snip721Migratable

section

variable {X : Crates} {P : Parties X} {s₀ s : Dealer.State} {w w' : World} {o : Party P}
  {ρ : Reaction P} {out : List (Mail P)} {a codeHash h : String} {b : Binary}

theorem Linked.dealer_migrate_handled (hX : X.Documented) (hl : Linked P s₀ s w h)
    (ha : X.api.addrCanonicalize a = .ok P.dealerRaw) {codeId : Nat} :
    handle w ⟨o, .wasm (.migrate a codeId codeHash b)⟩ ρ = some (w', out) ↔
      w.dealerAdmin = some o.addr ∧ X.json.fromSlice Empty.codec b = some {} ∧
        w' = { w with dealerHash := codeHash } ∧
        ∃ cs, List.Forall₂ (fun c i => X.cw.intoHumanized c = .ok i) s.registry.entries cs ∧
          out = broadcast X .dealer codeHash cs := by
  simp only [handle, resolve_dealer.mpr ha, migrateDealer]
  constructor
  · intro hh
    split at hh
    · rename_i hadm
      split at hh
      · cases hh
      · rename_i hempty
        split at hh
        · cases hh
        · rename_i r st hcall
          cases hh
          obtain ⟨rfl, cs, hcs, hr⟩ := (Dealer.migrate_ok hX.cw hl.holds).mp hcall
          exact ⟨hadm, hempty, rfl, cs, hcs, mailFrom_broadcast (p := .dealer) rfl hr⟩
    · cases hh
  · intro hh
    obtain ⟨hadm, hempty, rfl, cs, hcs, rfl⟩ := hh
    have hcall : Dealer.migrate X (ρ.env ⟨P.dealer, codeHash⟩) w.dealer =
        (.ok ⟨cs.map (X.cw.notify X.json .never 0 ⟨P.dealer, codeHash⟩ none)⟩, w.dealer) :=
      (Dealer.migrate_ok hX.cw hl.holds).mpr ⟨rfl, cs, hcs, rfl⟩
    have hmail : mailFrom (P := P) .dealer ⟨cs.map (X.cw.notify X.json .never 0
        ⟨P.dealer, codeHash⟩ none)⟩ = broadcast X .dealer codeHash cs := by
      rw [mailFrom, broadcast, List.map_map]
      rfl
    rw [if_pos hadm, hempty, hcall]
    simp only [hmail]

/-! ## Agreement afterwards -/

/-- From any world that a run reaches, a migration of the dealer that commits leaves both contracts
with each other's current code hash, unless the dealer was migrated yet again while an older
announcement was waiting. -/
theorem dealer_migration_restores_agreement (hX : X.Documented) (hT : X.Tagged) {d : Deployment P}
    (hd : d.deploy = some w) (ts : List (List (Outsider P × CosmosMsg) × List (Reaction P)))
    (sender : Outsider P) {codeId : Nat} {ρs : List (Reaction P)}
    (ha : X.api.addrCanonicalize a = .ok P.dealerRaw)
    (ho : (machine X P).Along Orderly ρs
      ((machine X P).run w ts, [⟨.third sender, .wasm (.migrate a codeId codeHash b)⟩]))
    (hcommits : (machine X P).transact ((machine X P).run w ts)
      [⟨.third sender, .wasm (.migrate a codeId codeHash b)⟩] ρs = some w') :
    Agreement P w' := by
  obtain ⟨s, hs⟩ := deploy_holds hX hT hd
  have hrouted := hs.run_routed hX hT ts
  obtain ⟨ρ, ρs', w₁, out, rfl, hh, ht⟩ := Machine.transact_cons_iff.mp hcommits
  have hrouted₁ : Routed s (w₁, out ++ []) :=
    (hrouted.start [(sender, .wasm (.migrate a codeId codeHash b))]).delivered hX hT hh
  cases hrouted with
  | linked hl _ _ =>
    obtain ⟨_, _, rfl, cs, hcs, rfl⟩ := (hl.dealer_migrate_handled hX ha).mp hh
    have hfresh : Fresh ({ (machine X P).run w ts with dealerHash := codeHash },
        broadcast (P := P) X .dealer codeHash cs ++ []) :=
      Fresh.dealerMigrated hX hT hl hcs (by simp)
    have hstep : (machine X P).advance ρ ((machine X P).run w ts,
        [⟨.third sender, .wasm (.migrate a codeId codeHash b)⟩]) =
          some (_, broadcast (P := P) X .dealer codeHash cs ++ []) :=
      Machine.advance_eq_some.mpr ⟨_, _, _, _, _, rfl, hh, rfl⟩
    have hend := Machine.deliver_inv (M := machine X P) (P := Orderly)
      (I := fun c => Routed s c ∧ Fresh c) ?_ ρs' _ _ (ho.2 _ hstep) ⟨hrouted₁, hfresh⟩
      (Machine.transact_eq_some.mp ht)
    · exact hend.1.agreement hend.2
    · rintro ρ c c' ho ⟨hc, hf⟩ hstep
      refine ⟨hc.advance hX hT hstep, ?_⟩
      obtain ⟨w, m, ms, w', out, rfl, hh, rfl⟩ := Machine.advance_eq_some.mp hstep
      exact hf.delivered hX hT hc ho hh

/-! ## One announcement -/

/-- The dealer's announcement to `c`. -/
def announcement (X : Crates) (P : Parties X) (codeHash : String) (c : ContractInfo) : WasmMsg :=
  .execute c.address c.codeHash (X.cw.notification X.json ⟨P.dealer, codeHash⟩ none) []

def dealerAnnouncement (X : Crates) (P : Parties X) (codeHash : String) (c : ContractInfo) : Mail P :=
  ⟨.dealer, .wasm (announcement X P codeHash c)⟩

theorem broadcast_cons (c : ContractInfo) (cs : List ContractInfo) :
    broadcast (P := P) X .dealer codeHash (c :: cs) =
      dealerAnnouncement X P codeHash c :: broadcast X .dealer codeHash cs := rfl

theorem announcement_read (hT : X.Tagged) :
    Dealer.visitBytes X (X.cw.notification X.json ⟨P.dealer, codeHash⟩ none) =
        .ok (.migrateListener (.migrationCompleteNotification ⟨P.dealer, codeHash⟩ none)) ∧
      Migratable.visitBytes X (X.cw.notification X.json ⟨P.dealer, codeHash⟩ none) =
        .ok (.migrateListener (.migrationCompleteNotification ⟨P.dealer, codeHash⟩ none)) :=
  ⟨Dealer.visitBytes_toBytes hT (.migrateListener _),
    Migratable.visitBytes_toBytes hT (.migrateListener _)⟩

/-- The dealer does not listen to itself. -/
theorem Linked.self_announcement (hX : X.Documented) (hT : X.Tagged) (hl : Linked P s₀ s w h)
    {c : ContractInfo} (hc : X.api.addrCanonicalize c.address = .ok P.dealerRaw) :
    handle w (dealerAnnouncement X P codeHash c) ρ ≠ some (w', out) := by
  intro hh
  obtain ⟨_, r, st, hcall, _⟩ := (handle_dealer hc (announcement_read hT).1).mp hh
  obtain ⟨hsender, _⟩ := Dealer.updateChildSnip721_ok hX.cw hl.holds hcall
  rw [hl.address] at hsender
  exact P.distinct (Except.ok.inj (P.dealer_canonicalize.symm.trans hsender))

/-- The child listens to the dealer under its current code hash, and remembers what it hears. -/
theorem Linked.child_announcement (hX : X.Documented) (hT : X.Tagged) (hl : Linked P s₀ s w h)
    {c : ContractInfo} (hc : X.api.addrCanonicalize c.address = .ok P.childRaw)
    (hheard : handle w (dealerAnnouncement X P codeHash c) ρ = some (w', out)) :
    c.codeHash = w.childHash ∧ out = [] ∧ ∃ st, w' = { w with child := st } ∧
      Linked P s₀ s w' codeHash := by
  obtain ⟨hhash, r, st, hcall, rfl, rfl⟩ := (handle_child hc (announcement_read hT).2).mp hheard
  obtain ⟨hr, _, sender, raw, l', hsender, hto, hup, hreg⟩ :=
    Migratable.updateMigratedDependency_ok hX.cw hl.childRegistry hcall
  cases P.dealer_canonicalize.symm.trans hsender
  cases P.dealer_canonicalize.symm.trans hto
  refine ⟨hhash, by rw [mailFrom, hr]; rfl, st, by simp [mintsOf], ?_⟩
  rcases childRegistry_heard (p := .dealer) hX hup with ⟨hne, _⟩ | ⟨_, rfl⟩
  · exact (hne rfl).elim
  · exact { hl with childRegistry := hreg }

theorem Linked.child_takes (hX : X.Documented) (hT : X.Tagged) (hl : Linked P s₀ s w h)
    {c : ContractInfo} (hc : X.api.addrCanonicalize c.address = .ok P.childRaw)
    (hhash : c.codeHash = w.childHash) (codeHash : String) (ρ : Reaction P) :
    ∃ w' out, handle w (dealerAnnouncement X P codeHash c) ρ = some (w', out) := by
  obtain ⟨st, hcall⟩ : ∃ st, Migratable.updateMigratedDependency X
      { sender := P.dealer, funds := [] } ⟨P.dealer, codeHash⟩ w.child = (.ok Response.new, st) :=
    Migratable.updateMigratedDependency_accepts hX.cw hl.childRegistry P.dealer_canonicalize
      P.dealer_canonicalize
  exact ⟨_, _, (handle_child hc (announcement_read hT).2).mpr ⟨hhash, _, st, hcall, rfl, rfl⟩⟩

/-- Whoever is neither of the two contracts decides for itself. -/
theorem third_announcement {c : ContractInfo} {raw : CanonicalAddr}
    (hc : X.api.addrCanonicalize c.address = .ok raw) (hd : raw ≠ P.dealerRaw)
    (hch : raw ≠ P.childRaw) :
    handle w (dealerAnnouncement X P codeHash c) ρ = some (w', out) ↔
      ρ.accepts (announcement X P codeHash c) = true ∧ w' = w ∧ out = ρ.mail := by
  have hresolve : resolve X P c.address = some .elsewhere := by
    simp [resolve, hc, hd, hch]
  rw [← leaveTo_eq_some]
  simp only [dealerAnnouncement, announcement, handle, hresolve]

/-- The subscriber `c` takes the announcement of a dealer that has migrated to `codeHash`, if `ρ` is
what happens when it arrives. -/
structure Takes (P : Parties X) (codeHash childHash : String) (c : CanonicalContractInfo)
    (ρ : Reaction P) : Prop where
  address : ∃ a, X.api.addrHumanize c.address = .ok a
  notDealer : c.address ≠ P.dealerRaw
  child : c.address = P.childRaw → c.codeHash = childHash
  third : c.address ≠ P.childRaw → ∀ a, X.api.addrHumanize c.address = .ok a →
    ρ.accepts (announcement X P codeHash ⟨a, c.codeHash⟩) = true

theorem Linked.announcement_iff (hX : X.Documented) (hT : X.Tagged) (hl : Linked P s₀ s w h)
    {c : CanonicalContractInfo} (hhum : X.api.addrHumanize c.address = .ok a) :
    (∃ w' out, handle w (dealerAnnouncement X P codeHash ⟨a, c.codeHash⟩) ρ = some (w', out)) ↔
      Takes P codeHash w.childHash c ρ := by
  have hcanon := hX.api.humanize hhum
  constructor
  · intro hheard
    obtain ⟨w', out, hh⟩ := hheard
    have hself : c.address ≠ P.dealerRaw := fun hself =>
      hl.self_announcement hX hT (hself ▸ hcanon) hh
    refine ⟨⟨a, hhum⟩, hself, ?_, ?_⟩
    · intro hchild
      exact (hl.child_announcement hX hT (hchild ▸ hcanon) hh).1
    · intro hchild a' hhum'
      cases hhum.symm.trans hhum'
      exact ((third_announcement hcanon hself hchild).mp hh).1
  · intro htakes
    by_cases hchild : c.address = P.childRaw
    · have hto : X.api.addrCanonicalize (⟨a, c.codeHash⟩ : ContractInfo).address =
          .ok P.childRaw := hchild ▸ hcanon
      exact hl.child_takes hX hT hto (htakes.child hchild) codeHash ρ
    · exact ⟨w, ρ.mail, (third_announcement hcanon htakes.notDealer hchild).mpr
        ⟨htakes.third hchild a hhum, rfl, rfl⟩⟩

/-- What an announcement does: if it goes to the child, the child knows the new code hash. -/
theorem Linked.announcement_effect (hX : X.Documented) (hT : X.Tagged) (hl : Linked P s₀ s w h)
    {c : CanonicalContractInfo} (hc : X.api.addrHumanize c.address = .ok a) (hquiet : ρ.sends = [])
    (hh : handle w (dealerAnnouncement X P codeHash ⟨a, c.codeHash⟩) ρ = some (w', out)) :
    out = [] ∧ w'.dealerHash = w.dealerHash ∧ w'.childHash = w.childHash ∧
      w'.childAdmin = w.childAdmin ∧
      ∃ h', Linked P s₀ s w' h' ∧ (h' = codeHash ∨ (h' = h ∧ c.address ≠ P.childRaw)) := by
  have hcanon := hX.api.humanize hc
  have hself : c.address ≠ P.dealerRaw := fun hself =>
    hl.self_announcement hX hT (hself ▸ hcanon) hh
  by_cases hchild : c.address = P.childRaw
  · obtain ⟨_, rfl, st, rfl, hl'⟩ := hl.child_announcement hX hT (hchild ▸ hcanon) hh
    exact ⟨rfl, rfl, rfl, rfl, codeHash, hl', .inl rfl⟩
  · obtain ⟨_, rfl, rfl⟩ := (third_announcement hcanon hself hchild).mp hh
    have hnone : ρ.mail = [] := by rw [Reaction.mail, hquiet]; rfl
    exact ⟨hnone, rfl, rfl, rfl, h, hl, .inr ⟨rfl, hchild⟩⟩

/-! ## When the migration commits -/

theorem intoHumanized_ok (hX : X.Documented) {c : CanonicalContractInfo} {i : ContractInfo} :
    X.cw.intoHumanized c = .ok i ↔
      ∃ a, X.api.addrHumanize c.address = .ok a ∧ i = ⟨a, c.codeHash⟩ := by
  rw [hX.cw.intoHumanized]
  cases X.api.addrHumanize c.address with
  | error e => simp [Except.map]
  | ok a => simp [Except.map, eq_comm]

/-- The announcements of a migrated dealer, when nobody answers. -/
theorem broadcast_transact (hX : X.Documented) (hT : X.Tagged) {l : List CanonicalContractInfo}
    {cs : List ContractInfo}
    (hcs : List.Forall₂ (fun c i => X.cw.intoHumanized c = .ok i) l cs) :
    ∀ {w : World} {h : String}, Linked P s₀ s w h →
      ∀ ρs : List (Reaction P), (∀ ρ ∈ ρs, ρ.sends = []) →
      ((∃ w', (machine X P).transact w (broadcast X .dealer codeHash cs) ρs = some w') ↔
        List.Forall₂ (Takes P codeHash w.childHash) l ρs) := by
  induction hcs with
  | nil =>
    intro w h hl ρs _
    have hnil : broadcast (P := P) X .dealer codeHash [] = [] := rfl
    simp only [hnil, Machine.transact_nil, List.forall₂_nil_left_iff]
    simp
  | @cons c i l cs hi _ ih =>
    intro w h hl ρs hquiet
    obtain ⟨a, hhum, rfl⟩ := (intoHumanized_ok hX).mp hi
    rw [broadcast_cons, List.forall₂_cons_left_iff]
    constructor
    · intro hcommits
      obtain ⟨w', ht⟩ := hcommits
      obtain ⟨ρ, ρs', w₁, out, rfl, hh, ht⟩ := Machine.transact_cons_iff.mp ht
      have htakes := (hl.announcement_iff hX hT hhum).mp ⟨w₁, out, hh⟩
      obtain ⟨rfl, _, hhash, _, h', hl₁, _⟩ :=
        hl.announcement_effect hX hT hhum (hquiet ρ (.head _)) hh
      have hrest := (ih hl₁ ρs' fun ρ hρ => hquiet ρ (.tail _ hρ)).mp ⟨w', ht⟩
      rw [hhash] at hrest
      exact ⟨ρ, ρs', htakes, hrest, rfl⟩
    · rintro ⟨ρ, ρs', htakes, hrest, rfl⟩
      obtain ⟨w₁, out, hh⟩ := (hl.announcement_iff hX hT hhum).mpr htakes
      obtain ⟨rfl, _, hhash, _, h', hl₁, _⟩ :=
        hl.announcement_effect hX hT hhum (hquiet ρ (.head _)) hh
      rw [← hhash] at hrest
      obtain ⟨w', ht⟩ := (ih hl₁ ρs' fun ρ hρ => hquiet ρ (.tail _ hρ)).mpr hrest
      exact ⟨w', Machine.transact_cons_iff.mpr ⟨ρ, ρs', _, _, rfl, hh, ht⟩⟩

/-- A migration of the dealer by its chain-level admin, when nobody answers. -/
theorem Linked.dealer_migrate_transact (hX : X.Documented) (hT : X.Tagged)
    (hl : Linked P s₀ s w h) (ha : X.api.addrCanonicalize a = .ok P.dealerRaw) {codeId : Nat}
    (hadm : w.dealerAdmin = some o.addr) {ρs : List (Reaction P)}
    (hquiet : ∀ ρ ∈ ρs, ρ.sends = []) :
    (∃ w', (machine X P).transact w [⟨o, .wasm (.migrate a codeId codeHash b)⟩] ρs = some w') ↔
      X.json.fromSlice Empty.codec b = some {} ∧ ∃ ρ ρs', ρs = ρ :: ρs' ∧
        List.Forall₂ (Takes P codeHash w.childHash) s.registry.entries ρs' := by
  have hl₁ : Linked P s₀ s { w with dealerHash := codeHash } h := { hl with }
  constructor
  · intro hcommits
    obtain ⟨w', ht⟩ := hcommits
    obtain ⟨ρ, ρs', w₁, out, rfl, hh, ht⟩ := Machine.transact_cons_iff.mp ht
    obtain ⟨_, hempty, rfl, cs, hcs, rfl⟩ := (hl.dealer_migrate_handled hX ha).mp hh
    rw [List.append_nil] at ht
    have htakes := (broadcast_transact hX hT hcs hl₁ ρs'
      fun ρ hρ => hquiet ρ (.tail _ hρ)).mp ⟨w', ht⟩
    exact ⟨hempty, ρ, ρs', rfl, htakes⟩
  · rintro ⟨hempty, ρ, ρs', rfl, htakes⟩
    obtain ⟨cs, hcs, _⟩ := Dealer.exists_humanized (f := X.cw.intoHumanized)
      (P := fun _ _ => True) (l := s.registry.entries) fun c hc => by
        obtain ⟨_, _, hc⟩ := exists_of_forall₂ htakes hc
        obtain ⟨a, ha⟩ := hc.address
        exact ⟨⟨a, c.codeHash⟩, (intoHumanized_ok hX).mpr ⟨a, ha, rfl⟩, trivial⟩
    obtain ⟨w', ht⟩ := (broadcast_transact hX hT hcs hl₁ ρs'
      fun ρ hρ => hquiet ρ (.tail _ hρ)).mpr htakes
    refine ⟨w', Machine.transact_cons_iff.mpr ⟨ρ, ρs', _, _, rfl,
      (hl.dealer_migrate_handled hX ha).mpr ⟨hadm, hempty, rfl, cs, hcs, rfl⟩, ?_⟩⟩
    rw [List.append_nil]
    exact ht

/-- In every world that a run reaches: if nobody answers the announcements, a migration of the
dealer by its chain-level admin commits exactly when its message is read as `Empty` and every
subscriber takes the announcement. It has an address, which is not the dealer's; the child is listed
under its current code hash; and a third party accepts the message, with the code hash that it is
listed under. -/
theorem dealer_migration_commits_iff (hX : X.Documented) (hT : X.Tagged) {d : Deployment P}
    (hd : d.deploy = some w) (ts : List (List (Outsider P × CosmosMsg) × List (Reaction P)))
    {w₁ : World} (hw₁ : (machine X P).run w ts = w₁) (admin : Outsider P) {codeId : Nat}
    {ρs : List (Reaction P)} (hadm : w₁.dealerAdmin = some admin.addr)
    (ha : X.api.addrCanonicalize a = .ok P.dealerRaw) (hquiet : ∀ ρ ∈ ρs, ρ.sends = []) :
    (∃ w', (machine X P).transact w₁
        [⟨.third admin, .wasm (.migrate a codeId codeHash b)⟩] ρs = some w') ↔
      X.json.fromSlice Empty.codec b = some {} ∧ ∃ ρ ρs', ρs = ρ :: ρs' ∧
        List.Forall₂ (Takes P codeHash w₁.childHash) (X.cw.subscribers w₁.dealer) ρs' := by
  subst hw₁
  obtain ⟨s₀, hs⟩ := deploy_holds hX hT hd
  cases hs.run_routed hX hT ts with
  | linked hl _ _ =>
    rw [CwMigratable.subscribers_of_registry hl.holds.registry]
    exact hl.dealer_migrate_transact (o := .third admin) hX hT ha hadm hquiet

/-- In every world that a run reaches, and whatever the other outsiders do: as long as a third party
that is subscribed refuses the announcement, no migration of the dealer commits. -/
theorem refusal_blocks_migration (hX : X.Documented) (hT : X.Tagged) {d : Deployment P}
    (hd : d.deploy = some w) (ts : List (List (Outsider P × CosmosMsg) × List (Reaction P)))
    {w₁ : World} (hw₁ : (machine X P).run w ts = w₁) {c : CanonicalContractInfo}
    (hc : c ∈ X.cw.subscribers w₁.dealer) (hd' : c.address ≠ P.dealerRaw)
    (hch : c.address ≠ P.childRaw) {codeId : Nat} {ρs : List (Reaction P)}
    (hrefused : ∀ ρ ∈ ρs, ∀ a', X.api.addrHumanize c.address = .ok a' →
      ρ.accepts (announcement X P codeHash ⟨a', c.codeHash⟩) = false)
    (ha : X.api.addrCanonicalize a = .ok P.dealerRaw) :
    (machine X P).transact w₁ [⟨o, .wasm (.migrate a codeId codeHash b)⟩] ρs = none := by
  subst hw₁
  obtain ⟨s₀, hs⟩ := deploy_holds hX hT hd
  cases hs.run_routed hX hT ts with
  | linked hl _ _ =>
    rw [CwMigratable.subscribers_of_registry hl.holds.registry] at hc
    refine Option.eq_none_iff_forall_ne_some.mpr fun w' ht => ?_
    obtain ⟨ρ, ρs', w₂, out, rfl, hh, ht⟩ := Machine.transact_cons_iff.mp ht
    obtain ⟨_, _, rfl, cs, hcs, rfl⟩ := (hl.dealer_migrate_handled hX ha).mp hh
    -- the announcement to `c` waits among the others, so it would have to be handled
    obtain ⟨i, hi, hinfo⟩ := exists_of_forall₂ hcs hc
    obtain ⟨a', hhum, rfl⟩ := (intoHumanized_ok hX).mp hinfo
    have hwaits : dealerAnnouncement X P codeHash ⟨a', c.codeHash⟩ ∈
        broadcast X .dealer codeHash cs ++ [] :=
      List.mem_append_left _ (List.mem_map.mpr ⟨_, hi, rfl⟩)
    obtain ⟨_, ρ', _, _, hρ', hh'⟩ := Machine.transact_handles ht hwaits
    have hacc := ((third_announcement (hX.api.humanize hhum) hd' hch).mp hh').1
    rw [hrefused ρ' (.tail _ hρ') a' hhum] at hacc
    cases hacc

/-! ## Recovery -/

/-- Once the child has heard of the dealer's new code hash, the other announcements change
nothing about it. -/
theorem broadcast_keeps (hX : X.Documented) (hT : X.Tagged) {l : List CanonicalContractInfo}
    {cs : List ContractInfo}
    (hcs : List.Forall₂ (fun c i => X.cw.intoHumanized c = .ok i) l cs) :
    ∀ {w : World}, Linked P s₀ s w codeHash →
      ∀ ρs : List (Reaction P), (∀ ρ ∈ ρs, ρ.sends = []) →
      (machine X P).transact w (broadcast X .dealer codeHash cs) ρs = some w' →
      Linked P s₀ s w' codeHash ∧ w'.dealerHash = w.dealerHash ∧ w'.childHash = w.childHash ∧
        w'.childAdmin = w.childAdmin := by
  induction hcs with
  | nil =>
    intro w hl ρs _ ht
    obtain ⟨_, rfl⟩ := Machine.transact_nil.mp ht
    exact ⟨hl, rfl, rfl, rfl⟩
  | @cons c i l cs hi _ ih =>
    intro w hl ρs hquiet ht
    obtain ⟨a, hhum, rfl⟩ := (intoHumanized_ok hX).mp hi
    rw [broadcast_cons] at ht
    obtain ⟨ρ, ρs', w₁, out, rfl, hh, ht⟩ := Machine.transact_cons_iff.mp ht
    obtain ⟨rfl, hdealer, hhash, hadmin, h', hl₁, hh'⟩ :=
      hl.announcement_effect hX hT hhum (hquiet ρ (.head _)) hh
    obtain rfl : h' = codeHash := hh'.elim id And.left
    obtain ⟨hl', hdealer', hhash', hadmin'⟩ := ih hl₁ ρs' (fun ρ hρ => hquiet ρ (.tail _ hρ)) ht
    exact ⟨hl', hdealer'.trans hdealer, hhash'.trans hhash, hadmin'.trans hadmin⟩

/-- The child is the first subscriber. -/
theorem Linked.broadcast_child (hX : X.Documented) (hl : Linked P s₀ s w h) {cs : List ContractInfo}
    (hcs : List.Forall₂ (fun c i => X.cw.intoHumanized c = .ok i) s.registry.entries cs) :
    ∃ rest cs', s.registry.entries = s.child :: rest ∧
      cs = ⟨P.child, s.child.codeHash⟩ :: cs' ∧
      List.Forall₂ (fun c i => X.cw.intoHumanized c = .ok i) rest cs' := by
  obtain ⟨rest, hentries⟩ := List.head?_eq_some_iff.mp hl.head
  rw [hentries] at hcs
  obtain ⟨i, cs', hi, hcs', rfl⟩ := List.forall₂_cons_left_iff.mp hcs
  obtain ⟨a, ha, rfl⟩ := (intoHumanized_ok hX).mp hi
  rw [hl.address, P.child_humanize] at ha
  cases ha
  exact ⟨rest, cs', hentries, rfl, hcs'⟩

/-- A migration of the dealer that commits while nobody answers lets the child know of it. -/
theorem Linked.dealer_migrates (hX : X.Documented) (hT : X.Tagged) (hl : Linked P s₀ s w h)
    (ha : X.api.addrCanonicalize a = .ok P.dealerRaw) {codeId : Nat} {ρs : List (Reaction P)}
    (hquiet : ∀ ρ ∈ ρs, ρ.sends = [])
    (ht : (machine X P).transact w [⟨o, .wasm (.migrate a codeId codeHash b)⟩] ρs = some w') :
    Linked P s₀ s w' w'.dealerHash ∧ w'.childHash = w.childHash ∧ w'.childAdmin = w.childAdmin := by
  obtain ⟨ρ₁, ρs₁, w₁, out₁, rfl, hh₁, ht⟩ := Machine.transact_cons_iff.mp ht
  obtain ⟨_, _, rfl, cs, hcs, rfl⟩ := (hl.dealer_migrate_handled hX ha).mp hh₁
  have hl₁ : Linked P s₀ s { w with dealerHash := codeHash } h := { hl with }
  obtain ⟨rest, cs', _, rfl, hcs'⟩ := hl.broadcast_child hX hcs
  rw [List.append_nil, broadcast_cons] at ht
  obtain ⟨ρ₂, ρs₂, w₂, out₂, rfl, hh₂, ht⟩ := Machine.transact_cons_iff.mp ht
  obtain ⟨_, rfl, st, rfl, hl₂⟩ := hl₁.child_announcement hX hT P.child_canonicalize hh₂
  obtain ⟨hl', hdealer, hchild, hadmin⟩ := broadcast_keeps hX hT hcs' hl₂ ρs₂
    (fun ρ hρ => hquiet ρ (.tail _ (.tail _ hρ))) ht
  have hcur : w'.dealerHash = codeHash := hdealer
  rw [hcur]
  exact ⟨hl', hchild, hadmin⟩

theorem Linked.agreement (hl : Linked P s₀ s w w.dealerHash)
    (hsync : s.child.codeHash = w.childHash) : Agreement P w where
  toKnowsChild := Routed.knowsChild (.linked hl hsync (by simp))
  childSubscribers := CwMigratable.subscribers_of_registry hl.childRegistry

/-- However far behind the child is: in every world that a run reaches, if every subscriber takes
the announcement of the dealer and nobody answers it, the two admins can migrate first the dealer and
then the child. Both migrations commit, whatever the new code hashes are, and after each of them the
two contracts know each other. -/
theorem pair_recovers (hX : X.Documented) (hT : X.Tagged) {d : Deployment P}
    (hd : d.deploy = some w) (ts : List (List (Outsider P × CosmosMsg) × List (Reaction P)))
    {w₁ : World} (hw₁ : (machine X P).run w ts = w₁) (admin childAdmin : Outsider P)
    (hadm : w₁.dealerAdmin = some admin.addr) (hchildAdm : w₁.childAdmin = some childAdmin.addr)
    {a' codeHash' : String} {b' : Binary} {codeId codeId' : Nat} {ρs ρs' : List (Reaction P)}
    (ha : X.api.addrCanonicalize a = .ok P.dealerRaw)
    (ha' : X.api.addrCanonicalize a' = .ok P.childRaw)
    (hempty : X.json.fromSlice Empty.codec b = some {})
    (hempty' : X.json.fromSlice Empty.codec b' = some {})
    (htakes : List.Forall₂ (Takes P codeHash w₁.childHash) (X.cw.subscribers w₁.dealer) ρs)
    (hquiet : ∀ ρ' ∈ ρ :: ρs, ρ'.sends = []) (hlength' : ρs'.length = 2) :
    ∃ w₂ w₃,
      (machine X P).transact w₁ [⟨.third admin, .wasm (.migrate a codeId codeHash b)⟩] (ρ :: ρs) =
        some w₂ ∧ Agreement P w₂ ∧
      (machine X P).transact w₂ [⟨.third childAdmin, .wasm (.migrate a' codeId' codeHash' b')⟩] ρs' =
        some w₃ ∧ Agreement P w₃ := by
  subst hw₁
  obtain ⟨s₀, hs⟩ := deploy_holds hX hT hd
  cases hs.run_routed hX hT ts with
  | linked hl hsync _ =>
    rw [CwMigratable.subscribers_of_registry hl.holds.registry] at htakes
    obtain ⟨w₂, ht⟩ : ∃ w₂, (machine X P).transact ((machine X P).run w ts)
        [⟨.third admin, .wasm (.migrate a codeId codeHash b)⟩] (ρ :: ρs) = some w₂ :=
      (hl.dealer_migrate_transact (o := .third admin) hX hT ha hadm hquiet).mpr
        ⟨hempty, ρ, ρs, rfl, htakes⟩
    obtain ⟨hl₂, hchild, hkept⟩ := hl.dealer_migrates hX hT ha hquiet ht
    obtain ⟨w₃, s', ht', hl₃, hsync'⟩ : ∃ w₃ s', (machine X P).transact w₂
        [⟨.third childAdmin, .wasm (.migrate a' codeId' codeHash' b')⟩] ρs' = some w₃ ∧
        Linked P s₀ s' w₃ w₃.dealerHash ∧ s'.child.codeHash = w₃.childHash :=
      hl₂.child_migrates (o := .third childAdmin) hX hT ha' (hkept.trans hchildAdm) hempty' hlength'
    exact ⟨w₂, w₃, ht, hl₂.agreement (hsync.trans hchild.symm), ht', hl₃.agreement hsync'⟩

end

section

open Reference Reference.Chain

/-- Anybody may list an address at which there is no contract. -/
def haunted : List (List (Outsider parties × CosmosMsg) × List (Reaction parties)) :=
  [([(buyer, subscribe "dealer_v1" "ghost" "none")], [silent])]

example (ρs : List (Reaction parties))
    (hghost : ∀ ρ ∈ ρs, ∀ b, ρ.accepts (.execute "ghost" "none" b []) = false) :
    (machine crates parties).transact ((machine crates parties).run world haunted)
      [⟨.third tracker, migrate "dealer" "dealer_v2"⟩] ρs = none := by
  have hlisted : (⟨Json.stringBytes "ghost", "none"⟩ : CanonicalContractInfo) ∈
      crates.cw.subscribers ((machine crates parties).run world haunted).dealer := by
    decide +kernel
  refine refusal_blocks_migration crates_documented crates_tagged deploy_eq haunted rfl hlisted
    (by decide +kernel) (by decide +kernel) ?_ parties.dealer_canonicalize
  intro ρ hρ a ha
  cases ha.symm.trans (humanize_ok (s := "ghost") (by decide))
  exact hghost ρ hρ _

/-! ## After the run that leaves the child behind -/

/-- One more migration of the dealer, and the child is not behind any more. -/
theorem dealer_migration_restores_agreement_interrupted :
    ∃ w', (machine crates parties).transact ((machine crates parties).run world interrupted)
        [⟨.third tracker, migrate "dealer" "dealer_v4"⟩] [silent, silent, silent, silent] = some w' ∧
      Agreement parties w' := by
  have hcommits : ((machine crates parties).transact
      ((machine crates parties).run world interrupted)
      [⟨.third tracker, migrate "dealer" "dealer_v4"⟩] [silent, silent, silent, silent]).isSome := by
    decide +kernel
  obtain ⟨w', hw'⟩ := Option.isSome_iff_exists.mp hcommits
  have hplain : (machine crates parties).Along Orderly [silent, silent, silent, silent]
      ((machine crates parties).run world interrupted,
        [⟨.third tracker, migrate "dealer" "dealer_v4"⟩]) :=
    Machine.along_of_check (p := plain) orderly_of_plain _ _ (by decide +kernel)
  exact ⟨w', hw', dealer_migration_restores_agreement crates_documented crates_tagged deploy_eq
    interrupted tracker parties.dealer_canonicalize hplain hw'⟩

/-- Whoever is subscribed after that run takes the announcement of another migration. -/
theorem interrupted_takes :
    List.Forall₂ (Takes parties "dealer_v4" ((machine crates parties).run world interrupted).childHash)
      (crates.cw.subscribers ((machine crates parties).run world interrupted).dealer)
      [silent, silent, silent] := by
  have hchild : Takes parties "dealer_v4" "child_v2" ⟨parties.childRaw, "child_v2"⟩ silent :=
    ⟨⟨_, parties.child_humanize⟩, parties.distinct.symm, fun _ => rfl, fun h => (h rfl).elim⟩
  have htracker : Takes parties "dealer_v4" "child_v2" ⟨tracker.raw, "tracker_v1"⟩ silent :=
    ⟨⟨_, tracker.humanize⟩, tracker.ne_dealer, fun h => (tracker.ne_child h).elim, fun _ _ _ => rfl⟩
  obtain ⟨_, _, hsubs, hhash, _⟩ := interrupted_world
  rw [hsubs, hhash]
  exact .cons hchild (.cons htracker (.cons hchild .nil))

theorem dealer_migration_commits_iff_interrupted :
    ∃ w', (machine crates parties).transact ((machine crates parties).run world interrupted)
      [⟨.third tracker, migrate "dealer" "dealer_v4"⟩] [silent, silent, silent, silent] = some w' := by
  obtain ⟨_, hadm, _⟩ := interrupted_world
  exact (dealer_migration_commits_iff crates_documented crates_tagged deploy_eq interrupted rfl
    tracker hadm parties.dealer_canonicalize (by simp [silent])).mpr
      ⟨emptyMsg_read, silent, _, rfl, interrupted_takes⟩

/-- The child that could not be migrated can be again. -/
theorem pair_recovers_interrupted :
    ∃ w₂ w₃,
      (machine crates parties).transact ((machine crates parties).run world interrupted)
        [⟨.third tracker, migrate "dealer" "dealer_v4"⟩] [silent, silent, silent, silent] =
          some w₂ ∧ Agreement parties w₂ ∧
      (machine crates parties).transact w₂ [⟨.third seller, migrate "child" "child_v3"⟩]
        [silent, silent] = some w₃ ∧ Agreement parties w₃ := by
  obtain ⟨_, hadm, hsubs, _, hchildAdm, _⟩ := interrupted_world
  exact pair_recovers crates_documented crates_tagged deploy_eq interrupted rfl tracker seller hadm
    hchildAdm parties.dealer_canonicalize parties.child_canonicalize emptyMsg_read emptyMsg_read
    interrupted_takes (by simp [silent]) rfl

end

end Snip721Migratable
