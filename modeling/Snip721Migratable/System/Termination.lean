import Snip721Migratable.Lib.Termination
import Snip721Migratable.System.Sales

/-!
# System.Termination

The two contracts do not keep each other busy. What a message of an outsider sets off comes from
the dealer at first, what a message of the dealer sets off comes from the child, and a message of
the child sets off nothing any more. So a transaction can go on forever only if outsiders are called
along the way and send messages, again and again.

* `Party.rank` : the order of the senders.
* `Routed.lower` : a delivery to an outsider that sends nothing, or to one of the two contracts,
  sends down the ranks.
* `endless_needs_outsiders` : what an endless transaction would need.
-/

namespace Snip721Migratable

section

variable {X : Crates} {P : Parties X} {s₀ s : Dealer.State} {w w' : World} {m : Mail P}
  {ms out : List (Mail P)} {ρ : Reaction P}

def Party.rank : Party P → Nat
  | .child => 0
  | .dealer => 1
  | .third _ => 2

def Mail.rank (m : Mail P) : Nat := m.origin.rank

theorem Party.child_rank_lt {p : Party P} (h : p ≠ .child) :
    (Party.child : Party P).rank < p.rank := by
  cases p with
  | dealer => simp [Party.rank]
  | child => exact (h rfl).elim
  | third o => simp [Party.rank]

/-- A child does not understand what it sends to token receivers. -/
theorem Migratable.visitBytes_receiver (hT : X.Tagged) {b : Binary} {t : String}
    (ht : X.json.tagOf b = some t) (hr : t ∈ receiverTags) (msg : Snip721ExecuteMsg) :
    Migratable.visitBytes X b ≠ .ok (.base msg) := by
  have hnone : X.json.fromSlice X.impl.executeMsg.codec b = none := by
    refine TaggedEnum.fromSlice_eq_none _ fun t' ht' => ?_
    cases ht.symm.trans ht'
    rw [hT.impl]
    simp only [receiverTags, List.mem_cons, List.not_mem_nil, or_false] at hr
    rcases hr with rfl | rfl <;> decide
  intro hmsg
  unfold Migratable.visitBytes at hmsg
  rw [hnone] at hmsg
  simp only at hmsg
  split at hmsg
  · cases hmsg
  · split at hmsg <;> cases hmsg

/-- Migrations come from outsiders. -/
theorem Tame.migrates (hm : Tame s₀ m) {raw : CanonicalAddr} {codeHash : String}
    (hmig : m.Migrates raw codeHash) : ∃ o : Outsider P, m.origin = .third o := by
  obtain ⟨_, _, _, _, hb⟩ := hmig
  cases hm with
  | third o body => exact ⟨o, rfl⟩
  | payment amount _ => cases hb
  | mint codeHash buyer _ => cases hb
  | announcement codeHash c => cases hb
  | callback _ _ => cases hb

/-- The child sends nothing that the base contract of a child would take. -/
theorem Tame.base_origin (hT : X.Tagged) (hm : Tame s₀ m) {raw : CanonicalAddr} {b : Binary}
    {funds : List Coin} (hc : m.Calls raw b funds) {msg : Snip721ExecuteMsg}
    (hmsg : Migratable.visitBytes X b = .ok (.base msg)) : m.origin ≠ .child := by
  obtain ⟨_, _, _, hb⟩ := hc
  cases hm with
  | third o body => simp
  | payment amount _ => simp
  | mint codeHash buyer _ => simp
  | announcement codeHash c => simp
  | callback htag hr =>
    cases hb
    exact (Migratable.visitBytes_receiver hT htag hr msg hmsg).elim

theorem Routed.lower (hX : X.Documented) (hT : X.Tagged) (hc : Routed s₀ (w, m :: ms))
    (hquiet : m.Elsewhere → ρ.sends = []) (hh : handle w m ρ = some (w', out)) :
    ∀ m' ∈ out, m'.rank < m.rank := by
  intro m' hm'
  obtain ⟨s, h, hl, he, _, ⟨hm, _⟩ | ⟨a, ha, rfl⟩⟩ := hc.effect hX hh
  · cases he with
    | transferred => cases hm'
    | purchased hcalls hmsg =>
      obtain ⟨o, ho⟩ := hm.buyer hT hcalls hmsg
      simp only [List.mem_cons, List.not_mem_nil, or_false] at hm'
      rw [Mail.rank, Mail.rank, ho]
      rcases hm' with rfl | rfl <;> simp [Party.rank]
    | subscribed => cases hm'
    | heard => cases hm'
    | base hcalls hmsg =>
      obtain ⟨sm, _, rfl⟩ := List.mem_map.mp hm'
      exact Party.child_rank_lt (hm.base_origin hT hcalls hmsg)
    | childSubscribed => cases hm'
    | childHeard => cases hm'
    | dealerMigrated hmig =>
      obtain ⟨o, ho⟩ := hm.migrates hmig
      obtain ⟨c, _, rfl⟩ := List.mem_map.mp hm'
      simp [Mail.rank, ho, Party.rank]
    | childMigrated hmig =>
      obtain ⟨o, ho⟩ := hm.migrates hmig
      obtain ⟨c, _, rfl⟩ := List.mem_map.mp hm'
      simp [Mail.rank, ho, Party.rank]
    | elsewhere hn =>
      rw [Reaction.mail, hquiet hn] at hm'
      cases hm'
  · obtain ⟨rfl, _⟩ := announced_effect hX hT hl ha he
    cases hm'

theorem routed_descends (hX : X.Documented) (hT : X.Tagged) (s₀ : Dealer.State) :
    (machine X P).Descends (Routed s₀) (fun m ρ => m.Elsewhere → ρ.sends = []) Mail.rank (· < ·) where
  wellFounded := Nat.lt_wfRel.wf
  keeps hc hstep := hc.advance hX hT hstep
  lower hquiet hc hh := hc.lower hX hT hquiet hh

/-- However far a run has got and whatever transaction comes next: if its deliveries never end,
then again and again one of them is to an outsider that answers with messages. -/
theorem endless_needs_outsiders (hX : X.Documented) (hT : X.Tagged) {d : Deployment P}
    (hd : d.deploy = some w) (ts : List (List (Outsider P × CosmosMsg) × List (Reaction P)))
    (t : List (Outsider P × CosmosMsg)) {ρ : Nat → Reaction P} {c : Nat → World × List (Mail P)}
    (h₀ : c 0 = ((machine X P).run w ts, (machine X P).start t))
    (hstep : ∀ n, (machine X P).advance (ρ n) (c n) = some (c (n + 1))) (n : Nat) :
    ∃ k m ms, n ≤ k ∧ (c k).2 = m :: ms ∧ m.Elsewhere ∧ (ρ k).sends ≠ [] := by
  obtain ⟨s, hs⟩ := deploy_holds hX hT hd
  have hstart : Routed s (c 0) := by
    rw [h₀]
    exact (hs.run_routed hX hT ts).start t
  obtain ⟨k, m, ms, hk, hc, hnot⟩ := (routed_descends hX hT s).often hstart hstep n
  obtain ⟨helsewhere, hsends⟩ := Classical.not_imp.mp hnot
  exact ⟨k, m, ms, hk, hc, helsewhere, hsends⟩

end

section

open Reference Reference.Chain

/-- A message of the tracker to itself. -/
def toItself : CosmosMsg := .wasm (.execute "tracker" "tracker_v1" [] [])

/-- A tracker that calls itself whenever it is called. -/
def chatty : Reaction parties := { silent with sends := [(tracker, toItself)] }

theorem chatty_advance (w : World) :
    (machine crates parties).advance chatty (w, [⟨.third tracker, toItself⟩]) =
      some (w, [⟨.third tracker, toItself⟩]) := by
  have hresolve : resolve crates parties "tracker" = some .elsewhere := by decide +kernel
  simp [Machine.advance, machine, handle, toItself, hresolve, leaveTo, chatty, silent, Reaction.mail]

theorem chatty_start :
    (world, [⟨.third tracker, toItself⟩]) =
      ((machine crates parties).run world [],
        (machine crates parties).start [(tracker, toItself)]) := by
  rw [Machine.run_nil]
  rfl

theorem endless_needs_outsiders_chatty :
    (⟨.third tracker, toItself⟩ : Mail parties).Elsewhere ∧ chatty.sends ≠ [] := by
  obtain ⟨_, m, _, _, hwaiting, helsewhere, hsends⟩ := endless_needs_outsiders (ρ := fun _ => chatty)
    (c := fun _ => (world, [⟨.third tracker, toItself⟩])) crates_documented crates_tagged deploy_eq []
    [(tracker, toItself)] chatty_start (fun _ => chatty_advance world) 3
  cases hwaiting
  exact ⟨helsewhere, hsends⟩

end

end Snip721Migratable
