import Snip721Migratable.System.Completion

/-!
# System.Replay

The chain, and the two contracts by themselves. What a run of the chain does with a dealer and its
child is a history of calls. If each of the two contracts is called by itself, in the order of the
history, then it completes every call and ends with the storage that it has on the chain. So what
holds after all runs of one contract alone holds of it on the chain.

* `Genuine` : a call as the chain makes it.
* `Replay` : the history of a world, as runs of the two contracts.
* `world_replays_both_contracts` : every world has a history, which goes on as the run goes on.
-/

namespace Snip721Migratable

/-- A call of one of the two contracts. -/
abbrev ContractCall := Dealer.Op ⊕ Migratable.Op

def dealerCalls (history : List ContractCall) : List Dealer.Op := history.filterMap Sum.getLeft?

def childCalls (history : List ContractCall) : List Migratable.Op :=
  history.filterMap Sum.getRight?

section

variable {X : Crates} (P : Parties X)

/-- The contract is told its own address, and the address of a sender in its normal form. -/
def Genuine : ContractCall → Prop
  | .inl (.execute env info _) =>
    env.contract.address = P.dealer ∧ ∃ p : Party P, info.sender = p.addr
  | .inl (.migrate env) => env.contract.address = P.dealer
  | .inr (.execute env info _) =>
    env.contract.address = P.child ∧ ∃ p : Party P, info.sender = p.addr
  | .inr (.migrate env) => env.contract.address = P.child

structure Replay (dealer child : Store) (history : List ContractCall) (w : World) : Prop where
  dealer : Prog.Completes (Dealer.Op.call X) dealer (dealerCalls history) w.dealer
  child : Prog.Completes (Migratable.Op.call X) child (childCalls history) w.child
  genuine : ∀ c ∈ history, Genuine P c

variable {P} {dealer child : Store} {history : List ContractCall} {w w' : World} {m : Mail P}
  {ρ : Reaction P} {out : List (Mail P)} {r : Response}

/-! ## Deliveries -/

theorem Replay.keep (h : Replay P dealer child history w) (hdealer : w'.dealer = w.dealer)
    (hchild : w'.child = w.child) : ∃ more, Replay P dealer child (history ++ more) w' := by
  refine ⟨[], ?_, ?_, ?_⟩
  · rw [List.append_nil, hdealer]
    exact h.dealer
  · rw [List.append_nil, hchild]
    exact h.child
  · rw [List.append_nil]
    exact h.genuine

theorem Replay.genuine_snoc (h : Replay P dealer child history w) {c : ContractCall}
    (hc : Genuine P c) : ∀ c' ∈ history ++ [c], Genuine P c' := by
  intro c' hc'
  rcases List.mem_append.mp hc' with hc' | hc'
  · exact h.genuine c' hc'
  · rw [List.mem_singleton.mp hc']
    exact hc

theorem Replay.dealerCalled (h : Replay P dealer child history w) {o : Dealer.Op}
    (hcall : o.call X w.dealer = (.ok r, w'.dealer)) (hchild : w'.child = w.child)
    (ho : Genuine P (.inl o)) : ∃ more, Replay P dealer child (history ++ more) w' := by
  refine ⟨[.inl o], ?_, ?_, h.genuine_snoc ho⟩
  · have hcalls : dealerCalls (history ++ [.inl o]) = dealerCalls history ++ [o] := by
      simp [dealerCalls]
    rw [hcalls]
    exact .snoc h.dealer hcall
  · have hcalls : childCalls (history ++ [.inl o]) = childCalls history := by simp [childCalls]
    rw [hcalls, hchild]
    exact h.child

theorem Replay.childCalled (h : Replay P dealer child history w) {o : Migratable.Op}
    (hcall : o.call X w.child = (.ok r, w'.child)) (hdealer : w'.dealer = w.dealer)
    (ho : Genuine P (.inr o)) : ∃ more, Replay P dealer child (history ++ more) w' := by
  refine ⟨[.inr o], ?_, ?_, h.genuine_snoc ho⟩
  · have hcalls : dealerCalls (history ++ [.inr o]) = dealerCalls history := by simp [dealerCalls]
    rw [hcalls, hdealer]
    exact h.dealer
  · have hcalls : childCalls (history ++ [.inr o]) = childCalls history ++ [o] := by
      simp [childCalls]
    rw [hcalls]
    exact .snoc h.child hcall

/-- A delivery is at most one call. -/
theorem Replay.delivered (h : Replay P dealer child history w)
    (hh : handle w m ρ = some (w', out)) :
    ∃ more, Replay P dealer child (history ++ more) w' := by
  cases handle_cases hh with
  | bank => exact h.keep rfl rfl
  | @executeDealer a codeHash b funds msg r st _ _ _ _ hcall =>
    exact h.dealerCalled (o := .execute (ρ.env ⟨P.dealer, w.dealerHash⟩)
      { sender := m.origin.addr, funds } msg) hcall rfl ⟨rfl, m.origin, rfl⟩
  | @executeChild a codeHash b funds msg r st _ _ _ _ hcall =>
    exact h.childCalled (o := .execute (ρ.env ⟨P.child, w.childHash⟩)
      { sender := m.origin.addr, funds } msg) hcall rfl ⟨rfl, m.origin, rfl⟩
  | migrateDealer _ _ _ _ hcall =>
    exact h.dealerCalled (o := .migrate (ρ.env ⟨P.dealer, _⟩)) hcall rfl rfl
  | migrateChild _ _ _ _ hcall =>
    exact h.childCalled (o := .migrate (ρ.env ⟨P.child, _⟩)) hcall rfl rfl
  | elsewhere => exact h.keep rfl rfl

/-! ## Runs -/

/-- The history goes on from `history`. -/
def GoesOn (P : Parties X) (dealer child : Store) (history : List ContractCall) (w : World) :
    Prop :=
  ∃ more, Replay P dealer child (history ++ more) w

theorem GoesOn.advance {c c' : World × List (Mail P)} (h : GoesOn P dealer child history c.1)
    (hstep : (machine X P).advance ρ c = some c') : GoesOn P dealer child history c'.1 := by
  obtain ⟨more, h⟩ := h
  obtain ⟨w, m, ms, w', out, rfl, hh, rfl⟩ := Machine.advance_eq_some.mp hstep
  obtain ⟨more', h'⟩ := h.delivered hh
  rw [List.append_assoc] at h'
  exact ⟨more ++ more', h'⟩

theorem GoesOn.transact (h : GoesOn P dealer child history w) {ms : List (Mail P)}
    {ρs : List (Reaction P)} (ht : (machine X P).transact w ms ρs = some w') :
    GoesOn P dealer child history w' :=
  Machine.deliver_inv (I := fun c => GoesOn P dealer child history c.1)
    (fun _ _ _ _ hc hstep => hc.advance hstep) ρs _ _ (Machine.along_true ρs (w, ms)) h
    (Machine.transact_eq_some.mp ht)

theorem GoesOn.run (h : GoesOn P dealer child history w)
    (ts : List (List (Outsider P × CosmosMsg) × List (Reaction P))) :
    GoesOn P dealer child history ((machine X P).run w ts) :=
  Machine.run_inv_all (I := fun c => GoesOn P dealer child history c.1)
    (J := GoesOn P dealer child history) (fun _ _ hw => hw)
    (fun _ _ _ hc hstep => hc.advance hstep) (fun _ hw => hw) ts w h

/-- Between any two moments of a run of the chain, the two contracts have done what each of them
does by itself when it is created by the same messages and then gets its part of the history. -/
theorem world_replays_both_contracts (hX : X.Documented) {d : Deployment P}
    (hd : d.deploy = some w) :
    ∃ dealer child,
      Dealer.Instantiated X d.dealerEnv d.info d.msg d.dealerEnv
        (d.childReply Dealer.instantiateSnip721ReplyId) dealer ∧
      Migratable.Instantiated X (d.env ⟨P.child, d.msg.snip721CodeHash⟩)
        { sender := P.dealer, funds := [] }
        ⟨(Dealer.childInstantiateMsg d.dealerEnv d.msg).instantiate, 1⟩ child ∧
      ∀ ts us, ∃ history more,
        Replay P dealer child history ((machine X P).run w ts) ∧
        Replay P dealer child (history ++ more) ((machine X P).run w (ts ++ us)) ∧
        Dealer.run X dealer (dealerCalls history) = ((machine X P).run w ts).dealer ∧
        Migratable.run X child (childCalls history) = ((machine X P).run w ts).child := by
  obtain ⟨r, st₀, A, rc, ch, hinst, _, hchild, _, hreply⟩ := (deploy_phases hX).mp hd
  obtain ⟨r', st, hrep, ht⟩ := replyDealer_eq_some.mp hreply
  refine ⟨st, ch, ⟨r, st₀, r', hinst, hrep⟩, ⟨rc, hchild⟩, fun ts us => ?_⟩
  have hcreated : Replay P st ch [] { d.created st₀ ch A with dealer := st } :=
    ⟨.nil, .nil, by simp⟩
  have hdeployed : GoesOn P st ch [] w := GoesOn.transact ⟨[], hcreated⟩ ht
  obtain ⟨history, hts⟩ := hdeployed.run ts
  rw [List.nil_append] at hts
  have hgoesOn : GoesOn P st ch history ((machine X P).run w ts) :=
    ⟨[], by rw [List.append_nil]; exact hts⟩
  obtain ⟨more, hus⟩ := hgoesOn.run us
  rw [← Machine.run_append] at hus
  exact ⟨history, more, hts, hus, hts.dealer.runAll_eq, hts.child.runAll_eq⟩

end

section

open Reference Reference.Chain

/-- The two sales with a migration of the child in between. -/
theorem world_replays_both_contracts_chain :
    ∃ dealer child history,
      Dealer.run crates dealer (dealerCalls history) =
        ((machine crates parties).run world sales).dealer ∧
      Migratable.run crates child (childCalls history) =
        ((machine crates parties).run world sales).child ∧
      ∀ c ∈ history, Genuine parties c := by
  obtain ⟨dealer, child, _, _, hruns⟩ := world_replays_both_contracts crates_documented deploy_eq
  obtain ⟨history, _, hreplay, _, hdealer, hchild⟩ := hruns sales []
  exact ⟨dealer, child, history, hdealer, hchild, hreplay.genuine⟩

end

end Snip721Migratable
