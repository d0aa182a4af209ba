import Snip721Migratable.Lib.Footprint
import Snip721Migratable.Migratable.Minters

/-!
# Migratable.Slots

How many contracts a migratable snip721 ever notifies. The instantiate message fixes a number of
slots, and every subscription that is accepted uses one up for good, also when the subscriber is
listed already or moves away later.

* `accepted` : the subscriptions that a run accepted.
* `Counted` : the invariant, with the number of subscriptions so far.
* `slots_are_used_up` : the slots after a run, and which subscriptions are accepted next.
-/

namespace Snip721Migratable
namespace Migratable

open Registry

def Op.subscribes : Op → Bool
  | .execute _ _ (.migrate (.subscribeToMigrationCompleteEvent ..)) => true
  | _ => false

/-- Whether the call was a subscription that was accepted. -/
def isAccepted (p : Op × Except Fault Response) : Bool :=
  match p.2 with
  | .ok _ => p.1.subscribes
  | .error _ => false

def accepted (tr : List (Op × Except Fault Response)) : Nat := tr.countP isAccepted

section

variable {X : Crates} {st st' : Store}

/-- Of `max` slots, `n` are used up. -/
structure Counted (X : Crates) (max n : Nat) (st : Store) : Prop where
  used : n ≤ max
  registry : ∃ reg, X.cw.registry st = some reg ∧ reg.slots = some (max - n) ∧
    reg.entries.length ≤ n

theorem Counted.keep {max n : Nat} {reg reg' : Registry CanonicalContractInfo}
    (hc : Counted X max n st) (hreg : X.cw.registry st = some reg)
    (hreg' : X.cw.registry st' = some reg') (hslots : reg'.slots = reg.slots)
    (hlength : reg'.entries.length = reg.entries.length) : Counted X max n st' := by
  obtain ⟨reg₀, hreg₀, hs, hl⟩ := hc.registry
  cases hreg.symm.trans hreg₀
  exact ⟨hc.used, reg', hreg', hslots.trans hs, by omega⟩

/-- A call that is accepted and subscribes takes a slot; no other call does. -/
theorem Counted.step (hX : X.Documented) {max n : Nat} (hc : Counted X max n st) (o : Op) :
    Counted X max (n + if isAccepted (o, (o.call X st).1) then 1 else 0) (step X st o) := by
  obtain ⟨reg, hreg, hslots, hlength⟩ := hc.registry
  rcases Prog.outcome (o.call X) st with ⟨r, st', h⟩ | ⟨e, st', h⟩
  · rw [Migratable.step, Prog.commit_of_ok h, h]
    simp only [isAccepted]
    cases o with
    | migrate env =>
      obtain ⟨rfl, _⟩ := (migrate_ok hX.cw hreg).mp h
      exact hc
    | execute env info msg =>
      rcases execute_cases hX hreg env h with ⟨baseMsg, rfl, _, hreg'⟩ |
        ⟨address, codeHash, raw, reg', rfl, _, _, _, hadd, hreg', _⟩ |
        ⟨migratedTo, data, sender, raw, l', rfl, _, _, _, hup, hreg', _⟩
      · exact hc.keep hreg hreg' rfl rfl
      · have hused := hc.used
        rcases add_counted hslots (⟨raw, codeHash⟩ : CanonicalContractInfo) with
          ⟨_, hfull⟩ | ⟨m, hm, hroom⟩
        · rw [hfull] at hadd
          cases hadd
        · rw [hroom] at hadd
          cases hadd
          have hle := length_insertNew_le (⟨raw, codeHash⟩ : CanonicalContractInfo) reg.entries
          simp only [Op.subscribes, if_true]
          refine ⟨by omega, _, hreg', ?_, ?_⟩
          · show some m = some (max - (n + 1))
            congr 1
            omega
          · show (insertNew _ _).length ≤ n + 1
            omega
      · exact hc.keep hreg hreg' rfl (hup.renamed hX.cw).length
  · rw [Migratable.step, Prog.commit_of_error h, h]
    exact hc

theorem Counted.run (hX : X.Documented) (ops : List Op) :
    ∀ {st : Store} {max n : Nat}, Counted X max n st →
      Counted X max (n + accepted (Prog.trace (Op.call X) st ops)) (run X st ops) := by
  induction ops with
  | nil => intro st max n hc; exact hc
  | cons o ops ih =>
    intro st max n hc
    have hrest := ih (hc.step hX o)
    rw [accepted, Prog.trace, List.countP_cons, Nat.add_comm (List.countP _ _), ← Nat.add_assoc]
    exact hrest

theorem Instantiated.counted (hX : X.Documented) {env : Env} {info : MessageInfo}
    {msg : InstantiateMsg} (h : Instantiated X env info msg st) :
    Counted X msg.maxMigrationCompleteEventSubscribers.toNat 0 st := by
  obtain ⟨r, hinst⟩ := h
  exact ⟨Nat.zero_le _, _, (instantiate_ok hX hinst).1, rfl, Nat.le_refl _⟩

/-- The next subscription is accepted if its address is valid and a slot is left. -/
theorem Counted.subscribe_iff (hX : X.Documented) {max n : Nat} (hc : Counted X max n st)
    (env : Env) (info : MessageInfo) (address codeHash : String) :
    (∃ r st', execute X env info
        (.migrate (.subscribeToMigrationCompleteEvent address codeHash)) st = (.ok r, st')) ↔
      (∃ a, X.api.addrValidate address = .ok a) ∧ n < max := by
  obtain ⟨reg, hreg, hslots, _⟩ := hc.registry
  have hused := hc.used
  constructor
  · intro haccepted
    obtain ⟨r, st', h⟩ := haccepted
    obtain ⟨_, _, valid, raw, reg', hv, _, hadd, _⟩ := hX.cw.register_ok hreg h
    refine ⟨⟨valid, hv⟩, ?_⟩
    rcases add_counted hslots (⟨raw, codeHash⟩ : CanonicalContractInfo) with ⟨_, hfull⟩ | ⟨m, hm, _⟩
    · rw [hfull] at hadd
      cases hadd
    · omega
  · rintro ⟨⟨a, hv⟩, hroom⟩
    obtain ⟨rfl, raw, hraw, _⟩ := hX.api.validate hv
    rcases add_counted hslots (⟨raw, codeHash⟩ : CanonicalContractInfo) with ⟨hfull, _⟩ | ⟨m, _, hadd⟩
    · omega
    · obtain ⟨st', hok⟩ := hX.cw.register_run hreg hv hraw hadd
      exact ⟨_, st', hok⟩

/-- After every run: as many slots are used up as subscriptions were accepted, never more than the
instantiate message gave, and never fewer than there are subscribers. A subscription is accepted
as long as a slot is left, whatever happened before. -/
theorem slots_are_used_up (hX : X.Documented) {env : Env} {info : MessageInfo}
    {msg : InstantiateMsg} (h : Instantiated X env info msg st) (ops : List Op) {n : Nat}
    (hn : accepted (Prog.trace (Op.call X) st ops) = n) :
    n ≤ msg.maxMigrationCompleteEventSubscribers.toNat ∧
    (X.cw.subscribers (run X st ops)).length ≤ n ∧
    (∃ reg, X.cw.registry (run X st ops) = some reg ∧
      reg.slots = some (msg.maxMigrationCompleteEventSubscribers.toNat - n)) ∧
    ∀ env info address codeHash,
      (∃ r st', execute X env info (.migrate (.subscribeToMigrationCompleteEvent address codeHash))
          (run X st ops) = (.ok r, st')) ↔
        (∃ a, X.api.addrValidate address = .ok a) ∧
          n < msg.maxMigrationCompleteEventSubscribers.toNat := by
  have hc := (h.counted hX).run hX ops
  rw [hn, Nat.zero_add] at hc
  obtain ⟨reg, hreg, hslots, hlength⟩ := hc.registry
  refine ⟨hc.used, ?_, ⟨reg, hreg, hslots⟩, fun env info => hc.subscribe_iff hX env info⟩
  rw [CwMigratable.subscribers_of_registry hreg]
  exact hlength

end

section

open Reference

/-- The child of a dealer has one slot. -/
theorem slots_are_used_up_token :
    (crates.cw.subscribers (run crates token [subscription])).length ≤ 1 ∧
    ¬ ∃ r st', execute crates tokenEnv dealer
      (.migrate (.subscribeToMigrationCompleteEvent "tracker" "tracker_v1"))
        (run crates token [subscription]) = (.ok r, st') := by
  obtain ⟨_, hlength, _, hnext⟩ := slots_are_used_up crates_documented token_instantiated
    [subscription] (n := 1) (by decide +kernel)
  refine ⟨hlength, ?_⟩
  rw [hnext]
  rintro ⟨_, hroom⟩
  exact absurd hroom (by decide)

end

end Migratable
end Snip721Migratable
