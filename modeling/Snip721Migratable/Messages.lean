import Snip721Migratable.Dealer.Run
import Snip721Migratable.Migratable.Contract
import Snip721Migratable.Reference.Crates

/-!
# Messages

How the untagged execute messages of the two contracts travel. Each contract reads a byte string
by trying its three enums in turn. The enums have no tag in common, so at most one of them accepts
a byte string, and the order they are tried in does not matter.

* `Unambiguous` : what unambiguous decoding means for a chain of decoders.
* `Unambiguous.of_chain` : three enums that have no tag in common decode unambiguously.
* `Dealer.visitBytes_toBytes`, `Migratable.visitBytes_toBytes` : what is written is read back, in
  the same arm.
* `messages_decode_unambiguously` : both contracts decode unambiguously, and the messages that they
  send each other arrive where they are meant to.
-/

namespace Snip721Migratable

/-- The answer of a chain of decoders, as the `visit_bytes` functions give it. -/
def orUnsupported {α : Type} : Option α → StdResult α
  | some msg => .ok msg
  | none => .error (.genericErr "Unsupported Execute message")

theorem orUnsupported_ok {α : Type} {o : Option α} {a : α} :
    orUnsupported o = .ok a ↔ o = some a := by
  cases o <;> simp [orUnsupported]

/-- What unambiguous decoding means for a chain of decoders that the function `visit` tries. -/
structure Unambiguous {α : Type} (decoders : List (Binary → Option α)) (toBytes : α → Binary)
    (visit : Binary → StdResult α) : Prop where
  round_trip : ∀ m, visit (toBytes m) = .ok m
  at_most_one : Exclusive decoders
  any_order : ∀ ds, ds.Perm decoders → ∀ v, visit v = orUnsupported (firstSuccess ds v)
  accepts_iff : ∀ v, (∃ m, visit v = .ok m) ↔ ∃ d ∈ decoders, (d v).isSome

/-! ## Three enums in one -/

section Chain

variable {α β γ δ : Type} {T : JsonText} {e₁ : TaggedEnum α} {e₂ : TaggedEnum β}
  {e₃ : TaggedEnum γ} {f₁ : α → δ} {f₂ : β → δ} {f₃ : γ → δ}

/-- The answer `r` of a function that tries the three enums in turn. -/
theorem eq_chain {r : StdResult δ} {v : Binary}
    (h₁ : ∀ a, T.fromSlice e₁.codec v = some a → r = .ok (f₁ a))
    (h₂ : T.fromSlice e₁.codec v = none → ∀ b, T.fromSlice e₂.codec v = some b → r = .ok (f₂ b))
    (h₃ : T.fromSlice e₁.codec v = none → T.fromSlice e₂.codec v = none →
      ∀ c, T.fromSlice e₃.codec v = some c → r = .ok (f₃ c))
    (hnone : T.fromSlice e₁.codec v = none → T.fromSlice e₂.codec v = none →
      T.fromSlice e₃.codec v = none → r = .error (.genericErr "Unsupported Execute message")) :
    r = orUnsupported (firstSuccess [e₁.arm T f₁, e₂.arm T f₂, e₃.arm T f₃] v) := by
  simp only [firstSuccess, TaggedEnum.arm]
  cases ha : T.fromSlice e₁.codec v with
  | some a => exact h₁ a ha
  | none =>
    cases hb : T.fromSlice e₂.codec v with
    | some b => exact h₂ ha b hb
    | none =>
      cases hc : T.fromSlice e₃.codec v with
      | some c => exact h₃ ha hb c hc
      | none => exact hnone ha hb hc

theorem exclusive_chain (h₁₂ : ∀ t ∈ e₁.tags, t ∉ e₂.tags) (h₁₃ : ∀ t ∈ e₁.tags, t ∉ e₃.tags)
    (h₂₃ : ∀ t ∈ e₂.tags, t ∉ e₃.tags) :
    Exclusive [e₁.arm T f₁, e₂.arm T f₂, e₃.arm T f₃] := by
  have h₁ := e₁.arms_exclusive e₂ T f₁ f₂ h₁₂
  have h₂ := e₁.arms_exclusive e₃ T f₁ f₃ h₁₃
  have h₃ := e₂.arms_exclusive e₃ T f₂ f₃ h₂₃
  simp only [Exclusive, List.pairwise_cons, List.mem_cons, List.not_mem_nil, or_false,
    forall_eq_or_imp, forall_eq]
  exact ⟨⟨h₁, h₂⟩, h₃, by simp⟩

theorem Unambiguous.of_chain {toBytes : δ → Binary} {visit : Binary → StdResult δ}
    (hx : Exclusive [e₁.arm T f₁, e₂.arm T f₂, e₃.arm T f₃])
    (hvisit : ∀ v, visit v = orUnsupported (firstSuccess [e₁.arm T f₁, e₂.arm T f₂, e₃.arm T f₃] v))
    (hwrite : ∀ m, (∃ a, m = f₁ a ∧ toBytes m = T.toBytes e₁.codec a) ∨
      (∃ b, m = f₂ b ∧ toBytes m = T.toBytes e₂.codec b) ∨
      ∃ c, m = f₃ c ∧ toBytes m = T.toBytes e₃.codec c) :
    Unambiguous [e₁.arm T f₁, e₂.arm T f₂, e₃.arm T f₃] toBytes visit where
  round_trip m := by
    rw [hvisit, orUnsupported_ok, firstSuccess_eq_some _ hx]
    -- a message is written so that its own decoder reads it
    rcases hwrite m with ⟨a, rfl, hb⟩ | ⟨b, rfl, hb⟩ | ⟨c, rfl, hb⟩
    · rw [hb]; exact ⟨_, .head _, e₁.arm_toBytes T f₁ a⟩
    · rw [hb]; exact ⟨_, .tail _ (.head _), e₂.arm_toBytes T f₂ b⟩
    · rw [hb]; exact ⟨_, .tail _ (.tail _ (.head _)), e₃.arm_toBytes T f₃ c⟩
  at_most_one := hx
  any_order ds hp v := by rw [hvisit, firstSuccess_perm hp.symm hx]
  accepts_iff v := by
    rw [← firstSuccess_isSome, Option.isSome_iff_exists, hvisit]
    simp only [orUnsupported_ok]

end Chain

/-! ## The two contracts -/

namespace Dealer

variable (X : Crates)

/-- The decoders, in the order they are tried. -/
def decoders : List (Binary → Option ExecuteMsg) :=
  [dealerExecuteMsg.arm X.json .dealer, X.cw.migratableExecuteMsg.arm X.json .migrate,
    X.cw.migrationListenerExecuteMsg.arm X.json .migrateListener]

variable {X}

theorem unambiguous (hT : X.Tagged) :
    Unambiguous (decoders X) (ExecuteMsg.toBytes X) (visitBytes X) := by
  refine .of_chain (exclusive_chain ?_ ?_ ?_) ?_ ?_
  · rw [hT.migratable]; decide
  · rw [hT.migrationListener]; decide
  · rw [hT.migratable, hT.migrationListener]; decide
  · intro v
    refine eq_chain ?_ ?_ ?_ ?_ <;> simp +contextual [visitBytes]
  · intro m
    cases m with
    | dealer msg => exact .inl ⟨msg, rfl, rfl⟩
    | migrate msg => exact .inr (.inl ⟨msg, rfl, rfl⟩)
    | migrateListener msg => exact .inr (.inr ⟨msg, rfl, rfl⟩)

theorem visitBytes_toBytes (hT : X.Tagged) (m : ExecuteMsg) :
    visitBytes X (m.toBytes X) = .ok m := (unambiguous hT).round_trip m

end Dealer

namespace Migratable

variable (X : Crates)

/-- The decoders, in the order they are tried. -/
def decoders : List (Binary → Option ExecuteMsg) :=
  [X.impl.executeMsg.arm X.json .base, X.cw.migratableExecuteMsg.arm X.json .migrate,
    X.cw.migrationListenerExecuteMsg.arm X.json .migrateListener]

variable {X}

theorem unambiguous (hT : X.Tagged) :
    Unambiguous (decoders X) (ExecuteMsg.toBytes X) (visitBytes X) := by
  refine .of_chain (exclusive_chain ?_ ?_ ?_) ?_ ?_
  · rw [hT.impl, hT.migratable]; decide
  · rw [hT.impl, hT.migrationListener]; decide
  · rw [hT.migratable, hT.migrationListener]; decide
  · intro v
    refine eq_chain ?_ ?_ ?_ ?_ <;> simp +contextual [visitBytes]
  · intro m
    cases m with
    | base msg => exact .inl ⟨msg, rfl, rfl⟩
    | migrate msg => exact .inr (.inl ⟨msg, rfl, rfl⟩)
    | migrateListener msg => exact .inr (.inr ⟨msg, rfl, rfl⟩)

theorem visitBytes_toBytes (hT : X.Tagged) (m : ExecuteMsg) :
    visitBytes X (m.toBytes X) = .ok m := (unambiguous hT).round_trip m

end Migratable

section

variable {X : Crates}

/-- The messages that the contracts send each other arrive where they are meant to: what the
dealer sends for a purchase and after the instantiation, and what either of them sends when it
migrates. -/
structure Delivery (X : Crates) : Prop where
  purchase : ∀ {st st' : Store} {s : Dealer.State} {info : MessageInfo} {r : Response},
    Dealer.Holds X st s → Dealer.purchaseAndMint X info st = (.ok r, st') →
    ∃ pay child b, r.messages =
        [pay, SubMsg.new (.wasm (.execute child s.child.codeHash b []))] ∧
      Migratable.visitBytes X b = .ok (.base (Dealer.mintNftMsg info.sender s.metadata))
  reply : ∀ {env replyEnv : Env} {info : MessageInfo} {msg : Dealer.InstantiateMsg} {rep : Reply}
      {st₀ st : Store} {r r' : Response},
    Dealer.instantiate X env info msg Store.empty = (.ok r, st₀) →
    Dealer.reply X replyEnv rep st₀ = (.ok r', st) →
    ∃ child admin b b', r'.messages =
        [SubMsg.new (.wasm (.execute child msg.snip721CodeHash b [])),
          SubMsg.new (.wasm (.execute child msg.snip721CodeHash b' []))] ∧
      Migratable.visitBytes X b = .ok (.migrate (.subscribeToMigrationCompleteEvent
        replyEnv.contract.address replyEnv.contract.codeHash)) ∧
      Migratable.visitBytes X b' = .ok (.base (.changeAdmin admin none))
  migration : ∀ {env : Env} {st st' : Store} {r : Response},
    Dealer.migrate X env st = (.ok r, st') ∨ Migratable.migrate X env st = (.ok r, st') →
    ∀ m ∈ r.messages, ∃ address codeHash b,
      m = SubMsg.new (.wasm (.execute address codeHash b [])) ∧
      Dealer.visitBytes X b =
        .ok (.migrateListener (.migrationCompleteNotification env.contract none)) ∧
      Migratable.visitBytes X b =
        .ok (.migrateListener (.migrationCompleteNotification env.contract none))

theorem delivery (hX : X.Documented) (hT : X.Tagged) : Delivery X where
  purchase hs h := by
    obtain ⟨_, _, _, childAddr, _, _, _, _, hr⟩ := (Dealer.purchaseAndMint_ok hs).mp h
    exact ⟨_, childAddr, _, hr, Migratable.visitBytes_toBytes hT (.base _)⟩
  reply hinst hrep := by
    obtain ⟨_, child, admin, _, hr⟩ := Dealer.instantiated_messages hX hinst hrep
    exact ⟨child, admin, _, _, hr, Migratable.visitBytes_toBytes hT (.migrate _),
      Migratable.visitBytes_toBytes hT (.base _)⟩
  migration := by
    intro env st st' r h m hm
    have hn : notifySubscribers X env st = (.ok r, st') := h.elim id id
    obtain ⟨_, cs, _, hr⟩ := (notifySubscribers_ok hX.cw).mp hn
    rw [hr] at hm
    obtain ⟨c, _, rfl⟩ := List.mem_map.mp hm
    exact ⟨c.address, c.codeHash, _, rfl, Dealer.visitBytes_toBytes hT (.migrateListener _),
      Migratable.visitBytes_toBytes hT (.migrateListener _)⟩

end

/-- Both contracts decode execute messages unambiguously, and read each other's messages as what
they were sent as. -/
theorem messages_decode_unambiguously {X : Crates} (hX : X.Documented) (hT : X.Tagged) :
    Unambiguous (Dealer.decoders X) (Dealer.ExecuteMsg.toBytes X) (Dealer.visitBytes X) ∧
    Unambiguous (Migratable.decoders X) (Migratable.ExecuteMsg.toBytes X)
      (Migratable.visitBytes X) ∧
    Delivery X :=
  ⟨Dealer.unambiguous hT, Migratable.unambiguous hT, delivery hX hT⟩

theorem messages_decode_unambiguously_reference :
    Unambiguous (Dealer.decoders Reference.crates) (Dealer.ExecuteMsg.toBytes Reference.crates)
      (Dealer.visitBytes Reference.crates) ∧
    Unambiguous (Migratable.decoders Reference.crates)
      (Migratable.ExecuteMsg.toBytes Reference.crates) (Migratable.visitBytes Reference.crates) ∧
    Delivery Reference.crates :=
  messages_decode_unambiguously Reference.crates_documented Reference.crates_tagged

end Snip721Migratable
