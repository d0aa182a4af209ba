/-!
# Lib.Store

A store of byte strings under string keys, read and written through typed items. An item is a
key and a codec; nothing keeps other code from writing bytes under the key that the codec does
not read, so loading can fail in two ways, and `mayLoad` forgives only the first.

* `load_save`, `load_save_ne` : an item reads back what it saved, and other items are not
  disturbed.
* `load_ok_iff`, `load_absent_iff`, `load_corrupt_iff` : the outcomes of loading, by the bytes
  under the key.
* `EqOff ks st st'` : the frame condition. `st'` differs from `st` under the keys `ks` at most.
-/

abbrev Bytes := List UInt8

/-- An encoding into byte strings that can be read back. -/
structure Codec (α : Type) where
  encode : α → Bytes
  decode : Bytes → Option α
  decode_encode : ∀ a, decode (encode a) = some a

abbrev Store := String → Option Bytes

inductive LoadError where
  | absent
  | corrupt
  deriving DecidableEq, Repr

/-- `typeName` is what error reports call the item's type. -/
structure Item (α : Type) where
  key : String
  typeName : String
  codec : Codec α

namespace Store

def empty : Store := fun _ => none

/-- The frame condition: only the keys `ks` may have changed. -/
def EqOff (ks : List String) (st st' : Store) : Prop := ∀ k, k ∉ ks → st' k = st k

theorem EqOff.refl (ks : List String) (st : Store) : EqOff ks st st := fun _ _ => rfl

theorem EqOff.trans {ks : List String} {st st₁ st₂ : Store} (h : EqOff ks st st₁)
    (h' : EqOff ks st₁ st₂) : EqOff ks st st₂ := by
  intro k hk
  rw [h' k hk, h k hk]

theorem EqOff.mono {ks ks' : List String} {st st' : Store} (h : EqOff ks st st')
    (hks : ∀ k ∈ ks, k ∈ ks') : EqOff ks' st st' :=
  fun k hk => h k fun hk' => hk (hks k hk')

end Store

namespace Item

variable {α β : Type}

def load (i : Item α) (st : Store) : Except LoadError α :=
  match st i.key with
  | none => .error .absent
  | some b =>
    match i.codec.decode b with
    | some a => .ok a
    | none => .error .corrupt

/-- Like `load`, but an absent key is an answer. -/
def mayLoad (i : Item α) (st : Store) : Except LoadError (Option α) :=
  match i.load st with
  | .ok a => .ok (some a)
  | .error .absent => .ok none
  | .error .corrupt => .error .corrupt

def save (i : Item α) (a : α) (st : Store) : Store :=
  fun k => if k = i.key then some (i.codec.encode a) else st k

theorem load_ok_iff {i : Item α} {st : Store} {a : α} :
    i.load st = .ok a ↔ ∃ b, st i.key = some b ∧ i.codec.decode b = some a := by
  unfold load
  cases st i.key with
  | none => simp
  | some b => cases hb : i.codec.decode b <;> simp [hb]

theorem load_absent_iff {i : Item α} {st : Store} :
    i.load st = .error .absent ↔ st i.key = none := by
  unfold load
  cases st i.key with
  | none => simp
  | some b => cases hb : i.codec.decode b <;> simp [hb]

theorem load_corrupt_iff {i : Item α} {st : Store} :
    i.load st = .error .corrupt ↔ ∃ b, st i.key = some b ∧ i.codec.decode b = none := by
  unfold load
  cases st i.key with
  | none => simp
  | some b => cases hb : i.codec.decode b <;> simp [hb]

@[simp] theorem load_save (i : Item α) (a : α) (st : Store) : i.load (i.save a st) = .ok a := by
  simp [load, save, i.codec.decode_encode]

theorem load_congr (i : Item α) {st st' : Store} (h : st' i.key = st i.key) :
    i.load st' = i.load st := by
  simp [load, h]

theorem mayLoad_congr (i : Item α) {st st' : Store} (h : st' i.key = st i.key) :
    i.mayLoad st' = i.mayLoad st := by
  simp [mayLoad, i.load_congr h]

theorem save_ne (i : Item α) (a : α) (st : Store) {k : String} (h : k ≠ i.key) :
    i.save a st k = st k := by
  simp [save, h]

/-- An item under another key reads as before. -/
theorem load_save_ne (i : Item α) (j : Item β) (b : β) (st : Store) (h : i.key ≠ j.key) :
    i.load (j.save b st) = i.load st :=
  i.load_congr (j.save_ne b st h)

theorem save_eqOff (i : Item α) (a : α) (st : Store) : Store.EqOff [i.key] st (i.save a st) :=
  fun k hk => i.save_ne a st (by simpa using hk)

theorem load_of_eqOff (i : Item α) {ks : List String} {st st' : Store}
    (h : Store.EqOff ks st st') (hk : i.key ∉ ks) : i.load st' = i.load st :=
  i.load_congr (h i.key hk)

theorem mayLoad_of_load {i : Item α} {st : Store} {a : α} (h : i.load st = .ok a) :
    i.mayLoad st = .ok (some a) := by
  simp [mayLoad, h]

end Item
