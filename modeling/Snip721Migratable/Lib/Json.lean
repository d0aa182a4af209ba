import Snip721Migratable.Lib.Store

/-!
# Lib.Json

JSON documents, and the shapes a derived serializer gives to structs and enums.

* `JsonText` : writing documents as byte strings and reading them back. The reader may accept
  more than the writer writes; nothing is assumed about the byte strings it refuses.
* `JsonCodec` : a type with its document form. `fromSlice` reads a value from a byte string.
* `TaggedEnum` : an externally tagged enum. A value is an object with one key, the variant's tag,
  over the variant's payload. `tag_unique`: the document of a value names its tag.
* `firstSuccess` : an untagged enum, decoded by trying decoders in turn. When no document is
  accepted by two of them (`Exclusive`), the order does not matter (`firstSuccess_perm`).
-/

inductive Json where
  | null
  | bool (b : Bool)
  | num (n : Nat)
  | str (s : String)
  | arr (elems : List Json)
  | obj (fields : List (String × Json))
  deriving Repr, Inhabited

namespace Json

/-- The value of the one field called `name`; a missing or repeated field is an error. -/
def field? (name : String) : Json → Option Json
  | .obj fields =>
    match fields.filter (fun f => f.1 == name) with
    | [f] => some f.2
    | _ => none
  | _ => none

/-- The values of all fields called `name`. -/
def named (name : String) : Json → List Json
  | .obj fields => (fields.filter (fun f => f.1 == name)).map Prod.snd
  | _ => []

theorem named_of_field? {name : String} {j v : Json} (h : j.field? name = some v) :
    j.named name = [v] := by
  unfold field? at h
  split at h
  · split at h
    · rename_i f hf
      cases h
      simp [named, hf]
    · cases h
  · cases h

def str? : Json → Option String
  | .str s => some s
  | _ => none

def nat? : Json → Option Nat
  | .num n => some n
  | _ => none

/-- The key of an object that has exactly one. -/
def soleKey? : Json → Option String
  | .obj [(k, _)] => some k
  | _ => none

end Json

/-- Documents as byte strings. -/
structure JsonText where
  render : Json → Bytes
  parse : Bytes → Option Json
  parse_render : ∀ j, parse (render j) = some j

/-- A type with its document form. -/
structure JsonCodec (α : Type) where
  toJson : α → Json
  ofJson : Json → Option α
  ofJson_toJson : ∀ a, ofJson (toJson a) = some a

namespace JsonText

variable {α : Type}

def fromSlice (T : JsonText) (c : JsonCodec α) (b : Bytes) : Option α :=
  (T.parse b).bind c.ofJson

def toBytes (T : JsonText) (c : JsonCodec α) (a : α) : Bytes := T.render (c.toJson a)

@[simp] theorem fromSlice_toBytes (T : JsonText) (c : JsonCodec α) (a : α) :
    T.fromSlice c (T.toBytes c a) = some a := by
  simp [fromSlice, toBytes, T.parse_render, c.ofJson_toJson]

/-- The tag a byte string carries, if it spells an object with one key. -/
def tagOf (T : JsonText) (b : Bytes) : Option String := (T.parse b).bind Json.soleKey?

end JsonText

/-! ## Externally tagged enums -/

structure TaggedEnum (α : Type) where
  tags : List String
  tag : α → String
  payload : α → Json
  read : String → Json → Option α
  tag_mem : ∀ a, tag a ∈ tags
  read_payload : ∀ a, read (tag a) (payload a) = some a
  tag_of_read : ∀ {t p a}, read t p = some a → tag a = t

namespace TaggedEnum

variable {α β : Type}

def toJson (e : TaggedEnum α) (a : α) : Json := .obj [(e.tag a, e.payload a)]

def ofJson (e : TaggedEnum α) : Json → Option α
  | .obj [(t, p)] => e.read t p
  | _ => none

def codec (e : TaggedEnum α) : JsonCodec α where
  toJson := e.toJson
  ofJson := e.ofJson
  ofJson_toJson a := e.read_payload a

/-- A document the decoder accepts is an object whose only key is the value's tag. -/
theorem soleKey_of_ofJson (e : TaggedEnum α) {j : Json} {a : α} (h : e.ofJson j = some a) :
    j.soleKey? = some (e.tag a) := by
  unfold ofJson at h
  split at h
  · rename_i t p
    simp [Json.soleKey?, e.tag_of_read h]
  · cases h

theorem tagOf_of_fromSlice (e : TaggedEnum α) {T : JsonText} {b : Bytes} {a : α}
    (h : T.fromSlice e.codec b = some a) : T.tagOf b = some (e.tag a) := by
  simp only [JsonText.fromSlice, Option.bind_eq_some_iff] at h
  obtain ⟨j, hj, ha⟩ := h
  simp only [JsonText.tagOf, hj, Option.bind_some]
  exact e.soleKey_of_ofJson ha

@[simp] theorem tagOf_toBytes (e : TaggedEnum α) (T : JsonText) (a : α) :
    T.tagOf (T.toBytes e.codec a) = some (e.tag a) :=
  e.tagOf_of_fromSlice (T.fromSlice_toBytes e.codec a)

/-- A byte string whose tag the enum does not have is refused. -/
theorem fromSlice_eq_none (e : TaggedEnum α) {T : JsonText} {b : Bytes}
    (h : ∀ t, T.tagOf b = some t → t ∉ e.tags) : T.fromSlice e.codec b = none := by
  cases ha : T.fromSlice e.codec b with
  | none => rfl
  | some a => exact absurd (e.tag_mem a) (h _ (e.tagOf_of_fromSlice ha))

/-- Two enums without a common tag accept no byte string in common. -/
theorem exclusive_of_disjoint (e : TaggedEnum α) (e' : TaggedEnum β) (T : JsonText)
    (hd : ∀ t ∈ e.tags, t ∉ e'.tags) (b : Bytes) :
    T.fromSlice e.codec b = none ∨ T.fromSlice e'.codec b = none := by
  cases ha : T.fromSlice e.codec b with
  | none => exact .inl rfl
  | some a =>
    right
    refine e'.fromSlice_eq_none ?_
    intro t ht
    rw [e.tagOf_of_fromSlice ha] at ht
    cases ht
    exact hd _ (e.tag_mem a)

/-- The decoder of an enum that is one arm of a larger one. -/
def arm {γ : Type} (e : TaggedEnum α) (T : JsonText) (f : α → γ) (b : Bytes) : Option γ :=
  (T.fromSlice e.codec b).map f

theorem arm_toBytes {γ : Type} (e : TaggedEnum α) (T : JsonText) (f : α → γ) (a : α) :
    e.arm T f (T.toBytes e.codec a) = some (f a) := by
  simp [arm]

theorem arms_exclusive {γ : Type} (e : TaggedEnum α) (e' : TaggedEnum β) (T : JsonText)
    (f : α → γ) (f' : β → γ) (hd : ∀ t ∈ e.tags, t ∉ e'.tags) (b : Bytes) :
    e.arm T f b = none ∨ e'.arm T f' b = none := by
  refine (e.exclusive_of_disjoint e' T hd b).imp ?_ ?_ <;>
    · intro h; rw [arm, h]; rfl

end TaggedEnum

/-! ## Untagged enums: the first decoder that succeeds -/

section Untagged

variable {α β : Type}

/-- Tries the decoders in turn; the first answer counts. -/
def firstSuccess : List (α → Option β) → α → Option β
  | [], _ => none
  | d :: ds, a =>
    match d a with
    | some b => some b
    | none => firstSuccess ds a

/-- No input is accepted by two decoders of the list. -/
def Exclusive (ds : List (α → Option β)) : Prop :=
  ds.Pairwise fun d d' => ∀ a, d a = none ∨ d' a = none

theorem firstSuccess_isSome (ds : List (α → Option β)) (a : α) :
    (firstSuccess ds a).isSome ↔ ∃ d ∈ ds, (d a).isSome := by
  induction ds with
  | nil => simp [firstSuccess]
  | cons d ds ih =>
    simp only [firstSuccess, List.mem_cons, exists_eq_or_imp]
    split
    · rename_i b hb; simp [hb]
    · rename_i hb; simp [hb, ih]

/-- With exclusive decoders the answer is the one of whichever decoder accepts. -/
theorem firstSuccess_eq_some (ds : List (α → Option β)) (hx : Exclusive ds) (a : α) (b : β) :
    firstSuccess ds a = some b ↔ ∃ d ∈ ds, d a = some b := by
  induction ds with
  | nil => simp [firstSuccess]
  | cons d ds ih =>
    obtain ⟨hd, hds⟩ := List.pairwise_cons.mp hx
    simp only [firstSuccess, List.mem_cons, exists_eq_or_imp]
    cases hb : d a with
    | none => simp [ih hds]
    | some b' =>
      have hrest : ∀ d' ∈ ds, d' a = none := by
        intro d' hd'
        rcases hd d' hd' a with h | h
        · rw [hb] at h; cases h
        · exact h
      constructor
      · intro h; exact .inl h
      · rintro (h | ⟨d', hd', h⟩)
        · exact h
        · rw [hrest d' hd'] at h; cases h

/-- With exclusive decoders the order they are tried in does not matter. -/
theorem firstSuccess_perm {ds ds' : List (α → Option β)} (hp : ds.Perm ds') (hx : Exclusive ds)
    (a : α) : firstSuccess ds a = firstSuccess ds' a := by
  have hx' : Exclusive ds' :=
    hp.pairwise hx (fun h a => (h a).symm)
  apply Option.ext
  intro b
  rw [firstSuccess_eq_some ds hx, firstSuccess_eq_some ds' hx']
  constructor
  · rintro ⟨d, hd, h⟩; exact ⟨d, hp.mem_iff.mp hd, h⟩
  · rintro ⟨d, hd, h⟩; exact ⟨d, hp.mem_iff.mpr hd, h⟩

end Untagged
