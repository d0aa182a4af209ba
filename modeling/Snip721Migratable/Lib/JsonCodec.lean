import Snip721Migratable.Lib.Json

/-!
# Lib.JsonCodec

Document forms of common types, and how to put them together: strings, booleans, bytes, lists,
records with optional fields, and types given by a retraction (`imap`).

* `JsonText.codec` : a document form written as text is a codec for stored items.
* `optField` : an optional field may be missing or `null`.
* `defaultField` : a field with a default may be missing.
* `decimal` : an unsigned integer that is written as a string of digits.
-/

/-- A value as stored bytes. -/
def JsonText.codec {α : Type} (T : JsonText) (c : JsonCodec α) : Codec α where
  encode := T.toBytes c
  decode := T.fromSlice c
  decode_encode := T.fromSlice_toBytes c

namespace JsonCodec

variable {α β : Type}

def string : JsonCodec String where
  toJson := .str
  ofJson := Json.str?
  ofJson_toJson _ := rfl

def bool : JsonCodec Bool where
  toJson := .bool
  ofJson
    | .bool b => some b
    | _ => none
  ofJson_toJson _ := rfl

def nat : JsonCodec Nat where
  toJson := .num
  ofJson := Json.nat?
  ofJson_toJson _ := rfl

/-- A type that is written as another one. -/
def imap (c : JsonCodec α) (f : β → α) (g : α → Option β) (h : ∀ b, g (f b) = some b) :
    JsonCodec β where
  toJson b := c.toJson (f b)
  ofJson j := (c.ofJson j).bind g
  ofJson_toJson b := by simp [c.ofJson_toJson, h]

def byte : JsonCodec UInt8 :=
  nat.imap UInt8.toNat (fun n => if n < 256 then some (UInt8.ofNat n) else none)
    (fun b => by simp [b.toNat_lt])

def readAll (c : JsonCodec α) : List Json → Option (List α)
  | [] => some []
  | j :: js =>
    match c.ofJson j, readAll c js with
    | some a, some as => some (a :: as)
    | _, _ => none

theorem readAll_map (c : JsonCodec α) (as : List α) : c.readAll (as.map c.toJson) = some as := by
  induction as with
  | nil => rfl
  | cons a as ih => simp [readAll, c.ofJson_toJson, ih]

def list (c : JsonCodec α) : JsonCodec (List α) where
  toJson as := .arr (as.map c.toJson)
  ofJson
    | .arr js => c.readAll js
    | _ => none
  ofJson_toJson := c.readAll_map

def bytes : JsonCodec Bytes := byte.list

/-- A record, as its fields. -/
def record : JsonCodec (List (String × Json)) where
  toJson := .obj
  ofJson
    | .obj fields => some fields
    | _ => none
  ofJson_toJson _ := rfl

/-! ## Optional fields -/

/-- The type has no value that is written `null`. -/
def NotNull (c : JsonCodec α) : Prop := ∀ a, c.toJson a ≠ .null

def ofOption (c : JsonCodec α) : Option α → Json
  | none => .null
  | some a => c.toJson a

/-- Reads an optional field; it may be missing or `null`, but not repeated. -/
def optField (c : JsonCodec α) (name : String) (j : Json) : Option (Option α) :=
  match j.named name with
  | [] => some none
  | [.null] => some none
  | [v] => (c.ofJson v).map some
  | _ => none

theorem optField_ofOption {c : JsonCodec α} (hc : c.NotNull) (name : String) (o : Option α)
    {j : Json} (h : j.field? name = some (c.ofOption o)) : c.optField name j = some o := by
  unfold optField
  rw [Json.named_of_field? h]
  cases o with
  | none => rfl
  | some a =>
    have hn := hc a
    simp only [ofOption]
    rw [c.ofJson_toJson]
    rfl

/-- Reads a field with a default, which stands for the field if it is missing. -/
def defaultField (c : JsonCodec α) (name : String) (a : α) (j : Json) : Option α :=
  match j.named name with
  | [] => some a
  | [v] => c.ofJson v
  | _ => none

theorem defaultField_toJson {c : JsonCodec α} {name : String} {a b : α} {j : Json}
    (h : j.field? name = some (c.toJson b)) : c.defaultField name a j = some b := by
  unfold defaultField
  rw [Json.named_of_field? h]
  exact c.ofJson_toJson b

/-! ## Integers in strings -/

def dropPlus : List Char → List Char
  | '+' :: cs => cs
  | cs => cs

/-- Reads an unsigned integer of `w` bits: digits, with or without a plus sign before them. A
number that does not fit is an error. -/
def readDecimal (w : Nat) (s : String) : Option (BitVec w) :=
  let digits := dropPlus s.toList
  let n := Nat.ofDigitChars 10 digits 0
  let x := BitVec.ofNat w n
  if !digits.isEmpty && digits.all Char.isDigit && x.toNat == n then some x else none

theorem dropPlus_digits {cs : List Char} (h : ∀ c ∈ cs, c.isDigit) : dropPlus cs = cs := by
  unfold dropPlus
  split
  · exact absurd (h '+' (.head _)) (by decide)
  · rfl

theorem readDecimal_toString {w : Nat} (x : BitVec w) :
    readDecimal w (toString x.toNat) = some x := by
  have hlist : (toString x.toNat).toList = Nat.toDigits 10 x.toNat := Nat.toList_repr
  have hdigits : ∀ c ∈ Nat.toDigits 10 x.toNat, c.isDigit :=
    fun c hc => Nat.isDigit_of_mem_toDigits (by omega) (by omega) hc
  have hne : (Nat.toDigits 10 x.toNat).isEmpty = false := by simp
  have hfits : BitVec.ofNat w x.toNat = x := by simp
  simp only [readDecimal, hlist, dropPlus_digits hdigits, Nat.ofDigitChars_ten_toDigits, hfits, hne,
    List.all_eq_true.mpr hdigits]
  simp

example : readDecimal 8 "+007" = some 7 ∧ readDecimal 8 "256" = none ∧ readDecimal 8 "" = none := by
  decide +kernel

def decimal (w : Nat) : JsonCodec (BitVec w) where
  toJson x := .str (toString x.toNat)
  ofJson j := j.str?.bind (readDecimal w)
  ofJson_toJson x := readDecimal_toString x

end JsonCodec
