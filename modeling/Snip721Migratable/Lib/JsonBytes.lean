import Mathlib.Data.Nat.Digits.Lemmas
import Snip721Migratable.Lib.Json

/-!
# Lib.JsonBytes

JSON documents as UTF-8 text without blanks, and a reader for that text (`jsonBytes`).

The reader takes a budget, which it spends one unit of for each value and each list it enters; the
length of the text is always enough (`readValue_render`). Of the escapes it knows the two that are
needed to read a string back, the quote and the backslash.
-/

namespace Json

/-! ## Strings -/

/-- The text of a string after its opening quote. -/
def quoted : Bytes → Bytes
  | [] => [34]
  | b :: bs => if b = 34 ∨ b = 92 then 92 :: b :: quoted bs else b :: quoted bs

/-- Reads up to the closing quote; `escaped` says that a backslash came before. -/
def readQuoted (escaped : Bool) : Bytes → Option (Bytes × Bytes)
  | [] => none
  | b :: bs =>
    if escaped then (readQuoted false bs).map fun p => (b :: p.1, p.2)
    else if b = 34 then some ([], bs)
    else if b = 92 then readQuoted true bs
    else (readQuoted false bs).map fun p => (b :: p.1, p.2)

theorem readQuoted_quoted (bs rest : Bytes) :
    readQuoted false (quoted bs ++ rest) = some (bs, rest) := by
  induction bs with
  | nil => simp [quoted, readQuoted]
  | cons b bs ih =>
    simp only [quoted]
    split
    · simp [readQuoted, ih]
    · rename_i hb
      obtain ⟨hq, hs⟩ := not_or.mp hb
      simp [readQuoted, hq, hs, ih]

def stringBytes (s : String) : Bytes := s.toUTF8.data.toList

def ofStringBytes (bs : Bytes) : Option String := String.fromUTF8? ⟨bs.toArray⟩

theorem ofStringBytes_stringBytes (s : String) : ofStringBytes (stringBytes s) = some s := by
  have h : (⟨(stringBytes s).toArray⟩ : ByteArray) = s.toByteArray := by
    simp [stringBytes]
  simp [ofStringBytes, h, String.fromUTF8?, s.isValidUTF8, String.fromUTF8]

def readString (bs : Bytes) : Option (String × Bytes) :=
  match readQuoted false bs with
  | some (s, rest) => (ofStringBytes s).map fun s => (s, rest)
  | none => none

theorem readString_quoted (s : String) (rest : Bytes) :
    readString (quoted (stringBytes s) ++ rest) = some (s, rest) := by
  simp [readString, readQuoted_quoted, ofStringBytes_stringBytes]

/-! ## Numbers -/

def digitByte (d : Nat) : UInt8 := UInt8.ofNat (48 + d)

def renderNat (n : Nat) : Bytes :=
  if n = 0 then [48] else (Nat.digits 10 n).reverse.map digitByte

def IsDigit (b : UInt8) : Prop := 48 ≤ b ∧ b ≤ 57

instance (b : UInt8) : Decidable (IsDigit b) := inferInstanceAs (Decidable (_ ∧ _))

def readNat (acc : Nat) : Bytes → Nat × Bytes
  | [] => (acc, [])
  | b :: bs => if IsDigit b then readNat (acc * 10 + (b.toNat - 48)) bs else (acc, b :: bs)

/-- What follows a number must not go on with a digit. -/
def Delimited (rest : Bytes) : Prop := ∀ b bs, rest = b :: bs → ¬ IsDigit b

theorem digitByte_spec {d : Nat} (h : d < 10) :
    IsDigit (digitByte d) ∧ (digitByte d).toNat - 48 = d := by
  match d, h with
  | 0, _ | 1, _ | 2, _ | 3, _ | 4, _ | 5, _ | 6, _ | 7, _ | 8, _ | 9, _ => decide

theorem readNat_delimited {rest : Bytes} (h : Delimited rest) (acc : Nat) :
    readNat acc rest = (acc, rest) := by
  cases rest with
  | nil => rfl
  | cons b bs => simp [readNat, h b bs rfl]

theorem readNat_digits {rest : Bytes} (h : Delimited rest) (ds : List Nat)
    (hds : ∀ d ∈ ds, d < 10) (acc : Nat) :
    readNat acc (ds.map digitByte ++ rest) = (ds.foldl (fun a d => a * 10 + d) acc, rest) := by
  induction ds generalizing acc with
  | nil => exact readNat_delimited h acc
  | cons d ds ih =>
    obtain ⟨hd, hv⟩ := digitByte_spec (hds d (by simp))
    simp only [List.map_cons, List.cons_append, readNat, if_pos hd, hv, List.foldl_cons]
    exact ih (fun d' hd' => hds d' (by simp [hd'])) _

theorem readNat_renderNat {rest : Bytes} (h : Delimited rest) (n : Nat) :
    readNat 0 (renderNat n ++ rest) = (n, rest) := by
  unfold renderNat
  split
  · rename_i hn
    subst hn
    exact readNat_digits h [0] (by simp) 0
  · rw [readNat_digits h]
    · rw [List.foldl_reverse]
      have hv := Nat.ofDigits_digits 10 n
      rw [Nat.ofDigits_eq_foldr] at hv
      simpa [Nat.mul_comm, Nat.add_comm] using hv
    · intro d hd
      exact Nat.digits_lt_base (by decide) (List.mem_reverse.mp hd)

theorem renderNat_head (n : Nat) : ∃ b bs, renderNat n = b :: bs ∧ IsDigit b := by
  unfold renderNat
  split
  · exact ⟨48, [], rfl, by decide⟩
  · rename_i hn
    have hlt : ∀ d ∈ (Nat.digits 10 n).reverse, d < 10 := by
      intro d hd
      exact Nat.digits_lt_base (by decide) (List.mem_reverse.mp hd)
    cases hds : (Nat.digits 10 n).reverse with
    | nil =>
      rw [List.reverse_eq_nil_iff, Nat.digits_eq_nil_iff_eq_zero] at hds
      exact absurd hds hn
    | cons d ds =>
      rw [hds] at hlt
      exact ⟨digitByte d, ds.map digitByte, rfl, (digitByte_spec (hlt d (by simp))).1⟩

/-! ## Documents -/

mutual

def render : Json → Bytes
  | .null => [110, 117, 108, 108]
  | .bool true => [116, 114, 117, 101]
  | .bool false => [102, 97, 108, 115, 101]
  | .num n => renderNat n
  | .str s => 34 :: quoted (stringBytes s)
  | .arr [] => [91, 93]
  | .arr (j :: js) => 91 :: render j ++ renderElems js
  | .obj [] => [123, 125]
  | .obj ((k, v) :: fs) => 123 :: 34 :: quoted (stringBytes k) ++ 58 :: render v ++ renderFields fs

/-- The rest of an array. -/
def renderElems : List Json → Bytes
  | [] => [93]
  | j :: js => 44 :: render j ++ renderElems js

/-- The rest of an object. -/
def renderFields : List (String × Json) → Bytes
  | [] => [125]
  | (k, v) :: fs => 44 :: 34 :: quoted (stringBytes k) ++ 58 :: render v ++ renderFields fs

end

mutual

def readValue : Nat → Bytes → Option (Json × Bytes)
  | 0, _ => none
  | fuel + 1, bs =>
    match bs with
    | [] => none
    | b :: bs =>
      if b = 110 then if bs.take 3 = [117, 108, 108] then some (.null, bs.drop 3) else none
      else if b = 116 then
        if bs.take 3 = [114, 117, 101] then some (.bool true, bs.drop 3) else none
      else if b = 102 then
        if bs.take 4 = [97, 108, 115, 101] then some (.bool false, bs.drop 4) else none
      else if b = 34 then (readString bs).map fun p => (.str p.1, p.2)
      else if b = 91 then
        if bs.head? = some 93 then some (.arr [], bs.tail)
        else (readElems fuel bs).map fun p => (.arr p.1, p.2)
      else if b = 123 then
        if bs.head? = some 125 then some (.obj [], bs.tail)
        else (readFields fuel bs).map fun p => (.obj p.1, p.2)
      else if IsDigit b then
        some (.num (readNat 0 (b :: bs)).1, (readNat 0 (b :: bs)).2)
      else none

def readElems : Nat → Bytes → Option (List Json × Bytes)
  | 0, _ => none
  | fuel + 1, bs =>
    match readValue fuel bs with
    | some (j, b :: rest) =>
      if b = 93 then some ([j], rest)
      else if b = 44 then (readElems fuel rest).map fun p => (j :: p.1, p.2)
      else none
    | _ => none

def readFields : Nat → Bytes → Option (List (String × Json) × Bytes)
  | 0, _ => none
  | fuel + 1, bs =>
    match bs with
    | [] => none
    | b :: bs =>
      if b = 34 then
        match readString bs with
        | some (k, c :: rest) =>
          if c = 58 then
            match readValue fuel rest with
            | some (v, d :: rest) =>
              if d = 125 then some ([(k, v)], rest)
              else if d = 44 then (readFields fuel rest).map fun p => ((k, v) :: p.1, p.2)
              else none
            | _ => none
          else none
        | _ => none
      else none

end

/-- The first byte of a document tells it from the end of a list. -/
theorem render_head (j : Json) : ∃ b bs, render j = b :: bs ∧ b ≠ 93 ∧ b ≠ 125 := by
  match j with
  | .null => exact ⟨110, _, by rw [render], by decide⟩
  | .bool true => exact ⟨116, _, by rw [render], by decide⟩
  | .bool false => exact ⟨102, _, by rw [render], by decide⟩
  | .num n =>
    obtain ⟨b, bs, h, hb⟩ := renderNat_head n
    refine ⟨b, bs, by rw [render, h], ?_, ?_⟩ <;> (rintro rfl; revert hb; decide)
  | .str s => exact ⟨34, _, by rw [render], by decide⟩
  | .arr [] => exact ⟨91, _, by rw [render], by decide⟩
  | .arr (_ :: _) => exact ⟨91, _, by rw [render, List.cons_append], by decide⟩
  | .obj [] => exact ⟨123, _, by rw [render], by decide⟩
  | .obj ((_, _) :: _) => exact ⟨123, _, by rw [render]; rfl, by decide⟩

/-- What comes after a value inside a document. -/
theorem delimited_of_ne {b : UInt8} (h : b = 44 ∨ b = 93 ∨ b = 125) (rest : Bytes) :
    Delimited (b :: rest) := by
  intro c bs heq
  cases heq
  rcases h with rfl | rfl | rfl <;> decide

mutual

theorem readValue_render (j : Json) (fuel : Nat) (rest : Bytes)
    (hf : (render j).length ≤ fuel) (hr : Delimited rest) :
    readValue fuel (render j ++ rest) = some (j, rest) := by
  match j, fuel with
  | .null, n + 1 => simp [render, readValue]
  | .bool true, n + 1 => simp [render, readValue]
  | .bool false, n + 1 => simp [render, readValue]
  | .str s, n + 1 => simp [render, readValue, readString_quoted]
  | .num k, n + 1 =>
    obtain ⟨b, bs, h, hb⟩ := renderNat_head k
    have hne : ∀ c, ¬ IsDigit c → b ≠ c := fun c hc hbc => hc (hbc ▸ hb)
    have hk := readNat_renderNat hr k
    rw [h] at hk
    simp only [render, h, List.cons_append, readValue]
    simp only [List.cons_append] at hk
    rw [if_neg (hne 110 (by decide)), if_neg (hne 116 (by decide)), if_neg (hne 102 (by decide)),
      if_neg (hne 34 (by decide)), if_neg (hne 91 (by decide)), if_neg (hne 123 (by decide)),
      if_pos hb, hk]
  | .arr [], n + 1 => simp [render, readValue]
  | .arr (j :: js), n + 1 =>
    obtain ⟨b, bs, h, hb, _⟩ := render_head j
    have hlist := readElems_render j js n rest (by simpa [render] using hf)
    have hhead : (render j ++ renderElems js ++ rest).head? ≠ some 93 := by simp [h, hb]
    simp only [render, List.cons_append, readValue]
    rw [if_neg (by decide), if_neg (by decide), if_neg (by decide), if_neg (by decide),
      if_true, if_neg hhead, hlist]
    rfl
  | .obj [], n + 1 => simp [render, readValue]
  | .obj ((k, v) :: fs), n + 1 =>
    have hlist := readFields_render k v fs n rest (by
      simp only [render, List.length_append, List.length_cons] at hf ⊢; omega)
    simp only [render, List.cons_append] at hlist ⊢
    simp only [readValue, hlist]
    simp
  | j, 0 =>
    obtain ⟨b, bs, h, _⟩ := render_head j
    rw [h] at hf; cases hf

theorem readElems_render (j : Json) (js : List Json) (fuel : Nat) (rest : Bytes)
    (hf : (render j ++ renderElems js).length ≤ fuel) :
    readElems fuel (render j ++ renderElems js ++ rest) = some (j :: js, rest) := by
  match js, fuel with
  | [], n + 1 =>
    have hv := readValue_render j n (93 :: rest)
      (by simp only [renderElems, List.length_append, List.length_cons] at hf; omega)
      (delimited_of_ne (by simp) _)
    simp only [renderElems, readElems, List.append_assoc, List.cons_append, List.nil_append, hv]
    simp
  | j' :: js, n + 1 =>
    simp only [renderElems, List.length_append, List.length_cons] at hf
    have hv := readValue_render j n (44 :: (render j' ++ renderElems js ++ rest)) (by omega)
      (delimited_of_ne (by simp) _)
    have hvs := readElems_render j' js n rest (by simp only [List.length_append]; omega)
    simp only [renderElems, readElems, List.append_assoc, List.cons_append] at hv hvs ⊢
    simp [hv, hvs]
  | _, 0 =>
    obtain ⟨b, bs, h, _⟩ := render_head j
    rw [h] at hf; cases hf

theorem readFields_render (k : String) (v : Json) (fs : List (String × Json)) (fuel : Nat)
    (rest : Bytes) (hf : (render v ++ renderFields fs).length ≤ fuel) :
    readFields fuel (34 :: quoted (stringBytes k) ++ 58 :: render v ++ renderFields fs ++ rest) =
      some ((k, v) :: fs, rest) := by
  match fs, fuel with
  | [], n + 1 =>
    have hv := readValue_render v n (125 :: rest)
      (by simp only [renderFields, List.length_append, List.length_cons] at hf; omega)
      (delimited_of_ne (by simp) _)
    simp only [renderFields, readFields, List.append_assoc, List.cons_append, List.nil_append,
      if_true, readString_quoted, hv]
  | (k', v') :: fs, n + 1 =>
    simp only [renderFields, List.length_append, List.length_cons] at hf
    have hv := readValue_render v n
      (44 :: (34 :: quoted (stringBytes k') ++ 58 :: render v' ++ renderFields fs ++ rest))
      (by omega) (delimited_of_ne (by simp) _)
    have hvs := readFields_render k' v' fs n rest (by simp only [List.length_append]; omega)
    simp only [renderFields, readFields, List.append_assoc, List.cons_append, if_true,
      readString_quoted] at hv hvs ⊢
    simp [hv, hvs]
  | fs, 0 =>
    obtain ⟨b, bs, h, _⟩ := render_head v
    rw [h] at hf; cases hf

end

def parse (bs : Bytes) : Option Json :=
  match readValue (bs.length + 1) bs with
  | some (j, []) => some j
  | _ => none

theorem parse_render (j : Json) : parse (render j) = some j := by
  have h := readValue_render j ((render j).length + 1) [] (by omega) (by rintro _ _ ⟨⟩)
  rw [List.append_nil] at h
  rw [parse, h]

end Json

/-- The text of JSON documents. -/
def jsonBytes : JsonText where
  render := Json.render
  parse := Json.parse
  parse_render := Json.parse_render
