import Gapura.Proxy.Transform

/-! # Form text

The form_urlencoded crate's encoding. What is encoded decodes to itself, and an
encoded text holds none of the characters a query is split at. Encoding goes byte
by byte, so both are facts about the 256 bytes. -/
namespace Gapura.Proxy.Transform
open Lib.Headers Lib.Text

def hexByte (b : UInt8) : Option Nat :=
  if 48 ≤ b && b ≤ 57 then some (b.toNat - 48)
  else if 65 ≤ b && b ≤ 70 then some (b.toNat - 55)
  else if 97 ≤ b && b ≤ 102 then some (b.toNat - 87)
  else none

/-- A `%` that two hex digits do not follow stays as it is. -/
def percentDecode : List UInt8 → List UInt8
  | [] => []
  | b :: rest =>
    if b = 37 then
      match rest with
      | x :: y :: rest => match hexByte x, hexByte y with
        | some hi, some lo => UInt8.ofNat (16 * hi + lo) :: percentDecode rest
        | _, _ => b :: percentDecode (x :: y :: rest)
      | [x] => b :: percentDecode [x]
      | [] => [b]
    else b :: percentDecode rest

def upperHexDigit (n : Nat) : Char := if n < 10 then Char.ofNat (48 + n) else Char.ofNat (55 + n)

def unreserved (b : UInt8) : Bool :=
  b == 42 || b == 45 || b == 46 || b == 95 || (48 ≤ b && b ≤ 57) || (65 ≤ b && b ≤ 90) ||
    (97 ≤ b && b ≤ 122)

/-! ## The bytes of a text -/

theorem toList_loop (bs : ByteArray) (i : Nat) (r : List UInt8) :
    ByteArray.toList.loop bs i r = r.reverse ++ bs.data.toList.drop i := by
  fun_induction ByteArray.toList.loop bs i r with
  | case1 i r hlt ih =>
    have hget : bs.get! i = bs.data.toList[i] := by
      simp [ByteArray.get!, getElem!_pos bs.data i hlt]
    rw [ih, List.reverse_cons, List.append_assoc, hget, List.drop_eq_getElem_cons (i := i) hlt]
    rfl
  | case2 i r hend =>
    rw [List.drop_eq_nil_of_le (by simpa using hend), List.append_nil]

theorem bytes_eq_data (s : String) : bytes s = s.toByteArray.data.toList :=
  toList_loop s.toByteArray 0 []

theorem bytes_eq (s : String) : bytes s = s.toList.flatMap String.utf8EncodeChar := by
  rw [bytes_eq_data, ← String.ofList_toList (s := s), String.toByteArray_ofList,
    List.utf8Encode.eq_1, List.toList_data_toByteArray, String.toList_ofList]

@[simp] theorem bytes_empty : bytes "" = [] := bytes_eq ""

theorem bytes_of_ascii {s : String} (h : ∀ c ∈ s.toList, c.toNat < 128) :
    bytes s = s.toList.map Char.toUInt8 := by
  rw [bytes_eq, List.map_eq_flatMap]
  apply List.flatMap_congr
  intro c hc
  have hsize : c.utf8Size = 1 :=
    Char.utf8Size_eq_one_iff.mpr (UInt32.le_iff_toNat_le.mpr (Nat.le_of_lt_succ (h c hc)))
  rw [String.utf8EncodeChar_eq_singleton hsize, Char.toUInt8_val]

/-! ## One byte -/

/-- A byte as an edit writes it. -/
def escape (b : UInt8) : List Char :=
  if unreserved b then [Char.ofNat b.toNat]
  else ['%', upperHexDigit (b.toNat / 16), upperHexDigit (b.toNat % 16)]

def formUrlencoded (fromUtf8Lossy : List UInt8 → String) : Form where
  decode s := fromUtf8Lossy (percentDecode ((bytes s).map fun b => if b = 43 then 32 else b))
  byteSerialize s := String.ofList ((bytes s).flatMap fun b => if b = 32 then ['+'] else escape b)

/-- The characters an encoded text is made of. -/
def formChar (c : Char) : Bool := c.toNat < 128 && (c == '%' || unreserved c.toUInt8)

variable {b : UInt8}

theorem unreserved_byte (h : unreserved b = true) :
    Char.toUInt8 (Char.ofNat b.toNat) = b ∧ b ≠ 37 ∧ formChar (Char.ofNat b.toNat) = true := by
  have hall : ∀ n < 256, unreserved (UInt8.ofNat n) = true →
      Char.toUInt8 (Char.ofNat n) = UInt8.ofNat n ∧ UInt8.ofNat n ≠ 37 ∧
        formChar (Char.ofNat n) = true := by decide +kernel
  simpa using hall b.toNat b.toNat_lt (by simpa using h)

theorem upperHexDigit_byte {n : Nat} (h : n < 16) :
    hexByte (Char.toUInt8 (upperHexDigit n)) = some n ∧ formChar (upperHexDigit n) = true := by
  have hall : ∀ n < 16, hexByte (Char.toUInt8 (upperHexDigit n)) = some n ∧
      formChar (upperHexDigit n) = true := by decide
  exact hall n h

theorem formChar_escape {c : Char} (h : c ∈ escape b) : formChar c = true := by
  have hlt := b.toNat_lt
  unfold escape at h
  split at h
  next hb =>
    rw [List.mem_singleton.mp h]
    exact (unreserved_byte hb).2.2
  next =>
    simp only [List.mem_cons, List.not_mem_nil, or_false] at h
    rcases h with rfl | rfl | rfl
    · rfl
    · exact (upperHexDigit_byte (by omega)).2
    · exact (upperHexDigit_byte (by omega)).2

theorem percentDecode_cons (h : b ≠ 37) (rest : List UInt8) :
    percentDecode (b :: rest) = b :: percentDecode rest := by
  rw [percentDecode.eq_def]
  exact if_neg h

theorem percentDecode_escape (b : UInt8) (rest : List UInt8) :
    percentDecode ((escape b).map Char.toUInt8 ++ rest) = b :: percentDecode rest := by
  unfold escape
  split
  next hb =>
    obtain ⟨hbyte, hne, -⟩ := unreserved_byte hb
    rw [List.map_singleton, hbyte, List.singleton_append, percentDecode_cons hne]
  next =>
    have hlt := b.toNat_lt
    have hjoin : 16 * (b.toNat / 16) + b.toNat % 16 = b.toNat := Nat.div_add_mod _ 16
    have hhigh := (upperHexDigit_byte (show b.toNat / 16 < 16 by omega)).1
    have hlow := (upperHexDigit_byte (show b.toNat % 16 < 16 by omega)).1
    simp only [List.map_cons, List.map_nil, List.cons_append, List.nil_append]
    rw [percentDecode.eq_def]
    simp [hhigh, hlow, hjoin, show Char.toUInt8 '%' = 37 by decide]

/-! ## A text -/

section
variable {fromUtf8Lossy : List UInt8 → String}

theorem toList_encode (s : String) :
    ((formUrlencoded fromUtf8Lossy).encode s).toList = (bytes s).flatMap escape := by
  have hall : ∀ n < 256, ((if UInt8.ofNat n = 32 then ['+'] else escape (UInt8.ofNat n)).flatMap
      fun c => if c = '+' then ['%', '2', '0'] else [c]) = escape (UInt8.ofNat n) := by
    decide +kernel
  simp only [Form.encode, spacesEscaped, formUrlencoded, String.toList_ofList, List.flatMap_assoc]
  exact List.flatMap_congr fun b _ => by simpa using hall b.toNat b.toNat_lt

theorem formChar_encode {s : String} {c : Char}
    (h : c ∈ ((formUrlencoded fromUtf8Lossy).encode s).toList) : formChar c = true := by
  rw [toList_encode] at h
  obtain ⟨b, -, hc⟩ := List.mem_flatMap.mp h
  exact formChar_escape hc

theorem percentDecode_escapes (bs : List UInt8) :
    percentDecode ((bs.flatMap escape).map Char.toUInt8) = bs := by
  induction bs with
  | nil => rfl
  | cons b rest ih =>
    rw [List.flatMap_cons, List.map_append, percentDecode_escape, ih]

variable (hlossy : ∀ s, fromUtf8Lossy (bytes s) = s)

include hlossy

/-- Decoding gives back what was encoded. -/
theorem decode_encode (s : String) :
    (formUrlencoded fromUtf8Lossy).decode ((formUrlencoded fromUtf8Lossy).encode s) = s := by
  have hchars := fun c => @formChar_encode fromUtf8Lossy s c
  have htext := @toList_encode fromUtf8Lossy s
  generalize (formUrlencoded fromUtf8Lossy).encode s = encoded at hchars htext ⊢
  have hascii : ∀ c ∈ encoded.toList, c.toNat < 128 := by
    intro c hc
    have hchar := hchars c hc
    simp only [formChar, Bool.and_eq_true, decide_eq_true_eq] at hchar
    exact hchar.1
  -- no byte of it reads as a space
  have hkept : (bytes encoded).map (fun b => if b = 43 then 32 else b) = bytes encoded := by
    rw [bytes_of_ascii hascii, List.map_map]
    apply List.map_congr_left
    intro c hc
    refine if_neg fun hspace => ?_
    have hbyte := congrArg UInt8.toNat hspace
    rw [← Char.toUInt8_val, UInt32.toNat_toUInt8, Char.toNat_val,
      Nat.mod_eq_of_lt (Nat.lt_trans (hascii c hc) (by decide))] at hbyte
    obtain rfl : '+' = c := Char.toNat_inj.mp hbyte.symm
    exact absurd (hchars _ hc) (by decide)
  simp only [formUrlencoded]
  rw [hkept, bytes_of_ascii hascii, htext, percentDecode_escapes, hlossy]

theorem decode_empty : (formUrlencoded fromUtf8Lossy).decode "" = "" := by
  simp only [formUrlencoded, bytes_empty, List.map_nil, percentDecode]
  rw [← bytes_empty, hlossy]

end

end Gapura.Proxy.Transform
