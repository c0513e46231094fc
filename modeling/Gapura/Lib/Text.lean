import Mathlib

/-! # Text as a program handles it

Strings are read through their characters. The ASCII operations touch the
letters `A-Z` and `a-z` only and leave every other character alone, so they
agree with the byte operations of the same names on UTF-8 text: no byte of a
multi-byte sequence is ASCII. White space is Unicode's `White_Space`. -/
namespace Gapura.Lib.Text

/-! ## ASCII case -/

def lower (cs : List Char) : List Char := cs.map Char.toLower

def upper (cs : List Char) : List Char := cs.map Char.toUpper

def toAsciiLowercase (s : String) : String := String.ofList (lower s.toList)

def toAsciiUppercase (s : String) : String := String.ofList (upper s.toList)

def eqIgnoreCase (a b : List Char) : Bool := lower a == lower b

def eqIgnoreAsciiCase (a b : String) : Bool := eqIgnoreCase a.toList b.toList

variable {c : Char} (cs : List Char) {rest : List Char} {s : String} {α : Type}

/-- A character that is no letter is the lowercase of itself only. -/
theorem toLower_eq_iff {d : Char} (hd : d.isAlpha = false) : c.toLower = d ↔ c = d := by
  simp only [Char.isAlpha, Char.isLower, Char.isUpper, Bool.or_eq_false_iff,
    Bool.and_eq_false_iff, decide_eq_false_iff_not, UInt32.le_iff_toNat_le, ge_iff_le] at hd
  constructor
  · intro h
    unfold Char.toLower at h
    split at h
    · rename_i hc
      have hn := congrArg Char.toNat h
      simp [UInt32.le_iff_toNat_le] at hc hn hd
      omega
    · exact h
  · rintro rfl
    unfold Char.toLower
    split
    · rename_i hc
      simp [UInt32.le_iff_toNat_le] at hc hd
      omega
    · rfl

@[simp] theorem lower_nil : lower [] = [] := rfl

@[simp] theorem lower_cons (c : Char) (cs : List Char) :
    lower (c :: cs) = c.toLower :: lower cs := rfl

@[simp] theorem lower_append (a b : List Char) : lower (a ++ b) = lower a ++ lower b :=
  List.map_append

@[simp] theorem lower_lower : lower (lower cs) = lower cs := by
  simp [lower]

@[simp] theorem length_lower : (lower cs).length = cs.length := by
  simp [lower]

@[simp] theorem toList_toAsciiLowercase (s : String) :
    (toAsciiLowercase s).toList = lower s.toList := String.toList_ofList

theorem eqIgnoreCase_iff {a b : List Char} :
    eqIgnoreCase a b = true ↔ lower a = lower b := by simp [eqIgnoreCase]

theorem eqIgnoreAsciiCase_iff {a b : String} :
    eqIgnoreAsciiCase a b = true ↔ toAsciiLowercase a = toAsciiLowercase b := by
  rw [eqIgnoreAsciiCase, eqIgnoreCase_iff, ← String.toList_inj, toList_toAsciiLowercase,
    toList_toAsciiLowercase]

theorem eqIgnoreAsciiCase_comm (a b : String) : eqIgnoreAsciiCase a b = eqIgnoreAsciiCase b a := by
  rw [Bool.eq_iff_iff, eqIgnoreAsciiCase_iff, eqIgnoreAsciiCase_iff, eq_comm]

@[simp] theorem eqIgnoreAsciiCase_toAsciiLowercase (a b : String) :
    eqIgnoreAsciiCase a (toAsciiLowercase b) = eqIgnoreAsciiCase a b := by
  simp [eqIgnoreAsciiCase, eqIgnoreCase]

/-! ## White space -/

def isWhiteSpace (c : Char) : Bool :=
  let n := c.toNat
  (9 ≤ n && n ≤ 13) || n == 0x20 || n == 0x85 || n == 0xa0 || n == 0x1680 ||
    (0x2000 ≤ n && n ≤ 0x200a) || n == 0x2028 || n == 0x2029 || n == 0x202f ||
    n == 0x205f || n == 0x3000

def trim (s : String) : String :=
  String.ofList ((s.toList.dropWhile isWhiteSpace).rdropWhile isWhiteSpace)

/-! ## Splitting -/

/-- The text before and after the first `sep`. -/
def splitOnce (sep s : String) : Option (String × String) :=
  (s.toList.dropInfix? sep.toList).map fun p => (String.ofList p.1, String.ofList p.2)

theorem dropInfix?_of_not_mem {a : List Char} (ha : c ∉ a) (b : List Char) :
    (a ++ c :: rest ++ b).dropInfix? (c :: rest) = some (a, b) := by
  refine List.dropInfix?_eq_some_iff.mpr ⟨⟨c :: rest, rfl, by simp⟩, ?_⟩
  intro a' sep b' hsplit hsep
  obtain rfl : sep = c :: rest := by simpa using hsep
  by_contra hshort
  -- an earlier occurrence would start inside `a`
  have hc : (a ++ c :: rest ++ b)[a'.length]? = some c := by simp [hsplit]
  rw [List.append_assoc, List.getElem?_append_left (by omega)] at hc
  exact ha (List.mem_of_getElem? hc)

theorem dropInfix?_eq_none {l : List Char} (hl : c ∉ l) : l.dropInfix? (c :: rest) = none := by
  cases h : l.dropInfix? (c :: rest) with
  | none => rfl
  | some split =>
    obtain ⟨⟨sep, hsplit, hsep⟩, -⟩ := List.dropInfix?_eq_some_iff.mp h
    obtain rfl : sep = c :: rest := by simpa using hsep
    exact absurd (by simp [hsplit]) hl

/-- The first separator is the one after a text without its first character. -/
theorem splitOnce_append {sep a : String} (hsep : sep.toList = c :: rest) (ha : c ∉ a.toList)
    (b : String) : splitOnce sep (a ++ sep ++ b) = some (a, b) := by
  simp only [splitOnce, String.toList_append, hsep, dropInfix?_of_not_mem ha b.toList,
    Option.map_some, String.ofList_toList]

theorem splitOnce_eq_none {sep : String}
    (hsep : sep.toList = c :: rest) (hs : c ∉ s.toList) : splitOnce sep s = none := by
  simp only [splitOnce, hsep, dropInfix?_eq_none hs, Option.map_none]

theorem append_of_splitOnce {sep a b : String} (h : splitOnce sep s = some (a, b)) :
    s = a ++ sep ++ b := by
  obtain ⟨⟨before, after⟩, hdrop, hparts⟩ := Option.map_eq_some_iff.mp h
  obtain ⟨⟨middle, hsplit, hsep⟩, -⟩ := List.dropInfix?_eq_some_iff.mp hdrop
  obtain ⟨rfl, rfl⟩ := Prod.mk.inj hparts
  rw [← String.toList_inj, hsplit, eq_of_beq hsep]
  simp

/-- The pieces between the separators, empty ones included. -/
def splitOn (sep : Char) (s : String) : List String :=
  (s.toList.splitOn sep).map String.ofList

theorem mem_intercalate {sep c : α} {ls : List (List α)}
    (h : c ∈ [sep].intercalate ls) : c = sep ∨ ∃ l ∈ ls, c ∈ l := by
  induction ls with
  | nil => cases h
  | cons l rest ih => cases rest with
    | nil => exact .inr ⟨l, List.mem_cons_self, by simpa [List.intercalate] using h⟩
    | cons l' rest =>
      rw [List.intercalate, List.intersperse_cons_cons, List.flatten_cons, List.flatten_cons,
        List.mem_append, List.mem_append, List.mem_singleton] at h
      rcases h with h | h | h
      · exact .inr ⟨l, List.mem_cons_self, h⟩
      · exact .inl h
      · rcases ih h with hsep | ⟨k, hk, hc⟩
        · exact .inl hsep
        · exact .inr ⟨k, List.mem_cons_of_mem l hk, hc⟩

theorem mem_splitOn [DecidableEq α] (sep : α) {c : α} {cs : List α} (h : c ∈ cs) :
    c = sep ∨ ∃ l ∈ cs.splitOn sep, c ∈ l := by
  have hjoin : [sep].intercalate (cs.splitOn sep) = cs := List.intercalate_splitOn sep
  rw [← hjoin] at h
  exact mem_intercalate h

/-- A piece is made of the text's characters, without the separator. -/
theorem of_mem_splitOn [DecidableEq α] {sep c : α} {cs piece : List α}
    (hpiece : piece ∈ cs.splitOn sep) (hc : c ∈ piece) : c ∈ cs ∧ c ≠ sep := by
  induction cs generalizing piece with
  | nil =>
    obtain rfl : piece = [] := by simpa using hpiece
    cases hc
  | cons d rest ih =>
    obtain ⟨first, others, hsplit⟩ := List.exists_cons_of_ne_nil (List.splitOn_ne_nil sep rest)
    have hkept : ∀ piece ∈ rest.splitOn sep, c ∈ piece → c ∈ d :: rest ∧ c ≠ sep := by
      intro piece hpiece hc
      exact ⟨List.mem_cons_of_mem d (ih hpiece hc).1, (ih hpiece hc).2⟩
    rw [List.splitOn_cons_eq_if_modifyHead] at hpiece
    split at hpiece
    · rcases List.mem_cons.mp hpiece with rfl | hpiece
      · cases hc
      · exact hkept piece hpiece hc
    next hd =>
      rw [hsplit, List.modifyHead_cons] at hpiece
      rcases List.mem_cons.mp hpiece with rfl | hpiece
      · rcases List.mem_cons.mp hc with rfl | hc
        · exact ⟨List.mem_cons_self, by simpa using hd⟩
        · exact hkept first (by simp [hsplit]) hc
      · exact hkept piece (by simp [hsplit, hpiece]) hc

theorem not_mem_of_mem_splitOn {sep : Char} {piece : String} (h : piece ∈ splitOn sep s) :
    sep ∉ piece.toList := by
  obtain ⟨cs, hcs, rfl⟩ := List.mem_map.mp h
  rw [String.toList_ofList]
  exact fun hc => (of_mem_splitOn hcs hc).2 rfl

/-- UTF-8 bytes, which is what a length limit of the source counts. -/
def len (s : String) : Nat := s.utf8ByteSize

theorem utf8Size_toLower (c : Char) : c.toLower.utf8Size = c.utf8Size := by
  unfold Char.toLower
  split
  · rename_i hc
    have hsmall : ∀ d : Char, d.toNat ≤ 127 → d.utf8Size = 1 := fun d hd => by
      simp only [Char.utf8Size, UInt32.le_iff_toNat_le]
      exact if_pos hd
    simp [UInt32.le_iff_toNat_le] at hc
    rw [hsmall c (by omega), hsmall]
    simp
    omega
  · rfl

/-- A text's length does not depend on its letters' case. -/
theorem len_eq (s : String) : len s = String.utf8Len (lower s.toList) := by
  have hlower : ∀ cs, String.utf8Len (lower cs) = String.utf8Len cs := by
    intro cs
    induction cs with
    | nil => rfl
    | cons c cs ih => simp [ih, utf8Size_toLower]
  rw [hlower, ← String.utf8ByteSize_ofList, String.ofList_toList]
  rfl

/-! ## Unsigned numbers -/

/-- An unsigned number of `w` bits from text: digits, after an optional `+`. -/
def parseUnsigned (w : Nat) (s : String) : Option Nat :=
  let digits := (s.toList.dropPrefix? ['+']).getD s.toList
  if digits.isEmpty || !digits.all Char.isDigit then none
  else
    let n := digits.foldl (fun acc c => 10 * acc + (c.toNat - 48)) 0
    if n < 2 ^ w then some n else none

theorem isDigit_of_mem_toString {n : Nat} (h : c ∈ (toString n).toList) : c.isDigit = true := by
  have hc : c ∈ Nat.toDigits 10 n := by rwa [← Nat.toList_repr]
  exact Nat.isDigit_of_mem_toDigits (by decide) (by decide) hc

/-- Digits without a sign are read as they stand. -/
theorem parseUnsigned_of_digits {w : Nat} (hne : s.toList ≠ [])
    (hall : ∀ c ∈ s.toList, c.isDigit = true)
    (hfits : s.toList.foldl (fun acc c => 10 * acc + (c.toNat - 48)) 0 < 2 ^ w) :
    parseUnsigned w s = some (s.toList.foldl (fun acc c => 10 * acc + (c.toNat - 48)) 0) := by
  have hsign : s.toList.dropPrefix? ['+'] = none := by
    cases hdrop : s.toList.dropPrefix? ['+'] with
    | none => rfl
    | some rest =>
      obtain ⟨p, hp, hplus⟩ := List.dropPrefix?_eq_some_iff.mp hdrop
      obtain rfl : p = ['+'] := by simpa using hplus
      exact absurd (hall '+' (by simp [hp])) (by decide)
  simp only [parseUnsigned, hsign, Option.getD_none, List.all_eq_true.mpr hall, Bool.not_true,
    Bool.or_false, List.isEmpty_eq_false_iff.mpr hne, Bool.false_eq_true, if_false]
  exact if_pos hfits

theorem parseUnsigned_toString {w n : Nat} (h : n < 2 ^ w) :
    parseUnsigned w (toString n) = some n := by
  have hdigits : (toString n).toList = Nat.toDigits 10 n := Nat.toList_repr
  have hvalue : (toString n).toList.foldl (fun acc c => 10 * acc + (c.toNat - 48)) 0 = n := by
    have hfold := Nat.ofDigitChars_toDigits (b := 10) (n := n) (by decide) (by decide)
    rwa [Nat.ofDigitChars_eq_foldl, ← hdigits] at hfold
  have hread := parseUnsigned_of_digits (w := w) (hdigits ▸ Nat.toDigits_ne_nil)
    (fun c hc => isDigit_of_mem_toString hc) (hvalue.symm ▸ h)
  rwa [hvalue] at hread

/-! ## Hexadecimal -/

def hexDigit (n : Nat) : Char :=
  if n < 10 then Char.ofNat (48 + n) else Char.ofNat (87 + n)

/-- Two lowercase digits a byte. -/
def hex (bytes : List UInt8) : String :=
  String.ofList (bytes.flatMap fun b => [hexDigit (b.toNat / 16), hexDigit (b.toNat % 16)])

end Gapura.Lib.Text
