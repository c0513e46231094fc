import Gapura.Core.Translate.Rules

/-! # Durations

`parse_millis` as it runs: a loop over the text left, a `u64` total and checked
operations. It accepts exactly the texts of one to four components, and no
checked operation fails on one of them. -/
namespace Gapura.Core.Duration
open Translate (unitOf sumMillis)
open Lib.Text

/-! ## Components -/

inductive TimeUnit where
  | h
  | m
  | s
  | ms
  deriving DecidableEq, Repr

def TimeUnit.text : TimeUnit → List Char
  | .h => ['h']
  | .m => ['m']
  | .s => ['s']
  | .ms => ['m', 's']

def TimeUnit.millis : TimeUnit → Nat
  | .h => 3600000
  | .m => 60000
  | .s => 1000
  | .ms => 1

/-- One to five digits and a unit. -/
structure Component where
  digits : List Char
  unit : TimeUnit
  ascii : ∀ c ∈ digits, c.isDigit = true
  nonempty : digits ≠ []
  atMostFive : digits.length ≤ 5

namespace Component

def text (c : Component) : List Char := c.digits ++ c.unit.text

def number (c : Component) : Nat := c.digits.foldl (fun n d => 10 * n + (d.toNat - 48)) 0

def millis (c : Component) : Nat := c.number * c.unit.millis

end Component

/-- The unit is the longest that fits before `left`: no `m` where `ms` stands. -/
def Longest (u : TimeUnit) (left : List Char) : Prop := u = .m → left.head? ≠ some 's'

/-- A text is a component and what is left after it. -/
structure Starts (rest : List Char) (c : Component) (left : List Char) : Prop where
  split : rest = c.text ++ left
  longest : Longest c.unit left

variable {m : Nat} (s : String)

theorem unitOf_eq_some_iff {cs left : List Char} :
    unitOf cs = some (m, left) ↔ ∃ u : TimeUnit, cs = u.text ++ left ∧ Longest u left ∧
      m = u.millis := by
  constructor
  · intro h
    unfold unitOf at h
    split at h
    · cases h
      exact ⟨.ms, rfl, nofun, rfl⟩
    · cases h
      exact ⟨.h, rfl, nofun, rfl⟩
    next hfollow =>
      cases h
      refine ⟨.m, rfl, fun _ hs => ?_, rfl⟩
      obtain ⟨tail, rfl⟩ := List.head?_eq_some_iff.mp hs
      exact hfollow tail rfl
    · cases h
      exact ⟨.s, rfl, nofun, rfl⟩
    · cases h
  · rintro ⟨u, rfl, hlongest, rfl⟩
    cases u with
    | h => rfl
    | s => rfl
    | ms => rfl
    | m =>
      change unitOf ('m' :: left) = some (60000, left)
      rw [unitOf]
      intro tail hs
      exact hlongest rfl (by rw [hs]; rfl)

theorem TimeUnit.takeWhile_text (u : TimeUnit) (left : List Char) :
    (u.text ++ left).takeWhile Char.isDigit = [] := by
  cases u <;> rfl

theorem Component.takeWhile_text (c : Component) (left : List Char) :
    (c.text ++ left).takeWhile Char.isDigit = c.digits := by
  rw [text, List.append_assoc, List.takeWhile_append_of_pos c.ascii, c.unit.takeWhile_text,
    List.append_nil]

/-- The digits a text starts with and the unit after them make a component. -/
theorem starts_of_unitOf {rest left : List Char}
    (hcount : ¬((rest.takeWhile Char.isDigit).isEmpty ||
      decide (5 < (rest.takeWhile Char.isDigit).length)) = true)
    (hunit : unitOf (rest.drop (rest.takeWhile Char.isDigit).length) = some (m, left)) :
    ∃ c, Starts rest c left ∧ c.digits = rest.takeWhile Char.isDigit ∧ m = c.unit.millis := by
  obtain ⟨u, hrest, hlongest, hm⟩ := unitOf_eq_some_iff.mp hunit
  simp only [Bool.or_eq_true, List.isEmpty_iff, decide_eq_true_eq, not_or, Nat.not_lt] at hcount
  refine ⟨⟨rest.takeWhile Char.isDigit, u, fun c hc => List.mem_takeWhile_imp hc, hcount.1,
    hcount.2⟩, ⟨?_, hlongest⟩, rfl, hm⟩
  rw [Component.text, List.append_assoc, ← hrest]
  exact (List.prefix_iff_eq_append.mp (List.takeWhile_prefix _)).symm

namespace Starts

variable {rest left : List Char} {c : Component} (h : Starts rest c left)

include h

theorem takeWhile : rest.takeWhile Char.isDigit = c.digits := by
  rw [h.split, c.takeWhile_text]

theorem unitOf : Translate.unitOf (rest.drop c.digits.length) = some (c.unit.millis, left) := by
  refine unitOf_eq_some_iff.mpr ⟨c.unit, ?_, h.longest, rfl⟩
  rw [h.split, Component.text, List.append_assoc, List.drop_left]

theorem shorter : left.length < rest.length := by
  have hpos := List.length_pos_iff.mpr c.nonempty
  simp only [h.split, Component.text, List.length_append]
  omega

end Starts

theorem Component.count (c : Component) :
    (c.digits.isEmpty || decide (5 < c.digits.length)) = false := by
  simpa using ⟨c.nonempty, c.atMostFive⟩

/-! ## The loop -/

/-- A result that fits a `u64`. -/
def checked (n : Nat) : Option Nat := if n < 2 ^ 64 then some n else none

theorem checked_of_lt {n : Nat} (h : n < 2 ^ 64) : checked n = some n := if_pos h

theorem eq_of_checked {n k : Nat} (h : checked n = some k) : k = n := by
  unfold checked at h
  split at h
  · exact (Option.some.inj h).symm
  · cases h

/-- One turn: the total with the component the text starts with, and the text
after it. -/
def turn (rest : List Char) (total : Nat) : Option (Nat × List Char) :=
  let digits := rest.takeWhile Char.isDigit
  if digits.isEmpty || decide (5 < digits.length) then none
  else do
    let n ← parseUnsigned 64 (String.ofList digits)
    let (multiplier, left) ← unitOf (rest.drop digits.length)
    let total ← checked (total + (← checked (n * multiplier)))
    return (total, left)

theorem number_lt (c : Component) : c.number < 10 ^ 5 := by
  have hfold : ∀ (ds : List Char) (n : Nat), (∀ d ∈ ds, d.isDigit = true) →
      ds.foldl (fun n d => 10 * n + (d.toNat - 48)) n < (n + 1) * 10 ^ ds.length := by
    intro ds
    induction ds with
    | nil => simp
    | cons d ds ih =>
      intro n hds
      have hd : d.toNat ≤ 57 := by
        have h := hds d List.mem_cons_self
        simp only [Char.isDigit, Bool.and_eq_true, decide_eq_true_eq,
          UInt32.le_iff_toNat_le] at h
        exact h.2
      have hrest := ih (10 * n + (d.toNat - 48)) fun d hd => hds d (List.mem_cons_of_mem _ hd)
      calc ds.foldl (fun n d => 10 * n + (d.toNat - 48)) (10 * n + (d.toNat - 48))
          < (10 * n + (d.toNat - 48) + 1) * 10 ^ ds.length := hrest
        _ ≤ (10 * (n + 1)) * 10 ^ ds.length := Nat.mul_le_mul_right _ (by omega)
        _ = (n + 1) * 10 ^ (ds.length + 1) := by ring
  have hlen : 10 ^ c.digits.length ≤ 10 ^ 5 := Nat.pow_le_pow_right (by decide) c.atMostFive
  exact Nat.lt_of_lt_of_le (by simpa [Component.number] using hfold c.digits 0 c.ascii) hlen

/-- The most one component is worth. -/
def maxMillis : Nat := 99999 * 3600000

theorem millis_le (c : Component) : c.millis ≤ maxMillis := by
  have hunit : c.unit.millis ≤ 3600000 := by
    cases c.unit <;> decide
  exact Nat.mul_le_mul (Nat.le_of_lt_succ (number_lt c)) hunit

theorem parseUnsigned_digits (c : Component) :
    parseUnsigned 64 (String.ofList c.digits) = some c.number := by
  have hdigits : (String.ofList c.digits).toList = c.digits := String.toList_ofList
  have hfits : c.number < 2 ^ 64 := Nat.lt_trans (number_lt c) (by decide)
  have hread := parseUnsigned_of_digits (w := 64) (s := String.ofList c.digits)
    (by rw [hdigits]; exact c.nonempty) (by rw [hdigits]; exact c.ascii)
    (by rw [hdigits]; exact hfits)
  rwa [hdigits] at hread

theorem starts_of_turn {rest left : List Char} {total total' : Nat}
    (h : turn rest total = some (total', left)) :
    ∃ c, Starts rest c left ∧ total' = total + c.millis := by
  simp only [turn] at h
  split at h
  · cases h
  next hguard =>
    simp only [Option.bind_eq_bind, Option.bind_eq_some_iff] at h
    obtain ⟨n, hn, ⟨m, left'⟩, hunit, product, hproduct, sum, hsum, hsome⟩ := h
    obtain ⟨rfl, rfl⟩ := Prod.mk.inj (Option.some.inj hsome)
    obtain ⟨c, hstarts, hdigits, rfl⟩ := starts_of_unitOf hguard hunit
    rw [← hdigits, parseUnsigned_digits] at hn
    refine ⟨c, hstarts, ?_⟩
    rw [eq_of_checked hsum, eq_of_checked hproduct, ← Option.some.inj hn]
    rfl

/-- With room for one more component, neither checked operation fails. -/
theorem turn_of_starts {rest left : List Char} {c : Component} {total : Nat}
    (h : Starts rest c left) (hroom : total + maxMillis < 2 ^ 64) :
    turn rest total = some (total + c.millis, left) := by
  have hmost := millis_le c
  have hproduct : checked (c.number * c.unit.millis) = some c.millis :=
    checked_of_lt (show c.millis < 2 ^ 64 by omega)
  have hsum : checked (total + c.millis) = some (total + c.millis) := checked_of_lt (by omega)
  simp only [turn, h.takeWhile, c.count, Bool.false_eq_true, if_false, parseUnsigned_digits,
    h.unitOf, Option.bind_eq_bind, Option.bind_some, hproduct, hsum]
  rfl

/-- The `while` loop: the text left, the total and the parts so far. -/
def millisLoop (rest : List Char) (total parts : Nat) : Option Nat :=
  if rest.isEmpty then some total
  else match hturn : turn rest total with
    | none => none
    | some (total, left) =>
      if 4 < parts + 1 then none else millisLoop left total (parts + 1)
termination_by rest.length
decreasing_by
  obtain ⟨c, hstarts, -⟩ := starts_of_turn hturn
  exact hstarts.shorter

def parseMillis (s : String) : Option Nat :=
  if s.isEmpty then none else millisLoop s.toList 0 0

/-! ## What it accepts -/

/-- A text is the components, one after another. -/
def Spells : List Char → List Component → Prop
  | rest, [] => rest = []
  | rest, c :: cs => ∃ left, Starts rest c left ∧ Spells left cs

variable {cs : List Component}

theorem Spells.ne_nil {rest : List Char} (h : Spells rest cs)
    (hrest : rest ≠ []) : ∃ c cs', cs = c :: cs' := by
  cases cs with
  | nil => exact absurd h hrest
  | cons c cs => exact ⟨c, cs, rfl⟩

theorem Spells.nil (h : Spells [] cs) : cs = [] := by
  cases cs with
  | nil => rfl
  | cons c cs =>
    obtain ⟨left, hstarts, -⟩ := h
    exact absurd hstarts.shorter (Nat.not_lt_zero _)

theorem spells_iff {rest : List Char} : Spells rest cs ↔ rest = cs.flatMap Component.text ∧
      ∀ before c after, cs = before ++ c :: after →
        Longest c.unit (after.flatMap Component.text) := by
  induction cs generalizing rest with
  | nil => simp [Spells]
  | cons c cs ih =>
    constructor
    · rintro ⟨left, hstarts, hspells⟩
      obtain ⟨rfl, hlongest⟩ := ih.mp hspells
      refine ⟨hstarts.split, fun before d after hsplit => ?_⟩
      cases before with
      | nil =>
        obtain ⟨rfl, rfl⟩ := List.cons.inj hsplit
        exact hstarts.longest
      | cons b before => exact hlongest before d after (List.cons.inj hsplit).2
    · rintro ⟨hrest, hlongest⟩
      exact ⟨cs.flatMap Component.text, ⟨hrest, hlongest [] c cs rfl⟩, ih.mpr
        ⟨rfl, fun before d after hsplit => hlongest (c :: before) d after (by rw [hsplit]; rfl)⟩⟩

/-- What the loop has left to read, and what it adds to the total. -/
theorem millisLoop_eq_some_iff (rest : List Char) (total parts v : Nat) (hparts : parts ≤ 4)
    (htotal : total ≤ parts * maxMillis) :
    millisLoop rest total parts = some v ↔ ∃ cs : List Component, parts + cs.length ≤ 4 ∧
      Spells rest cs ∧ v = total + (cs.map Component.millis).sum := by
  -- while the parts are at most four, there is room for one more
  have hroom : total + maxMillis < 2 ^ 64 := by
    unfold maxMillis at htotal ⊢
    omega
  fun_induction millisLoop rest total parts with
  | case1 rest total parts hempty =>
    obtain rfl : rest = [] := List.isEmpty_iff.mp hempty
    constructor
    · intro h
      exact ⟨[], hparts, rfl, by simpa using h.symm⟩
    · rintro ⟨cs, -, hspells, rfl⟩
      simp [hspells.nil]
  | case2 rest total parts hrest hturn =>
    refine ⟨nofun, ?_⟩
    rintro ⟨cs, -, hspells, -⟩
    obtain ⟨c, cs, rfl⟩ := hspells.ne_nil (by simpa using hrest)
    obtain ⟨left, hstarts, -⟩ := hspells
    rw [turn_of_starts hstarts hroom] at hturn
    cases hturn
  | case3 rest total parts hrest total' left hturn hfull =>
    refine ⟨nofun, ?_⟩
    rintro ⟨cs, hcount, hspells, -⟩
    obtain ⟨c, cs, rfl⟩ := hspells.ne_nil (by simpa using hrest)
    rw [List.length_cons] at hcount
    omega
  | case4 rest total parts hrest total' left hturn hmore ih =>
    obtain ⟨c, hstarts, rfl⟩ := starts_of_turn hturn
    have htotal' : total + c.millis ≤ (parts + 1) * maxMillis := by
      rw [Nat.add_one_mul]
      exact Nat.add_le_add htotal (millis_le c)
    have hroom' : total + c.millis + maxMillis < 2 ^ 64 := by
      unfold maxMillis at htotal' ⊢
      omega
    refine (ih (by omega) htotal' hroom').trans ?_
    constructor
    · rintro ⟨cs, hcount, hspells, rfl⟩
      refine ⟨c :: cs, ?_, ⟨left, hstarts, hspells⟩, ?_⟩
      · rw [List.length_cons]
        omega
      · rw [List.map_cons, List.sum_cons, Nat.add_assoc]
    · rintro ⟨cs, hcount, hspells, rfl⟩
      obtain ⟨d, cs, rfl⟩ := hspells.ne_nil (by simpa using hrest)
      obtain ⟨left', hstarts', hspells'⟩ := hspells
      -- the turn reads the only component the text starts with
      rw [turn_of_starts hstarts' hroom] at hturn
      obtain ⟨hsame, rfl⟩ := Prod.mk.inj (Option.some.inj hturn)
      refine ⟨cs, ?_, hspells', ?_⟩
      · rw [List.length_cons] at hcount
        omega
      · rw [List.map_cons, List.sum_cons, ← Nat.add_assoc, hsame]

/-! ## The translation's reading -/

theorem sumMillis_succ {parts v : Nat} {rest : List Char} (hrest : rest ≠ []) :
    sumMillis (parts + 1) rest = some v ↔ ∃ c left total, Starts rest c left ∧
      sumMillis parts left = some total ∧ v = c.millis + total := by
  obtain ⟨d, tail, hcons⟩ := List.exists_cons_of_ne_nil hrest
  constructor
  · intro h
    rw [hcons] at h
    simp only [sumMillis] at h
    rw [← hcons] at h
    split at h
    · cases h
    next hguard =>
      simp only [Option.bind_eq_bind, Option.bind_eq_some_iff] at h
      obtain ⟨⟨m, left⟩, hunit, total, htotal, hv⟩ := h
      obtain ⟨c, hstarts, hdigits, rfl⟩ := starts_of_unitOf hguard hunit
      refine ⟨c, left, total, hstarts, htotal, ?_⟩
      rw [← hdigits] at hv
      exact (Option.some.inj hv).symm
  · rintro ⟨c, left, total, hstarts, htotal, rfl⟩
    rw [hcons]
    simp only [sumMillis]
    rw [← hcons]
    simp only [hstarts.takeWhile, c.count, Bool.false_eq_true, if_false, hstarts.unitOf,
      Option.bind_eq_bind, Option.bind_some, htotal]
    rfl

theorem sumMillis_eq_some_iff (parts : Nat) (rest : List Char) (v : Nat) :
    sumMillis parts rest = some v ↔ ∃ cs : List Component, cs.length ≤ parts ∧
      Spells rest cs ∧ v = (cs.map Component.millis).sum := by
  induction parts generalizing rest v with
  | zero =>
    constructor
    · intro h
      cases rest with
      | nil => exact ⟨[], Nat.le_refl _, rfl, (Option.some.inj h).symm⟩
      | cons d rest => cases h
    · rintro ⟨cs, hcount, hspells, rfl⟩
      obtain rfl : cs = [] := List.length_eq_zero_iff.mp (Nat.le_zero.mp hcount)
      rw [show rest = [] from hspells]
      rfl
  | succ parts ih =>
    by_cases hrest : rest = []
    · subst hrest
      constructor
      · intro h
        exact ⟨[], Nat.zero_le _, rfl, (Option.some.inj h).symm⟩
      · rintro ⟨cs, -, hspells, rfl⟩
        rw [hspells.nil]
        rfl
    · rw [sumMillis_succ hrest]
      constructor
      · rintro ⟨c, left, total, hstarts, htotal, rfl⟩
        obtain ⟨cs, hcount, hspells, rfl⟩ := (ih left total).mp htotal
        exact ⟨c :: cs, Nat.succ_le_succ hcount, ⟨left, hstarts, hspells⟩, rfl⟩
      · rintro ⟨cs, hcount, hspells, rfl⟩
        obtain ⟨c, cs, rfl⟩ := hspells.ne_nil hrest
        obtain ⟨left, hstarts, hspells⟩ := hspells
        exact ⟨c, left, _, hstarts, (ih left _).mpr
          ⟨cs, Nat.le_of_succ_le_succ hcount, hspells, rfl⟩, rfl⟩

theorem parseMillis_eq_some_iff (v : Nat) :
    parseMillis s = some v ↔ ∃ cs : List Component, 1 ≤ cs.length ∧ cs.length ≤ 4 ∧
      Spells s.toList cs ∧ v = (cs.map Component.millis).sum := by
  by_cases hs : s.toList = []
  · obtain rfl : s = "" := String.toList_eq_nil_iff.mp hs
    refine ⟨nofun, ?_⟩
    rintro ⟨cs, hone, -, hspells, -⟩
    rw [Spells.nil hspells] at hone
    cases hone
  · have hloop : parseMillis s = millisLoop s.toList 0 0 :=
      if_neg fun hempty => hs (by rw [String.isEmpty_iff.mp hempty]; rfl)
    rw [hloop, millisLoop_eq_some_iff _ _ _ _ (by omega) (by omega)]
    simp only [Nat.zero_add]
    constructor
    · rintro ⟨cs, hcount, hspells, hv⟩
      obtain ⟨c, cs, rfl⟩ := hspells.ne_nil hs
      exact ⟨c :: cs, Nat.succ_le_succ (Nat.zero_le _), hcount, hspells, hv⟩
    · rintro ⟨cs, -, hcount, hspells, hv⟩
      exact ⟨cs, hcount, hspells, hv⟩

theorem parseMillis_eq : parseMillis s = Translate.parseMillis s := by
  by_cases hs : s.toList = []
  · obtain rfl : s = "" := String.toList_eq_nil_iff.mp hs
    rfl
  · have hne : ¬s.isEmpty = true := fun hempty => hs (by rw [String.isEmpty_iff.mp hempty]; rfl)
    rw [parseMillis, Translate.parseMillis, if_neg hne, if_neg hne]
    ext v
    rw [sumMillis_eq_some_iff, millisLoop_eq_some_iff _ _ _ _ (by omega) (by omega)]
    simp only [Nat.zero_add]

theorem sum_millis_le (cs : List Component) :
    (cs.map Component.millis).sum ≤ cs.length * maxMillis := by
  induction cs with
  | nil => exact Nat.zero_le _
  | cons c cs ih =>
    have hc := millis_le c
    rw [List.map_cons, List.sum_cons, List.length_cons, Nat.add_one_mul]
    omega

/-- A text is accepted exactly when it is one to four components, each with the
longest unit that fits, and is worth their sum. Neither checked operation fails
on one of them: not the product of a component, nor its sum with the components
before it. The translation, which does not check its sums, reads the same. -/
theorem parseMillis_exact (s : String) :
    (∀ v, parseMillis s = some v ↔ ∃ cs : List Component, 1 ≤ cs.length ∧ cs.length ≤ 4 ∧
      s.toList = cs.flatMap Component.text ∧
      (∀ before c after, cs = before ++ c :: after →
        Longest c.unit (after.flatMap Component.text)) ∧
      v = (cs.map Component.millis).sum) ∧
    (∀ (before : List Component) (c : Component), before.length < 4 →
      checked (c.number * c.unit.millis) = some c.millis ∧
      checked ((before.map Component.millis).sum + c.millis) =
        some ((before.map Component.millis).sum + c.millis)) ∧
    parseMillis s = Translate.parseMillis s := by
  refine ⟨fun v => ?_, fun before c hbefore => ?_, parseMillis_eq s⟩
  · simp only [parseMillis_eq_some_iff, spells_iff, and_assoc]
  · have hc := millis_le c
    have hsum := sum_millis_le before
    have hmost : before.length * maxMillis ≤ 3 * maxMillis :=
      Nat.mul_le_mul_right _ (by omega)
    have hfits : 4 * maxMillis < 2 ^ 64 := by decide
    exact ⟨checked_of_lt (show c.millis < 2 ^ 64 by omega), checked_of_lt (by omega)⟩

end Gapura.Core.Duration
