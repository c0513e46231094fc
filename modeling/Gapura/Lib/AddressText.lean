import Gapura.Lib.Text

/-! # Addresses as text

How a standard library writes IP addresses and reads them: dotted octets, and
groups of hexadecimal digits with the longest run of zeros left out. A reader takes
what it can from the front of a text and returns the rest. What is written reads
back. -/
namespace Gapura.Lib.AddressText

/-! ## Words -/

/-- The `k` lowest digits of a number, the highest first. -/
def digits (b : Nat) : Nat → Nat → List Nat
  | 0, _ => []
  | k + 1, n => digits b k (n / b) ++ [n % b]

def value (b : Nat) (ds : List Nat) : Nat := ds.foldl (fun n d => b * n + d) 0

theorem value_digits (b k n : Nat) : value b (digits b k n) = n % b ^ k := by
  induction k generalizing n with
  | zero => simp [digits, value, Nat.mod_one]
  | succ k ih =>
    rw [digits, value, List.foldl_concat, ← value, ih, pow_succ', Nat.mod_mul, Nat.add_comm]

theorem length_digits (b k n : Nat) : (digits b k n).length = k := by
  induction k generalizing n with
  | zero => rfl
  | succ k ih => simp [digits, ih]

theorem lt_of_mem_digits {b k n d : Nat} (hb : 0 < b) (h : d ∈ digits b k n) : d < b := by
  induction k generalizing n with
  | zero => cases h
  | succ k ih =>
    rcases List.mem_append.mp h with h | h
    · exact ih h
    · rw [List.mem_singleton.mp h]
      exact Nat.mod_lt n hb

/-! ## Numbers -/

def toDigit (radix : Nat) (c : Char) : Option Nat :=
  (if '0' ≤ c ∧ c ≤ '9' then some (c.toNat - 48)
    else if 'a' ≤ c ∧ c ≤ 'f' then some (c.toNat - 87)
    else if 'A' ≤ c ∧ c ≤ 'F' then some (c.toNat - 55)
    else none).filter (· < radix)

/-- All the digits there are, no more than `most` of them, for a number below
`bound`; zeros stand before it only where they may. -/
def readNumber (radix most bound : Nat) (zeros : Bool) (cs : List Char) :
    Option (Nat × List Char) :=
  let ds := cs.takeWhile fun c => (toDigit radix c).isSome
  let n := value radix (ds.filterMap (toDigit radix))
  if ds.isEmpty || most < ds.length || bound ≤ n || !zeros && ds.head? == some '0' && 1 < ds.length
  then none
  else some (n, cs.dropWhile fun c => (toDigit radix c).isSome)

def number (radix n : Nat) : List Char :=
  if n = 0 then ['0'] else (Nat.digits radix n).reverse.map Nat.digitChar

theorem toDigit_digitChar {radix d : Nat} (hd : d < radix) (hradix : radix ≤ 16) :
    toDigit radix (Nat.digitChar d) = some d ∧ (Nat.digitChar d = '0' → d = 0) := by
  have hall : ∀ d < 16, toDigit 16 (Nat.digitChar d) = some d ∧
      (Nat.digitChar d = '0' → d = 0) := by decide
  obtain ⟨h, hzero⟩ := hall d (by omega)
  refine ⟨?_, hzero⟩
  unfold toDigit at h ⊢
  obtain ⟨hsome, -⟩ := Option.filter_eq_some_iff.mp h
  rw [hsome]
  simp [hd]

/-- The text of a number is its digits, each of which reads as itself. -/
theorem number_eq {radix : Nat} (hradix : 1 < radix ∧ radix ≤ 16) (n : Nat) :
    ∃ ds : List Nat, number radix n = ds.map Nat.digitChar ∧ (∀ d ∈ ds, d < radix) ∧ ds ≠ [] ∧
      value radix ds = n ∧ (∀ k, 0 < k → n < radix ^ k → ds.length ≤ k) ∧
      (ds.head? = some 0 → ds.length = 1) := by
  by_cases hn : n = 0
  · subst hn
    refine ⟨[0], rfl, by simp; omega, by simp, rfl, fun k hk _ => hk, fun _ => rfl⟩
  · refine ⟨(Nat.digits radix n).reverse, if_neg hn, ?_, ?_, ?_, ?_, ?_⟩
    · exact fun d hd => Nat.digits_lt_base hradix.1 (List.mem_reverse.mp hd)
    · simpa using Nat.digits_ne_nil_iff_ne_zero.mpr hn
    · rw [value, List.foldl_reverse]
      have hvalue := Nat.ofDigits_digits radix n
      rw [Nat.ofDigits_eq_foldr] at hvalue
      simpa [Nat.add_comm] using hvalue
    · intro k _ hk
      rw [List.length_reverse]
      exact (Nat.digits_length_le_iff hradix.1 n).mpr hk
    · intro hhead
      rw [List.head?_reverse, List.getLast?_eq_some_getLast (Nat.digits_ne_nil_iff_ne_zero.mpr hn)]
        at hhead
      exact absurd (Option.some.inj hhead) (Nat.getLast_digit_ne_zero radix hn)

theorem readNumber_number {radix most bound n : Nat} (hradix : 1 < radix ∧ radix ≤ 16)
    (hmost : 0 < most) (hn : n < bound) (hbound : bound ≤ radix ^ most) (zeros : Bool)
    {rest : List Char} (hrest : ∀ c ∈ rest.head?, toDigit radix c = none) :
    readNumber radix most bound zeros (number radix n ++ rest) = some (n, rest) := by
  obtain ⟨ds, htext, hds, hne, hvalue, hlength, hhead⟩ := number_eq hradix n
  have hdigit : ∀ d ∈ ds, toDigit radix (Nat.digitChar d) = some d :=
    fun d hd => (toDigit_digitChar (hds d hd) hradix.2).1
  have hall : ∀ c ∈ ds.map Nat.digitChar, (toDigit radix c).isSome = true := by
    refine List.forall_mem_map.mpr fun d hd => ?_
    rw [hdigit d hd]
    rfl
  have hstop : rest.takeWhile (fun c => (toDigit radix c).isSome) = [] ∧
      rest.dropWhile (fun c => (toDigit radix c).isSome) = rest := by
    cases rest with
    | nil => exact ⟨rfl, rfl⟩
    | cons c rest => simp [hrest c rfl]
  have hread : (ds.map Nat.digitChar).filterMap (toDigit radix) = ds := by
    rw [List.filterMap_map]
    exact (List.filterMap_congr hdigit).trans List.filterMap_some
  have hzero : (ds.map Nat.digitChar).head? = some '0' → ds.length = 1 := by
    intro h
    cases ds with
    | nil => cases h
    | cons d ds =>
      refine hhead (congrArg some ?_)
      exact (toDigit_digitChar (hds d List.mem_cons_self) hradix.2).2 (Option.some.inj h)
  unfold readNumber
  simp only [htext, List.takeWhile_append_of_pos hall, List.dropWhile_append_of_pos hall,
    hstop.1, hstop.2, List.append_nil, hread, hvalue]
  refine if_neg ?_
  have hshort := hlength most hmost (hn.trans_le hbound)
  simp only [List.length_map, Bool.or_eq_true, Bool.and_eq_true, decide_eq_true_eq, beq_iff_eq,
    List.isEmpty_iff, List.map_eq_nil_iff, hne, false_or]
  rintro ((h | h) | ⟨⟨-, h⟩, hlong⟩)
  · omega
  · omega
  · rw [hzero h] at hlong
    omega

/-! ## Four octets -/

/-- A character, and then what is read after it. -/
def after {α : Type} (c : Char) (read : List Char → Option α) : List Char → Option α
  | [] => none
  | d :: cs => if d = c then read cs else none

def readOctet : List Char → Option (Nat × List Char) := readNumber 10 3 256 false

def readIpv4 (cs : List Char) : Option (Nat × List Char) := do
  let (a, cs) ← readOctet cs
  let (b, cs) ← after '.' readOctet cs
  let (c, cs) ← after '.' readOctet cs
  let (d, cs) ← after '.' readOctet cs
  return (value 256 [a, b, c, d], cs)

def ipv4Text (n : Nat) : List Char := ['.'].intercalate ((digits 256 4 n).map (number 10))

theorem readIpv4_ipv4Text {n : Nat} (hn : n < 2 ^ 32) : readIpv4 (ipv4Text n) = some (n, []) := by
  have hread : ∀ m, ∀ rest : List Char, (∀ c ∈ rest.head?, toDigit 10 c = none) →
      readOctet (number 10 (m % 256) ++ rest) = some (m % 256, rest) := fun m rest hrest =>
    readNumber_number (by decide) (by decide) (Nat.mod_lt m (by decide)) (by decide) false hrest
  have hdot := fun m cs => hread m ('.' :: cs) (by simp; decide)
  have hlast := hread n [] (by simp)
  rw [List.append_nil] at hlast
  have hvalue : value 256 (digits 256 4 n) = n :=
    (value_digits 256 4 n).trans (Nat.mod_eq_of_lt hn)
  simp only [digits, List.nil_append, List.cons_append] at hvalue
  simp [ipv4Text, digits, List.intercalate, readIpv4, after, hdot, hlast, hvalue]

/-! ## Eight groups -/

/-- What is read after a colon, but for the first. -/
def separated {α : Type} (i : Nat) (read : List Char → Option α) : List Char → Option α :=
  if i = 0 then read else after ':' read

def readGroup : List Char → Option (Nat × List Char) := readNumber 16 4 65536 true

/-- Groups from the `i`th on, at most so many, the last two as four octets if they
are written so. -/
def readGroups (i : Nat) : Nat → List Char → List Nat × Bool × List Char
  | 0, cs => ([], false, cs)
  | k + 1, cs =>
    match (if k = 0 then none else separated i readIpv4 cs) with
    | some (n, cs) => ([n / 65536, n % 65536], true, cs)
    | none => match separated i readGroup cs with
      | none => ([], false, cs)
      | some (g, cs) => match readGroups (i + 1) k cs with
        | (gs, octets, cs) => (g :: gs, octets, cs)

/-- All eight groups, or as many as there are before `::` and after it. -/
def readIpv6 (cs : List Char) : Option (Nat × List Char) :=
  match readGroups 0 8 cs with
  | (head, octets, cs) =>
    if head.length = 8 then some (value 65536 head, cs)
    else if octets then none
    else after ':' (after ':' fun cs => match readGroups 0 (7 - head.length) cs with
      | (tail, _, cs) =>
        let zeros := List.replicate (8 - head.length - tail.length) 0
        some (value 65536 (head ++ zeros ++ tail), cs)) cs

def groupsText (i : Nat) : List Nat → List Char
  | [] => []
  | g :: gs => (if i = 0 then [] else [':']) ++ number 16 g ++ groupsText (i + 1) gs

/-- Where the longest run starts, the first of them, and how long it is; and the run
that is under way. -/
def longestRun (zeros : List Bool) : (Nat × Nat) × Nat × Nat :=
  zeros.zipIdx.foldl (fun (longest, start, len) (zero, i) =>
    if zero then
      let current := (if len = 0 then i else start, len + 1)
      (if longest.2 < current.2 then current else longest, current)
    else (longest, 0, 0)) ((0, 0), 0, 0)

/-- The groups, with `::` for the longest run of zeros if it is longer than one. -/
def zerosLeftOut (gs : List Nat) : List Char :=
  match (longestRun (gs.map (· == 0))).1 with
  | (start, len) =>
    if 1 < len then
      groupsText 0 (gs.take start) ++ ':' :: ':' :: groupsText 0 (gs.drop (start + len))
    else groupsText 0 gs

/-- An address whose upper part says that it stands for an IPv4 address is written as one. -/
def ipv6Text (n : Nat) : List Char :=
  if n / 2 ^ 32 = 65535 then "::ffff:".toList ++ ipv4Text (n % 2 ^ 32)
  else zerosLeftOut (digits 65536 8 n)

/-- An IPv4 address or an IPv6 one, and nothing after it. What starts as the one is not
read as the other. -/
def readIp (cs : List Char) : Option (Nat ⊕ Nat) :=
  match readIpv4 cs with
  | some (n, rest) => if rest.isEmpty then some (.inl n) else none
  | none => match readIpv6 cs with
    | some (n, rest) => if rest.isEmpty then some (.inr n) else none
    | none => none

theorem readNumber_rest {radix most bound : Nat} {zeros : Bool} {cs : List Char}
    {read : Nat × List Char} (h : readNumber radix most bound zeros cs = some read) :
    read.2 = cs.dropWhile fun c => (toDigit radix c).isSome := by
  obtain ⟨-, hread⟩ := Option.ite_none_left_eq_some.mp h
  rw [← Option.some.inj hread]

/-- A text without a point before its first colon starts with no four octets. -/
theorem readIpv4_eq_none {cs rest : List Char} (hcs : '.' ∉ cs)
    (hrest : rest = [] ∨ rest.head? = some ':') : readIpv4 (cs ++ rest) = none := by
  have hstop : ((cs ++ rest).dropWhile fun c => (toDigit 10 c).isSome).head? ≠ some '.' := by
    induction cs with
    | nil =>
      rcases hrest with rfl | hrest
      · simp
      · obtain ⟨tail, rfl⟩ := List.head?_eq_some_iff.mp hrest
        simp [show toDigit 10 ':' = none by decide]
    | cons c cs ih =>
      rw [List.mem_cons, not_or] at hcs
      rw [List.cons_append, List.dropWhile_cons]
      split
      · exact ih hcs.2
      · exact fun h => hcs.1 (Option.some.inj h).symm
  unfold readIpv4
  cases hoctet : readOctet (cs ++ rest) with
  | none => rfl
  | some read =>
    rw [← readNumber_rest hoctet] at hstop
    have hdot : after '.' readOctet read.2 = none := by
      revert hstop
      cases read.2 with
      | nil => exact fun _ => rfl
      | cons c cs => simp +contextual [after]
    simp [hdot]

/-- Where a list of groups ends. -/
def Ends (rest : List Char) : Prop := rest = [] ∨ ∃ cs, rest = ':' :: ':' :: cs

theorem separated_ends {rest : List Char} (h : Ends rest) (i : Nat) :
    separated i readIpv4 rest = none ∧ separated i readGroup rest = none := by
  have hcolon : ∀ cs, readGroup (':' :: cs) = none := by
    intro cs
    simp [readGroup, readNumber, show toDigit 16 ':' = none by decide]
  have hoctets : ∀ cs, readIpv4 ([] ++ ':' :: cs) = none := fun cs =>
    readIpv4_eq_none (by simp) (.inr rfl)
  rcases h with rfl | ⟨cs, rfl⟩ <;> unfold separated <;> split
  · exact ⟨by decide, by decide⟩
  · exact ⟨rfl, rfl⟩
  · exact ⟨hoctets _, hcolon _⟩
  · exact ⟨hoctets cs, hcolon cs⟩

theorem number_digit {radix n : Nat} (hradix : 1 < radix ∧ radix ≤ 16) {c : Char}
    (h : c ∈ number radix n) : (toDigit radix c).isSome := by
  obtain ⟨ds, htext, hds, -⟩ := number_eq hradix n
  rw [htext] at h
  obtain ⟨d, hd, rfl⟩ := List.mem_map.mp h
  rw [(toDigit_digitChar (hds d hd) hradix.2).1]
  rfl

/-- What follows a group is no digit of it. -/
theorem head_groupsText {i : Nat} {gs : List Nat} {rest : List Char} (hrest : Ends rest) :
    groupsText (i + 1) gs ++ rest = [] ∨ (groupsText (i + 1) gs ++ rest).head? = some ':' := by
  cases gs with
  | nil => exact hrest.imp id fun ⟨cs, h⟩ => by rw [h]; rfl
  | cons g gs => exact .inr rfl

theorem readGroups_groupsText {gs : List Nat} {k : Nat} (hk : gs.length ≤ k)
    (hgs : ∀ g ∈ gs, g < 65536) {rest : List Char} (hrest : Ends rest) (i : Nat) :
    readGroups i k (groupsText i gs ++ rest) = (gs, false, rest) := by
  induction gs generalizing i k with
  | nil =>
    obtain ⟨hoctets, hgroup⟩ := separated_ends hrest i
    cases k with
    | zero => rfl
    | succ k => simp [groupsText, readGroups, hoctets, hgroup]
  | cons g gs ih =>
    obtain ⟨k, rfl⟩ : ∃ j, k = j + 1 := ⟨k - 1, by simp at hk; omega⟩
    have hnext := @head_groupsText i gs _ hrest
    have hoctets : readIpv4 (number 16 g ++ (groupsText (i + 1) gs ++ rest)) = none :=
      readIpv4_eq_none (fun h => absurd (number_digit (by decide) h) (by decide)) hnext
    have hgroup : readGroup (number 16 g ++ (groupsText (i + 1) gs ++ rest)) =
        some (g, groupsText (i + 1) gs ++ rest) := by
      refine readNumber_number (by decide) (by decide) (hgs g List.mem_cons_self) (by decide) true ?_
      intro c hc
      rcases hnext with h | h
      · simp [h] at hc
      · rw [h] at hc
        rw [← Option.some.inj hc]
        decide
    have hread := ih (k := k) (by simpa using hk) (fun g hg => hgs g (.tail _ hg)) (i + 1)
    by_cases hi : i = 0
    · simp only [groupsText, readGroups, separated, hi, if_pos, List.nil_append, List.append_assoc]
        at hoctets hgroup hread ⊢
      simp [hoctets, hgroup, hread]
    · simp [groupsText, readGroups, separated, hi, after, hoctets, hgroup, hread]

/-! ## What is left out -/

/-- So many places in a row that hold. -/
def Run (zeros : List Bool) (run : Nat × Nat) : Prop :=
  ∀ i, run.1 ≤ i → i < run.1 + run.2 → zeros[i]? = some true

theorem Run.append {zeros : List Bool} {run : Nat × Nat} (h : Run zeros run) (more : List Bool) :
    Run (zeros ++ more) run := by
  intro i hle hlt
  have hi := h i hle hlt
  rw [List.getElem?_append_left (List.getElem?_eq_some_iff.mp hi).1, hi]

theorem longestRun_runs (zeros : List Bool) :
    Run zeros (longestRun zeros).1 ∧ Run zeros (longestRun zeros).2 ∧
      ((longestRun zeros).2.2 ≠ 0 →
        (longestRun zeros).2.1 + (longestRun zeros).2.2 = zeros.length) := by
  -- The run under way reaches up to the place the scan has come to.
  induction zeros using List.reverseRecOn with
  | nil => exact ⟨fun i _ h => by simp [longestRun] at h, fun i _ h => by simp [longestRun] at h,
      fun h => absurd rfl h⟩
  | append_singleton zeros zero ih =>
    obtain ⟨hlongest, hcurrent, hreach⟩ := ih
    unfold longestRun at hlongest hcurrent hreach ⊢
    rw [List.zipIdx_append, List.foldl_append]
    generalize zeros.zipIdx.foldl _ _ = scanned at hlongest hcurrent hreach ⊢
    obtain ⟨longest, start, len⟩ := scanned
    cases zero with
    | false =>
      exact ⟨hlongest.append _, fun i _ h => by simp at h, fun h => absurd rfl h⟩
    | true =>
      have hrun : Run (zeros ++ [true]) (if len = 0 then zeros.length else start, len + 1) := by
        intro i hle hlt
        by_cases hi : i = zeros.length
        · simp [hi]
        · have hlen : len ≠ 0 := by
            rintro rfl
            simp only [if_pos] at hle hlt
            omega
          simp only [hlen, if_false] at hle hlt
          exact hcurrent.append _ i hle (by have := hreach hlen; simp only at this ⊢; omega)
      simp only [List.zipIdx_singleton, List.foldl_cons, List.foldl_nil, Nat.zero_add, if_true,
        List.length_append, List.length_singleton]
      refine ⟨?_, hrun, fun _ => ?_⟩
      · split
        · exact hrun
        · exact hlongest.append _
      · split
        · omega
        · have := hreach ‹_›
          simp only at this
          omega

/-- Around a run of zeros there is what stands before it and what stands after it. -/
theorem eq_around_run {gs : List Nat} {start len : Nat} (hlen : 0 < len)
    (h : Run (gs.map (· == 0)) (start, len)) :
    start + len ≤ gs.length ∧
      gs.take start ++ List.replicate len 0 ++ gs.drop (start + len) = gs := by
  have hzero : ∀ i, start ≤ i → i < start + len → gs[i]? = some 0 := by
    intro i hle hlt
    simpa using h i hle hlt
  have hle : start + len ≤ gs.length := by
    have := (List.getElem?_eq_some_iff.mp (hzero (start + len - 1) (by omega) (by omega))).1
    omega
  refine ⟨hle, List.ext_getElem? fun i => ?_⟩
  grind

theorem readIpv6_zerosLeftOut {gs : List Nat} (hlength : gs.length = 8)
    (hgs : ∀ g ∈ gs, g < 65536) : readIpv6 (zerosLeftOut gs) = some (value 65536 gs, []) := by
  obtain ⟨hrun, -⟩ := longestRun_runs (gs.map (· == 0))
  unfold zerosLeftOut
  generalize (longestRun (gs.map (· == 0))).1 = run at hrun ⊢
  obtain ⟨start, len⟩ := run
  by_cases hlen : 1 < len
  · obtain ⟨hle, hgroups⟩ := eq_around_run (by omega) hrun
    have hhead := @readGroups_groupsText (gs.take start) 8 (by simp; omega)
      (fun g hg => hgs g (List.mem_of_mem_take hg))
      (':' :: ':' :: groupsText 0 (gs.drop (start + len))) (.inr ⟨_, rfl⟩) 0
    have htail := @readGroups_groupsText (gs.drop (start + len)) (7 - start) (by simp; omega)
      (fun g hg => hgs g (List.mem_of_mem_drop hg)) [] (.inl rfl) 0
    rw [List.append_nil] at htail
    have hstart : (gs.take start).length = start := by simp; omega
    have hzeros : 8 - start - (gs.drop (start + len)).length = len := by simp; omega
    simp only [if_pos hlen, readIpv6, hhead, hstart, after, if_true, htail, hzeros, hgroups,
      if_neg (show start ≠ 8 by omega), Bool.false_eq_true, if_false]
  · have hall := @readGroups_groupsText gs 8 hlength.le hgs [] (.inl rfl) 0
    rw [List.append_nil] at hall
    simp only [if_neg hlen, readIpv6, hall, hlength, if_true]

/-! ## What is written reads back -/

variable {c : Char} {gs : List Nat} {i n : Nat}

theorem groupsText_char (h : c ∈ groupsText i gs) :
    c = ':' ∨ (toDigit 16 c).isSome := by
  induction gs generalizing i with
  | nil => cases h
  | cons g gs ih =>
    simp only [groupsText, List.append_assoc, List.mem_append] at h
    rcases h with h | h | h
    · split at h <;> simp_all
    · exact .inr (number_digit (by decide) h)
    · exact ih h

theorem zerosLeftOut_char (h : c ∈ zerosLeftOut gs) :
    c = ':' ∨ (toDigit 16 c).isSome := by
  unfold zerosLeftOut at h
  split at h
  split at h
  · simp only [List.mem_append, List.mem_cons] at h
    rcases h with h | h | h | h
    · exact groupsText_char h
    · exact .inl h
    · exact .inl h
    · exact groupsText_char h
  · exact groupsText_char h

theorem ipv4Text_char (h : c ∈ ipv4Text n) :
    c = '.' ∨ (toDigit 10 c).isSome := by
  simp only [ipv4Text, digits, List.intercalate, List.nil_append, List.cons_append, List.map_cons,
    List.map_nil, List.intersperse, List.flatten_cons, List.flatten_nil, List.mem_append,
    List.append_nil] at h
  have hnumber : ∀ m, c ∈ number 10 m → (toDigit 10 c).isSome := fun m =>
    number_digit (by decide)
  grind

theorem slash_notMem_ipv4Text (n : Nat) : '/' ∉ ipv4Text n := fun h =>
  absurd (ipv4Text_char h) (by decide)

theorem slash_notMem_ipv6Text (n : Nat) : '/' ∉ ipv6Text n := by
  unfold ipv6Text
  split
  · simp only [List.mem_append, not_or]
    exact ⟨by decide, slash_notMem_ipv4Text _⟩
  · exact fun h => absurd (zerosLeftOut_char h) (by decide)

theorem readIp_ipv4Text (hn : n < 2 ^ 32) : readIp (ipv4Text n) = some (.inl n) := by
  simp [readIp, readIpv4_ipv4Text hn]

theorem readIpv6_mapped (hn : n < 2 ^ 32) :
    readIpv6 ("::ffff:".toList ++ ipv4Text n) = some (65535 * 2 ^ 32 + n, []) := by
  have hhead : readGroups 0 8 (':' :: ':' :: ("ffff".toList ++ ':' :: ipv4Text n)) =
      ([], false, ':' :: ':' :: ("ffff".toList ++ ':' :: ipv4Text n)) :=
    @readGroups_groupsText [] 8 (by decide) (by simp) _ (.inr ⟨_, rfl⟩) 0
  have hoctets : readIpv4 ("ffff".toList ++ ':' :: ipv4Text n) = none :=
    readIpv4_eq_none (by decide) (.inr rfl)
  have hgroup : readGroup ("ffff".toList ++ ':' :: ipv4Text n) =
      some (65535, ':' :: ipv4Text n) := by
    have hffff : "ffff".toList = number 16 65535 := by simp [number, Nat.digitChar]
    rw [hffff]
    exact readNumber_number (by decide) (by decide) (by decide) (by decide) true (by simp; decide)
  have htail : readGroups 0 7 ("ffff".toList ++ ':' :: ipv4Text n) =
      ([65535, n / 65536, n % 65536], true, []) := by
    simp only [readGroups, separated, hoctets, hgroup, after, readIpv4_ipv4Text hn, if_true,
      ite_self, Nat.succ_ne_zero, if_false]
  show readIpv6 (':' :: ':' :: ("ffff".toList ++ ':' :: ipv4Text n)) = _
  simp only [readIpv6, hhead, after, List.length_nil, Nat.sub_zero, htail]
  simp [value]
  omega

theorem readIp_ipv6Text (hn : n < 2 ^ 128) : readIp (ipv6Text n) = some (.inr n) := by
  unfold ipv6Text
  split
  · have hoctets : readIpv4 ("::ffff:".toList ++ ipv4Text (n % 2 ^ 32)) = none :=
      @readIpv4_eq_none [] _ (by simp) (.inr rfl)
    have hmapped := readIpv6_mapped (Nat.mod_lt n (by decide : 0 < 2 ^ 32))
    rw [readIp, hoctets, hmapped]
    simp only [List.isEmpty_nil, if_true, Option.some.injEq, Sum.inr.injEq]
    omega
  · have hoctets : readIpv4 (zerosLeftOut (digits 65536 8 n)) = none := by
      rw [← List.append_nil (zerosLeftOut _)]
      exact readIpv4_eq_none (fun h => absurd (zerosLeftOut_char h) (by decide)) (.inl rfl)
    have hread := readIpv6_zerosLeftOut (length_digits 65536 8 n)
      fun g hg => lt_of_mem_digits (by decide) hg
    rw [value_digits, Nat.mod_eq_of_lt (hn.trans_eq (by norm_num))] at hread
    simp [readIp, hoctets, hread]

end Gapura.Lib.AddressText
