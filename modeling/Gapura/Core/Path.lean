import Gapura.Lib.Checks
import Gapura.Lib.Text

/-! # The path a request is matched on

Percent escapes of unreserved characters are decoded, the others kept in
uppercase; repeated slashes are merged; a dot segment is refused. The source
walks bytes, and an escape's text is a slice of two bytes, so the characters
after a `%` are counted by their UTF-8 size. -/
namespace Gapura.Core.Path
open Lib.Text

def hexValue (c : Char) : Nat :=
  if c.isDigit then c.toNat - 48 else if c.isLower then c.toNat - 87 else c.toNat - 55

/-- `A-Z a-z 0-9 - . _ ~` by code. -/
def unreserved (v : Nat) : Bool :=
  let c := Char.ofNat v
  decide (v < 128) && (c.isAlphanum || c == '-' || c == '.' || c == '_' || c == '~')

/-- What an escape of the hex digits `a b` becomes. -/
def decodeEscape (a b : Char) : List Char :=
  let v := 16 * hexValue a + hexValue b
  if unreserved v then [Char.ofNat v] else ['%', a.toUpper, b.toUpper]

/-- An escape whose two bytes are no pair of hex digits. The slice does not
exist when it would run past the end or cut a character in two. -/
def badEscape (a : Char) (b : Option Char) : String :=
  if (a.utf8Size == 1 && b.any fun b => b.utf8Size == 1) || a.utf8Size == 2 then
    "an invalid percent escape"
  else "a truncated percent escape"

def decode : List Char → Except String (List Char)
  | [] => .ok []
  | c :: rest =>
    if c = '%' then
      match rest with
      | a :: b :: rest =>
        if a.isHexDigit && b.isHexDigit then (decode rest).map (decodeEscape a b ++ ·)
        else .error (badEscape a (some b))
      | [a] => .error (badEscape a none)
      | [] => .error "a truncated percent escape"
    else (decode rest).map (c :: ·)

/-- Pushes each character but a slash after a slash; `slash` says whether the
output so far ends in one. -/
def mergeFrom (slash : Bool) : List Char → List Char
  | [] => []
  | c :: rest =>
    if c == '/' && slash then mergeFrom slash rest else c :: mergeFrom (c == '/') rest

def merge (cs : List Char) : List Char := mergeFrom false cs

/-- A segment without its `;params`, as a servlet container reads it. -/
def withoutParams (segment : List Char) : List Char := segment.takeWhile (· != ';')

def dotSegment (segment : List Char) : Bool :=
  let name := withoutParams segment
  name == ['.'] || name == ['.', '.']

def normalizeChars (raw : List Char) : Except String (List Char) :=
  match raw with
  | [] => .ok ['/']
  | c :: _ =>
    if c != '/' then .error "the request target is not an absolute path"
    else match decode raw with
      | .error e => .error e
      | .ok decoded =>
        let out := merge decoded
        if (out.splitOn '/').any dotSegment then .error "a dot segment in the path" else .ok out

def normalizePath (raw : String) : Except String String :=
  (normalizeChars raw.toList).map String.ofList

/-- The loop of `withoutPathParams`, over the segments after the first. -/
def joinSegments : List Char → List (List Char) → List Char
  | out, [] => out
  | out, segment :: rest =>
    if out.getLast? == some '/' then joinSegments (out ++ segment) rest
    else joinSegments (out ++ '/' :: segment) rest

/-- `path` with every segment's `;params` removed and the slashes merged again,
`none` when it carries no `;`. -/
def withoutPathParams (path : String) : Option String :=
  if !path.toList.contains ';' then none
  else match (path.toList.splitOn '/').map withoutParams with
    | [] => some ""
    | first :: rest => some (String.ofList (joinSegments first rest))

/-! ## Hex digits -/

def hexDigits : List Char :=
  ['0', '1', '2', '3', '4', '5', '6', '7', '8', '9', 'a', 'b', 'c', 'd', 'e', 'f',
    'A', 'B', 'C', 'D', 'E', 'F']

variable {c : Char} {cs : List Char} {slash : Bool}

theorem mem_hexDigits (h : c.isHexDigit = true) : c ∈ hexDigits := by
  simp only [Char.isHexDigit, Char.isDigit, Bool.or_eq_true, Bool.and_eq_true, decide_eq_true_eq,
    UInt32.le_iff_toNat_le, ge_iff_le] at h
  have hr : (48 ≤ c.toNat ∧ c.toNat ≤ 57) ∨ (97 ≤ c.toNat ∧ c.toNat ≤ 102) ∨
      (65 ≤ c.toNat ∧ c.toNat ≤ 70) := by
    rcases h with (h | h) | h
    · exact .inl h
    · exact .inr (.inl h)
    · exact .inr (.inr h)
  have hc : c = Char.ofNat c.toNat := (Char.ofNat_toNat c).symm
  rw [hc]
  generalize c.toNat = n at hr
  rcases hr with ⟨h1, h2⟩ | ⟨h1, h2⟩ | ⟨h1, h2⟩ <;> interval_cases n <;> decide +kernel

/-- A decidable fact of hex digits, checked on each of them. -/
theorem forall_hexDigit (p : Char → Prop) [DecidablePred p]
    (h : hexDigits.all (fun c => decide (p c)) = true) (hc : c.isHexDigit = true) : p c := by
  simpa using List.all_eq_true.mp h c (mem_hexDigits hc)

section
variable (h : c.isHexDigit = true)

include h

theorem hexDigit_ne_percent : c ≠ '%' :=
  forall_hexDigit (· ≠ '%') (by decide) h

theorem isHexDigit_toUpper : c.toUpper.isHexDigit = true :=
  forall_hexDigit (fun c => c.toUpper.isHexDigit = true) (by decide) h

theorem toUpper_toUpper : c.toUpper.toUpper = c.toUpper :=
  forall_hexDigit (fun c => c.toUpper.toUpper = c.toUpper) (by decide) h

theorem hexValue_toUpper : hexValue c.toUpper = hexValue c :=
  forall_hexDigit (fun c => hexValue c.toUpper = hexValue c) (by decide) h

end

/-! ## Decoding -/

/-- Every `%` starts an escape of two hex digits. -/
def Escaped : List Char → Prop
  | [] => True
  | c :: rest =>
    if c = '%' then
      match rest with
      | a :: b :: rest => a.isHexDigit = true ∧ b.isHexDigit = true ∧ Escaped rest
      | _ => False
    else Escaped rest

/-- The walk's own induction: a character at a time, an escape at a time. -/
@[elab_as_elim] theorem escape_induction {P : List Char → Prop} (nil : P [])
    (cons : ∀ c rest, c ≠ '%' → P rest → P (c :: rest)) (bare : P ['%'])
    (cut : ∀ a, P ['%', a]) (esc : ∀ a b rest, P rest → P ('%' :: a :: b :: rest)) :
    ∀ cs, P cs
  | [] => nil
  | c :: rest => by
    by_cases hc : c = '%'
    · subst hc
      match rest with
      | [] => exact bare
      | [a] => exact cut a
      | a :: b :: rest => exact esc a b rest (escape_induction nil cons bare cut esc rest)
    · exact cons c rest hc (escape_induction nil cons bare cut esc rest)

theorem decode_cons (hc : c ≠ '%') (rest : List Char) :
    decode (c :: rest) = (decode rest).map (c :: ·) := by
  rw [decode.eq_def]
  simp only [if_neg hc]

theorem decode_escape (a b : Char) (rest : List Char) :
    decode ('%' :: a :: b :: rest) =
      if a.isHexDigit && b.isHexDigit then (decode rest).map (decodeEscape a b ++ ·)
      else .error (badEscape a (some b)) := by
  rw [decode.eq_def]
  simp only [if_true]

theorem escaped_cons (hc : c ≠ '%') (rest : List Char) : Escaped (c :: rest) ↔ Escaped rest := by
  rw [Escaped.eq_def]
  simp only [if_neg hc]

theorem escaped_escape (a b : Char) (rest : List Char) :
    Escaped ('%' :: a :: b :: rest) ↔
      a.isHexDigit = true ∧ b.isHexDigit = true ∧ Escaped rest := by
  rw [Escaped.eq_def]
  simp only [if_true]

theorem decode_induction {P : List Char → List Char → Prop} (nil : P [] [])
    (cons : ∀ c cs out, c ≠ '%' → P cs out → P (c :: cs) (c :: out))
    (esc : ∀ a b cs out, a.isHexDigit = true → b.isHexDigit = true → P cs out →
      P ('%' :: a :: b :: cs) (decodeEscape a b ++ out)) :
    ∀ {out}, decode cs = .ok out → P cs out := by
  induction cs using escape_induction with
  | nil => intro out h; cases h; exact nil
  | bare => intro out h; cases h
  | cut a => intro out h; cases h
  | cons c rest hc ih =>
    intro out h
    rw [decode_cons hc] at h
    obtain ⟨d, hd, rfl⟩ := Lib.Checks.map_eq_ok.mp h
    exact cons c rest d hc (ih hd)
  | esc a b rest ih =>
    intro out h
    rw [decode_escape] at h
    split at h
    · rename_i hhex
      obtain ⟨ha, hb⟩ := Bool.and_eq_true_iff.mp hhex
      obtain ⟨d, hd, rfl⟩ := Lib.Checks.map_eq_ok.mp h
      exact esc a b rest d ha hb (ih hd)
    · cases h

theorem escaped_of_decode {out : List Char} (h : decode cs = .ok out) : Escaped cs := by
  refine decode_induction (P := fun cs _ => Escaped cs) trivial ?_ ?_ h
  · exact fun c rest _ hc ih => (escaped_cons hc rest).mpr ih
  · exact fun a b rest _ ha hb ih => (escaped_escape a b rest).mpr ⟨ha, hb, ih⟩

/-- Every `%` starts an escape that decoding keeps. -/
def Kept : List Char → Prop
  | [] => True
  | c :: rest =>
    if c = '%' then
      match rest with
      | a :: b :: rest => a.isHexDigit = true ∧ b.isHexDigit = true ∧
        unreserved (16 * hexValue a + hexValue b) = false ∧ Kept rest
      | _ => False
    else Kept rest

theorem kept_cons (hc : c ≠ '%') (rest : List Char) : Kept (c :: rest) ↔ Kept rest := by
  rw [Kept.eq_def]
  simp only [if_neg hc]

theorem kept_escape (a b : Char) (rest : List Char) :
    Kept ('%' :: a :: b :: rest) ↔ a.isHexDigit = true ∧ b.isHexDigit = true ∧
      unreserved (16 * hexValue a + hexValue b) = false ∧ Kept rest := by
  rw [Kept.eq_def]
  simp only [if_true]

variable {rest : List Char}

/-- A slash belongs to no escape. -/
theorem kept_of_append_slash (h : Kept (cs ++ ['/'])) : Kept cs := by
  induction cs using escape_induction with
  | nil => trivial
  | bare => cases h
  | cut a =>
    have hb := ((kept_escape a '/' []).mp h).2.1
    cases hb
  | cons c cs hc ih =>
    rw [List.cons_append, kept_cons hc] at h
    rw [kept_cons hc]
    exact ih h
  | esc a b cs ih =>
    obtain ⟨ha, hb, hv, hk⟩ := (kept_escape a b (cs ++ ['/'])).mp h
    exact (kept_escape a b cs).mpr ⟨ha, hb, hv, ih hk⟩

/-! ## Merging -/

/-- No slash follows a slash, `slash` standing for what came before. -/
def merged (slash : Bool) : List Char → Bool
  | [] => true
  | c :: rest => !(c == '/' && slash) && merged (c == '/') rest

/-- Whether a text that stands after `slash` ends in a slash. -/
def endsSlash (slash : Bool) (cs : List Char) : Bool := cs.foldl (fun _ c => c == '/') slash

theorem mergeFrom_append (h : merged slash cs = true)
    (rest : List Char) : mergeFrom slash (cs ++ rest) = cs ++ mergeFrom (endsSlash slash cs) rest := by
  induction cs generalizing slash with
  | nil => rfl
  | cons c cs ih =>
    simp only [merged, Bool.and_eq_true, Bool.not_eq_true'] at h
    simp only [List.cons_append, mergeFrom, h.1, Bool.false_eq_true, if_false]
    rw [ih h.2]
    rfl

theorem mergeFrom_of_merged (h : merged slash cs = true) : mergeFrom slash cs = cs := by
  have := mergeFrom_append h []
  simpa [mergeFrom] using this

theorem merged_append :
    merged slash (cs ++ rest) = (merged slash cs && merged (endsSlash slash cs) rest) := by
  induction cs generalizing slash with
  | nil => rfl
  | cons c cs ih =>
    simp only [List.cons_append, merged, ih, endsSlash, List.foldl_cons, Bool.and_assoc]

@[simp] theorem endsSlash_append_singleton (slash : Bool) (cs : List Char) (c : Char) :
    endsSlash slash (cs ++ [c]) = (c == '/') := by
  simp [endsSlash]

theorem merged_of_not_infix (h : ¬ ['/', '/'] <:+: cs)
    (hs : slash = true → cs.head? ≠ some '/') : merged slash cs = true := by
  induction cs generalizing slash with
  | nil => rfl
  | cons c rest ih =>
    have hrest : ¬ ['/', '/'] <:+: rest :=
      fun hr => h (hr.trans (List.infix_cons (List.infix_refl rest)))
    have hhead : (c == '/') = true → rest.head? ≠ some '/' := by
      intro hc hr
      obtain ⟨tail, rfl⟩ := List.head?_eq_some_iff.mp hr
      obtain rfl : c = '/' := by simpa using hc
      exact h ⟨[], tail, rfl⟩
    simp only [merged, Bool.and_eq_true, Bool.not_eq_true', ih hrest hhead, and_true]
    by_cases hc : c = '/'
    · cases slash with
      | false => simp
      | true => exact absurd (by simp [hc]) (hs rfl)
    · simp [hc]

/-! ## What merging and dot segments look at -/

/-- Slashes, dots and semicolons, everything else blotted out. -/
def shape (c : Char) : Char := if c = '/' ∨ c = '.' ∨ c = ';' then c else 'x'

theorem shape_toUpper (h : c.isHexDigit = true) : shape c.toUpper = shape c :=
  forall_hexDigit (fun c => shape c.toUpper = shape c) (by decide) h

theorem shape_eq_iff {d : Char} (hd : d = '/' ∨ d = '.' ∨ d = ';') : shape c = d ↔ c = d := by
  unfold shape
  split
  · rfl
  · rename_i hc
    constructor
    · rintro rfl
      exact absurd hd (by decide)
    · rintro rfl
      exact absurd hd hc

theorem merged_shape (slash : Bool) (cs : List Char) :
    merged slash (cs.map shape) = merged slash cs := by
  induction cs generalizing slash with
  | nil => rfl
  | cons c rest ih =>
    have hc : (shape c == '/') = (c == '/') := by
      rw [Bool.eq_iff_iff, beq_iff_eq, beq_iff_eq]
      exact shape_eq_iff (.inl rfl)
    simp only [List.map_cons, merged, hc, ih]

theorem splitOn_shape (cs : List Char) :
    (cs.map shape).splitOn '/' = (cs.splitOn '/').map (List.map shape) := by
  induction cs with
  | nil => rfl
  | cons c rest ih =>
    rw [List.map_cons, List.splitOn_cons_eq_if_modifyHead, List.splitOn_cons_eq_if_modifyHead, ih]
    have hc : (shape c == '/') = (c == '/') := by
      rw [Bool.eq_iff_iff, beq_iff_eq, beq_iff_eq]
      exact shape_eq_iff (.inl rfl)
    rw [hc]
    split
    · rfl
    · cases rest.splitOn '/' <;> rfl

theorem map_shape_eq_iff {ds : List Char} (hd : ∀ d ∈ ds, d = '/' ∨ d = '.' ∨ d = ';') :
    cs.map shape = ds ↔ cs = ds := by
  induction cs generalizing ds with
  | nil => simp
  | cons c rest ih =>
    cases ds with
    | nil => simp
    | cons d ds =>
      rw [List.map_cons, List.cons.injEq, List.cons.injEq, shape_eq_iff (hd d (by simp)),
        ih fun x hx => hd x (by simp [hx])]

theorem dotSegment_shape (segment : List Char) :
    dotSegment (segment.map shape) = dotSegment segment := by
  have hparams : withoutParams (segment.map shape) = (withoutParams segment).map shape := by
    induction segment with
    | nil => rfl
    | cons c rest ih =>
      have hc : (shape c != ';') = (c != ';') := by
        rw [Bool.eq_iff_iff, bne_iff_ne, bne_iff_ne, Ne, shape_eq_iff (.inr (.inr rfl))]
      simp only [withoutParams, List.map_cons, List.takeWhile_cons, hc] at ih ⊢
      split
      · rw [List.map_cons, ih]
      · rfl
  rw [dotSegment, dotSegment, hparams, Bool.eq_iff_iff]
  simp only [Bool.or_eq_true, beq_iff_eq]
  rw [map_shape_eq_iff (by simp), map_shape_eq_iff (by simp)]

theorem dotSegments_shape (cs : List Char) :
    ((cs.map shape).splitOn '/').any dotSegment = (cs.splitOn '/').any dotSegment := by
  rw [splitOn_shape, List.any_map]
  congr 1
  funext segment
  exact dotSegment_shape segment

end Gapura.Core.Path
