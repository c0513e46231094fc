import Gapura.Core.Path

/-! # Normalised paths are canonical

A text that decoding leaves alone (`Fixed`), with single slashes and no dot
segment, is its own normal form (`Normal`), and every normal form is one. Two
spellings of a path decode to texts that merge alike, so they are accepted or
refused together. -/
namespace Gapura.Core.PathCanonical
open Core.Path
open Lib.Text (of_mem_splitOn)

/-! ## Decoded texts -/

/-- Decoding leaves the text alone. -/
def Fixed (cs : List Char) : Prop := decode cs = .ok cs

def upperHexDigits : List Char :=
  ['0', '1', '2', '3', '4', '5', '6', '7', '8', '9', 'A', 'B', 'C', 'D', 'E', 'F']

variable {c : Char} {cs out ds : List Char} (slash : Bool) {p : String}

theorem mem_upperHexDigits (h : c.isHexDigit = true) (hc : c.toUpper = c) : c ∈ upperHexDigits :=
  forall_hexDigit (fun c => c.toUpper = c → c ∈ upperHexDigits) (by decide) h hc

theorem ofNat_ne_percent {v : Nat} (h : unreserved v = true) : Char.ofNat v ≠ '%' := by
  intro hv
  simp only [unreserved, hv, Bool.and_eq_true] at h
  exact absurd h.2 (by decide)

theorem fixed_cons (hc : c ≠ '%') (rest : List Char) : Fixed (c :: rest) ↔ Fixed rest := by
  unfold Fixed
  rw [decode_cons hc]
  cases decode rest with
  | error e => constructor <;> intro h <;> cases h
  | ok d =>
    show Except.ok (c :: d) = Except.ok (c :: rest) ↔ Except.ok d = Except.ok rest
    simp

theorem fixed_escape (a b : Char) (rest : List Char) :
    Fixed ('%' :: a :: b :: rest) ↔ a.isHexDigit = true ∧ b.isHexDigit = true ∧ a.toUpper = a ∧
      b.toUpper = b ∧ unreserved (16 * hexValue a + hexValue b) = false ∧ Fixed rest := by
  unfold Fixed
  rw [decode_escape]
  constructor
  · intro h
    split at h
    next hhex =>
      obtain ⟨ha, hb⟩ := Bool.and_eq_true_iff.mp hhex
      cases hd : decode rest with
      | error e =>
        rw [hd] at h
        cases h
      | ok d =>
        rw [hd] at h
        have h : decodeEscape a b ++ d = '%' :: a :: b :: rest := Except.ok.inj h
        unfold decodeEscape at h
        dsimp only at h
        split at h
        next hv => exact absurd (List.cons.inj h).1 (ofNat_ne_percent hv)
        next hv =>
          obtain ⟨-, hau, hbu, rfl⟩ : '%' = '%' ∧ a.toUpper = a ∧ b.toUpper = b ∧ d = rest := by
            simpa using h
          exact ⟨ha, hb, hau, hbu, by simpa using hv, rfl⟩
    next => cases h
  · rintro ⟨ha, hb, hau, hbu, hv, hrest⟩
    rw [ha, hb, hrest]
    simp only [decodeEscape, hv, hau, hbu]
    rfl

theorem not_fixed_bare : ¬ Fixed ['%'] := by intro h; cases h

theorem not_fixed_cut (a : Char) : ¬ Fixed ['%', a] := by intro h; cases h

theorem fixed_of_decode {out : List Char} (h : decode cs = .ok out) : Fixed out := by
  refine decode_induction (P := fun _ out => Fixed out) rfl ?_ ?_ h
  · exact fun c _ d hc ih => (fixed_cons hc d).mpr ih
  · intro a b _ d ha hb ih
    unfold decodeEscape
    dsimp only
    split
    next hv => exact (fixed_cons (ofNat_ne_percent hv) d).mpr ih
    next hv =>
      refine (fixed_escape _ _ d).mpr ⟨isHexDigit_toUpper ha, isHexDigit_toUpper hb,
        toUpper_toUpper ha, toUpper_toUpper hb, ?_, ih⟩
      rw [hexValue_toUpper ha, hexValue_toUpper hb]
      simpa using hv

variable {rest : List Char}

theorem Fixed.append (h : Fixed cs) (hr : Fixed rest) : Fixed (cs ++ rest) := by
  induction cs using escape_induction with
  | nil => exact hr
  | bare => exact absurd h not_fixed_bare
  | cut a => exact absurd h (not_fixed_cut a)
  | cons c cs hc ih =>
    rw [List.cons_append, fixed_cons hc]
    exact ih ((fixed_cons hc cs).mp h)
  | esc a b cs ih =>
    obtain ⟨ha, hb, hau, hbu, hv, hcs⟩ := (fixed_escape a b cs).mp h
    exact (fixed_escape a b (cs ++ rest)).mpr ⟨ha, hb, hau, hbu, hv, ih hcs⟩

/-- A character that is no hex digit ends every escape before it. -/
theorem Fixed.split {d : Char} (h : Fixed (cs ++ d :: rest))
    (hd : d.isHexDigit = false) (hp : d ≠ '%') : Fixed cs ∧ Fixed rest := by
  induction cs using escape_induction with
  | nil => exact ⟨rfl, (fixed_cons hp rest).mp h⟩
  | bare =>
    cases rest with
    | nil => exact absurd h (not_fixed_cut d)
    | cons e rest =>
      have := ((fixed_escape d e rest).mp h).1
      rw [hd] at this
      cases this
  | cut a =>
    have := ((fixed_escape a d rest).mp h).2.1
    rw [hd] at this
    cases this
  | cons c cs hc ih =>
    rw [List.cons_append, fixed_cons hc] at h
    obtain ⟨hcs, hrest⟩ := ih h
    exact ⟨(fixed_cons hc cs).mpr hcs, hrest⟩
  | esc a b cs ih =>
    obtain ⟨ha, hb, hau, hbu, hv, h⟩ := (fixed_escape a b (cs ++ d :: rest)).mp h
    obtain ⟨hcs, hrest⟩ := ih h
    exact ⟨(fixed_escape a b cs).mpr ⟨ha, hb, hau, hbu, hv, hcs⟩, hrest⟩

/-- Wherever a `%` stands, an escape that is kept and in uppercase follows. -/
theorem Fixed.escapes (h : Fixed cs) :
    ∀ {before rest : List Char}, cs = before ++ '%' :: rest → ∃ a b tail, rest = a :: b :: tail ∧
      a ∈ upperHexDigits ∧ b ∈ upperHexDigits ∧
      unreserved (16 * hexValue a + hexValue b) = false := by
  induction cs using escape_induction with
  | nil => intro before rest hsplit; simp at hsplit
  | bare => exact absurd h not_fixed_bare
  | cut a => exact absurd h (not_fixed_cut a)
  | cons c cs hc ih =>
    intro before rest hsplit
    cases before with
    | nil => exact absurd (List.cons.inj hsplit).1 hc
    | cons d before => exact ih ((fixed_cons hc cs).mp h) (List.cons.inj hsplit).2
  | esc a b cs ih =>
    obtain ⟨ha, hb, hau, hbu, hv, hcs⟩ := (fixed_escape a b cs).mp h
    intro before rest hsplit
    match before with
    | [] =>
      refine ⟨a, b, cs, (List.cons.inj hsplit).2.symm, mem_upperHexDigits ha hau,
        mem_upperHexDigits hb hbu, hv⟩
    | [_] =>
      have : a = '%' := by
        have := (List.cons.inj hsplit).2
        exact (List.cons.inj this).1
      exact absurd this (hexDigit_ne_percent ha)
    | [_, _] =>
      have : b = '%' := by
        have := (List.cons.inj (List.cons.inj hsplit).2).2
        exact (List.cons.inj this).1
      exact absurd this (hexDigit_ne_percent hb)
    | _ :: _ :: _ :: before =>
      exact ih hcs (List.cons.inj (List.cons.inj (List.cons.inj hsplit).2).2).2

/-! ## Merged texts -/

theorem mergeFrom_append_eq (cs rest : List Char) :
    mergeFrom slash (cs ++ rest) = mergeFrom slash cs ++ mergeFrom (endsSlash slash cs) rest := by
  induction cs generalizing slash with
  | nil => rfl
  | cons c cs ih =>
    show mergeFrom slash (c :: (cs ++ rest)) = mergeFrom slash (c :: cs) ++ _
    simp only [mergeFrom]
    split
    next hc =>
      obtain ⟨hslash, rfl⟩ := Bool.and_eq_true_iff.mp hc
      rw [ih]
      simp only [endsSlash, List.foldl_cons, hslash]
    next =>
      rw [ih]
      rfl

theorem merged_mergeFrom (cs : List Char) : merged slash (mergeFrom slash cs) = true := by
  induction cs generalizing slash with
  | nil => rfl
  | cons c rest ih =>
    simp only [mergeFrom]
    split
    next => exact ih slash
    next hc => simp [merged, hc, ih]

theorem not_infix_of_merged {slash : Bool} (h : merged slash cs = true) : ¬ ['/', '/'] <:+: cs := by
  rintro ⟨before, rest, rfl⟩
  rw [List.append_assoc, merged_append] at h
  have := (Bool.and_eq_true_iff.mp h).2
  simp [merged] at this

theorem merged_of_no_slash (h : '/' ∉ cs) : merged slash cs = true := by
  induction cs generalizing slash with
  | nil => rfl
  | cons c rest ih =>
    obtain ⟨hc, hrest⟩ := List.ne_and_not_mem_of_not_mem_cons h
    have hne : (c == '/') = false := by simpa using Ne.symm hc
    simp [merged, hne, ih false hrest]

theorem hexDigit_ne_slash (h : c.isHexDigit = true) : (c == '/') = false :=
  forall_hexDigit (fun c => (c == '/') = false) (by decide) h

theorem Fixed.mergeFrom (h : Fixed cs) (slash : Bool) : Fixed (mergeFrom slash cs) := by
  induction cs using escape_induction generalizing slash with
  | nil => exact h
  | bare => exact absurd h not_fixed_bare
  | cut a => exact absurd h (not_fixed_cut a)
  | cons c cs hc ih =>
    have hcs := (fixed_cons hc cs).mp h
    simp only [Path.mergeFrom]
    split
    next => exact ih hcs slash
    next => exact (fixed_cons hc _).mpr (ih hcs _)
  | esc a b cs ih =>
    obtain ⟨ha, hb, hau, hbu, hv, hcs⟩ := (fixed_escape a b cs).mp h
    have hmerge : Path.mergeFrom slash ('%' :: a :: b :: cs) =
        '%' :: a :: b :: Path.mergeFrom false cs := by
      simp only [Path.mergeFrom, hexDigit_ne_slash ha, hexDigit_ne_slash hb]
      rfl
    rw [hmerge]
    exact (fixed_escape a b _).mpr ⟨ha, hb, hau, hbu, hv, ih hcs false⟩

/-! ## Normal forms -/

structure Normal (cs : List Char) : Prop where
  rooted : cs.head? = some '/'
  fixed : Fixed cs
  single : merged false cs = true
  dotless : (cs.splitOn '/').any dotSegment = false

theorem Normal.normalize (h : Normal cs) : normalizeChars cs = .ok cs := by
  obtain ⟨rest, rfl⟩ := List.head?_eq_some_iff.mp h.rooted
  have hd : decode ('/' :: rest) = .ok ('/' :: rest) := h.fixed
  simp only [normalizeChars, hd, merge, mergeFrom_of_merged h.single, h.dotless]
  rfl

theorem normal_of_normalize {raw : List Char} (h : normalizeChars raw = .ok out) : Normal out := by
  cases raw with
  | nil =>
    cases h
    exact ⟨rfl, rfl, rfl, by decide⟩
  | cons c rest =>
    simp only [normalizeChars] at h
    split at h
    · cases h
    next hc =>
      obtain rfl : c = '/' := by simpa using hc
      split at h
      · cases h
      next decoded hd =>
        split at h
        · cases h
        next hdots =>
          cases h
          refine ⟨?_, (fixed_of_decode hd).mergeFrom false, merged_mergeFrom false decoded,
            by simpa using hdots⟩
          rw [decode_cons (by decide)] at hd
          cases hrest : decode rest with
          | error e => rw [hrest] at hd; cases hd
          | ok d =>
            rw [hrest] at hd
            cases hd
            rfl

theorem normalizePath_eq_ok {raw : String} :
    normalizePath raw = .ok p ↔ normalizeChars raw.toList = .ok p.toList := by
  unfold normalizePath
  cases normalizeChars raw.toList with
  | error e => constructor <;> intro h <;> cases h
  | ok out =>
    show Except.ok (String.ofList out) = Except.ok p ↔ Except.ok out = Except.ok p.toList
    constructor
    · intro h
      cases h
      rw [String.toList_ofList]
    · intro h
      cases h
      rw [String.ofList_toList]

/-! ## Without path parameters -/

/-- A text between slashes at a time. -/
@[elab_as_elim] theorem slash_induction {P : List Char → Prop} (flat : ∀ cs, '/' ∉ cs → P cs)
    (cut : ∀ before rest, P before → P rest → P (before ++ '/' :: rest)) (cs : List Char) :
    P cs := by
  induction hn : cs.length using Nat.strong_induction_on generalizing cs with
  | _ n ih =>
    by_cases hmem : '/' ∈ cs
    · obtain ⟨before, rest, rfl⟩ := List.append_of_mem hmem
      subst hn
      simp only [List.length_append, List.length_cons] at ih
      exact cut before rest (ih _ (by omega) before rfl) (ih _ (by omega) rest rfl)
    · exact flat cs hmem

theorem Fixed.segment (h : Fixed cs) : ∀ segment ∈ cs.splitOn '/', Fixed segment := by
  induction cs using slash_induction with
  | flat cs hcs =>
    rw [List.splitOn_eq_singleton hcs]
    simpa using h
  | cut before rest hbefore hrest =>
    obtain ⟨hfb, hfr⟩ := h.split (by decide) (by decide)
    intro segment hs
    rw [List.splitOn_append_cons_self] at hs
    rcases List.mem_append.mp hs with hs | hs
    · exact hbefore hfb segment hs
    · exact hrest hfr segment hs

/-- What may stand between two slashes of a path without parameters. -/
structure Segment (segment : List Char) : Prop where
  fixed : Fixed segment
  flat : '/' ∉ segment
  bare : ';' ∉ segment
  dotless : dotSegment segment = false

theorem withoutParams_of_bare {segment : List Char} (h : ';' ∉ segment) :
    withoutParams segment = segment := by
  unfold withoutParams
  rw [List.takeWhile_eq_self_iff]
  intro c hc
  simp only [bne_iff_ne, ne_eq]
  rintro rfl
  exact h hc

theorem not_mem_withoutParams (segment : List Char) : ';' ∉ withoutParams segment := by
  intro h
  simpa using List.mem_takeWhile_imp h

theorem Fixed.withoutParams {segment : List Char} (h : Fixed segment) :
    Fixed (withoutParams segment) := by
  by_cases hmem : ';' ∈ segment
  · -- the parameters start at the first semicolon
    obtain ⟨before, rest, rfl, hbefore⟩ := List.eq_append_cons_of_mem hmem
    have : Path.withoutParams (before ++ ';' :: rest) = before := by
      unfold Path.withoutParams
      rw [List.takeWhile_append_of_pos]
      · simp
      · intro c hc
        simp only [bne_iff_ne, ne_eq]
        rintro rfl
        exact hbefore hc
    rw [this]
    exact (h.split (by decide) (by decide)).1
  · rw [withoutParams_of_bare hmem]
    exact h

theorem Normal.segment (h : Normal cs) {segment : List Char}
    (hs : segment ∈ cs.splitOn '/') : Segment (withoutParams segment) where
  fixed := (h.fixed.segment segment hs).withoutParams
  flat := fun hmem => (of_mem_splitOn hs ((List.takeWhile_prefix _).subset hmem)).2 rfl
  bare := not_mem_withoutParams segment
  dotless := by
    have hdot := List.any_eq_false.mp h.dotless segment hs
    rw [Bool.not_eq_true] at hdot
    unfold dotSegment at hdot ⊢
    rw [withoutParams_of_bare (not_mem_withoutParams segment)]
    exact hdot

theorem Segment.any {segment : List Char} (h : Segment segment) :
    (segment.splitOn '/').any dotSegment = false := by
  rw [List.splitOn_eq_singleton h.flat]
  simp [h.dotless]

/-- A segment after a slash, or after a slash of its own. -/
theorem Normal.join {segment : List Char} (h : Normal out) (hs : Segment segment) :
    Normal (if out.getLast? == some '/' then out ++ segment else out ++ '/' :: segment) := by
  have hrooted : ∀ more, (out ++ more).head? = some '/' := by
    intro more
    rw [List.head?_append, h.rooted]
    rfl
  split
  next hlast =>
    obtain ⟨stem, rfl⟩ : ∃ stem, out = stem ++ ['/'] := by
      have := List.getLast?_eq_some_iff.mp (by simpa using hlast : out.getLast? = some '/')
      obtain ⟨stem, hstem⟩ := this
      exact ⟨stem, hstem⟩
    refine ⟨hrooted _, h.fixed.append hs.fixed, ?_, ?_⟩
    · rw [merged_append, h.single, merged_of_no_slash _ hs.flat]
      rfl
    · have hdots := h.dotless
      rw [List.splitOn_append_cons_self, List.any_append, Bool.or_eq_false_iff] at hdots
      rw [List.append_assoc, List.singleton_append, List.splitOn_append_cons_self, List.any_append,
        hdots.1, hs.any]
      rfl
  next hlast =>
    have hends : endsSlash false out = false := by
      rcases List.eq_nil_or_concat' out with rfl | ⟨stem, c, rfl⟩
      · rfl
      · rw [endsSlash_append_singleton]
        simpa using hlast
    refine ⟨hrooted _, h.fixed.append ((fixed_cons (by decide) segment).mpr hs.fixed), ?_, ?_⟩
    · rw [merged_append, h.single, hends]
      simp [merged, merged_of_no_slash _ hs.flat]
    · rw [List.splitOn_append_cons_self, List.any_append, h.dotless, hs.any]
      rfl

theorem Normal.joinSegments {segments : List (List Char)} (h : Normal out)
    (hbare : ';' ∉ out) (hs : ∀ segment ∈ segments, Segment segment) :
    Normal (joinSegments out segments) ∧ ';' ∉ joinSegments out segments := by
  induction segments generalizing out with
  | nil => exact ⟨h, hbare⟩
  | cons segment rest ih =>
    have hsegment := hs segment List.mem_cons_self
    have hjoin := h.join hsegment
    have hrest : ∀ s ∈ rest, Segment s := fun s hmem => hs s (List.mem_cons_of_mem segment hmem)
    simp only [Path.joinSegments]
    split at hjoin
    next hlast =>
      rw [if_pos hlast]
      exact ih hjoin (by simp [hbare, hsegment.bare]) hrest
    next hlast =>
      rw [if_neg hlast]
      exact ih hjoin (by simp [hbare, hsegment.bare]) hrest

/-- A normal path read without its parameters is a normal path. -/
theorem Normal.withoutPathParams (h : Normal p.toList) (hmem : ';' ∈ p.toList) :
    ∃ q, withoutPathParams p = some q ∧ ';' ∉ q.toList ∧ Normal q.toList := by
  have hsegments : ∀ segment ∈ (p.toList.splitOn '/').map withoutParams, Segment segment := by
    intro segment hs
    obtain ⟨raw, hraw, rfl⟩ := List.mem_map.mp hs
    exact h.segment hraw
  obtain ⟨rest, hrest⟩ := List.head?_eq_some_iff.mp h.rooted
  obtain ⟨first, others, hsplit⟩ := List.exists_cons_of_ne_nil (List.splitOn_ne_nil '/' rest)
  have hparts : (p.toList.splitOn '/').map withoutParams =
      [] :: withoutParams first :: others.map withoutParams := by
    rw [hrest, List.splitOn_cons_eq_if_modifyHead, hsplit]
    rfl
  rw [hparts] at hsegments
  have hfirst := hsegments (withoutParams first) (by simp)
  have hroot : Normal ('/' :: withoutParams first) := by
    refine ⟨rfl, (fixed_cons (by decide) _).mpr hfirst.fixed, ?_, ?_⟩
    · simp [merged, merged_of_no_slash _ hfirst.flat]
    · have hempty : dotSegment [] = false := by decide
      rw [List.splitOn_cons_eq_if_modifyHead, List.splitOn_eq_singleton hfirst.flat]
      simp [hempty, hfirst.dotless]
  have hbare : ';' ∉ '/' :: withoutParams first := by
    simpa using hfirst.bare
  have hothers : ∀ segment ∈ others.map withoutParams, Segment segment :=
    fun segment hs => hsegments segment (List.mem_cons_of_mem _ (List.mem_cons_of_mem _ hs))
  obtain ⟨hnormal, hno⟩ := hroot.joinSegments hbare hothers
  refine ⟨String.ofList (Path.joinSegments ('/' :: withoutParams first) (others.map withoutParams)),
    ?_, by rwa [String.toList_ofList], by rwa [String.toList_ofList]⟩
  unfold Path.withoutPathParams
  rw [hparts, if_neg (by simpa using hmem)]
  rfl

/-! ## Spellings of one path -/

/-- Not two hex digits. -/
def NoEscape (cs : List Char) : Prop :=
  ∀ a b rest, cs = a :: b :: rest → (a.isHexDigit && b.isHexDigit) = false

/-- One spelling for another: an unreserved character for its escape, an
escape's digits in the other case, a slash for two. What stands before is
characters and whole escapes. Past a `%` that starts no escape both paths are
refused, whatever stands there. -/
inductive Respell : List Char → List Char → Prop
  | escape {c a b : Char} {rest : List Char} (ha : a.isHexDigit = true) (hb : b.isHexDigit = true)
      (hv : unreserved (16 * hexValue a + hexValue b) = true)
      (hc : c = Char.ofNat (16 * hexValue a + hexValue b)) :
      Respell (c :: rest) ('%' :: a :: b :: rest)
  | digits {a b a' b' : Char} {rest : List Char} (ha : a.isHexDigit = true)
      (hb : b.isHexDigit = true) (ha' : a'.isHexDigit = true) (hb' : b'.isHexDigit = true)
      (hau : a.toUpper = a'.toUpper) (hbu : b.toUpper = b'.toUpper) :
      Respell ('%' :: a :: b :: rest) ('%' :: a' :: b' :: rest)
  | slash {rest : List Char} : Respell ('/' :: rest) ('/' :: '/' :: rest)
  | char {c : Char} {cs ds : List Char} (hc : c ≠ '%') (h : Respell cs ds) :
      Respell (c :: cs) (c :: ds)
  | after {a b : Char} {cs ds : List Char} (ha : a.isHexDigit = true) (hb : b.isHexDigit = true)
      (h : Respell cs ds) : Respell ('%' :: a :: b :: cs) ('%' :: a :: b :: ds)
  | refused {cs ds : List Char} (hcs : NoEscape cs) (hds : NoEscape ds) :
      Respell ('%' :: cs) ('%' :: ds)

/-- What a text decodes to, as what merging makes of it after a slash or not. -/
def reading (cs : List Char) : Option (Bool → List Char) :=
  (decode cs).toOption.map fun out slash => mergeFrom slash out

theorem reading_cons (hc : c ≠ '%') (rest : List Char) :
    reading (c :: rest) = (reading rest).map fun out slash =>
      if c == '/' && slash then out slash else c :: out (c == '/') := by
  unfold reading
  rw [decode_cons hc]
  cases decode rest with
  | error e => rfl
  | ok d => rfl

theorem reading_escape {a b : Char} (ha : a.isHexDigit = true) (hb : b.isHexDigit = true)
    (rest : List Char) :
    reading ('%' :: a :: b :: rest) = (reading rest).map fun out slash =>
      mergeFrom slash (decodeEscape a b) ++ out (endsSlash slash (decodeEscape a b)) := by
  unfold reading
  rw [decode_escape, ha, hb]
  cases decode rest with
  | error e => rfl
  | ok d =>
    show some (fun slash => mergeFrom slash (decodeEscape a b ++ d)) = _
    simp only [mergeFrom_append_eq]
    rfl

theorem reading_refused (h : NoEscape cs) : reading ('%' :: cs) = none := by
  unfold reading
  match cs, h with
  | [], _ => rfl
  | [_], _ => rfl
  | a :: b :: rest, h =>
    rw [decode_escape, h a b rest rfl]
    rfl

theorem hexValue_eq_of_toUpper {a b : Char} (ha : a.isHexDigit = true) (hb : b.isHexDigit = true)
    (h : a.toUpper = b.toUpper) : hexValue a = hexValue b := by
  rw [← hexValue_toUpper ha, ← hexValue_toUpper hb, h]

theorem Respell.reading_eq (h : Respell cs ds) : reading cs = reading ds := by
  induction h with
  | @escape c a b rest ha hb hv hc =>
    have hne : c ≠ '%' := hc ▸ ofNat_ne_percent hv
    have hdecode : decodeEscape a b = [c] := by simp [decodeEscape, hv, hc]
    rw [reading_cons hne, reading_escape ha hb, hdecode]
    congr 1
    funext out slash
    simp only [mergeFrom, endsSlash, List.foldl_cons, List.foldl_nil]
    split
    next hboth =>
      obtain ⟨hslash, rfl⟩ := Bool.and_eq_true_iff.mp hboth
      rw [hslash]
      rfl
    next => rfl
  | @digits a b a' b' rest ha hb ha' hb' hau hbu =>
    have hdecode : decodeEscape a b = decodeEscape a' b' := by
      unfold decodeEscape
      rw [hexValue_eq_of_toUpper ha ha' hau, hexValue_eq_of_toUpper hb hb' hbu, hau, hbu]
    rw [reading_escape ha hb, reading_escape ha' hb', hdecode]
  | @slash rest =>
    rw [reading_cons (by decide), reading_cons (by decide), reading_cons (by decide),
      Option.map_map]
    congr 1
    funext out slash
    cases slash <;> rfl
  | char hc _ ih => rw [reading_cons hc, reading_cons hc, ih]
  | after ha hb _ ih => rw [reading_escape ha hb, reading_escape ha hb, ih]
  | refused hcs hds => rw [reading_refused hcs, reading_refused hds]

theorem Respell.head_eq (h : Respell cs ds) : cs.head?.map (· == '/') = ds.head?.map (· == '/') := by
  cases h with
  | escape ha hb hv hc =>
    have hslash : ∀ v, unreserved v = true → (Char.ofNat v == '/') = false := by
      intro v hv
      rw [beq_eq_false_iff_ne]
      intro he
      simp only [unreserved, he, Bool.and_eq_true] at hv
      exact absurd hv.2 (by decide)
    simp [hc, hslash _ hv]
  | digits ha hb ha' hb' hau hbu => rfl
  | slash => rfl
  | char hc h => rfl
  | after ha hb h => rfl
  | refused hcs hds => rfl

/-- A path is refused or read as its first slash and its decoded text say. -/
theorem normalizeChars_toOption (cs : List Char) :
    (normalizeChars cs).toOption = match cs.head?.map (· == '/') with
      | none => some ['/']
      | some false => none
      | some true => (reading cs).bind fun out =>
          if ((out false).splitOn '/').any dotSegment then none else some (out false) := by
  cases cs with
  | nil => rfl
  | cons c rest =>
    simp only [normalizeChars, List.head?_cons, Option.map_some]
    by_cases hc : c = '/'
    · subst hc
      simp only [bne_self_eq_false, beq_self_eq_true]
      unfold reading
      cases decode ('/' :: rest) with
      | error e => rfl
      | ok d =>
        show Except.toOption (if ((merge d).splitOn '/').any dotSegment then _ else _) =
          if ((merge d).splitOn '/').any dotSegment then none else some (merge d)
        split <;> rfl
    · have hne : (c == '/') = false := by simpa using hc
      simp [hne, bne]
      rfl

theorem Respell.normalize (h : Respell cs ds) :
    (normalizeChars cs).toOption = (normalizeChars ds).toOption := by
  rw [normalizeChars_toOption, normalizeChars_toOption, h.head_eq, h.reading_eq]

theorem respelled_normalize (h : Relation.EqvGen Respell cs ds) :
    (normalizeChars cs).toOption = (normalizeChars ds).toOption := by
  induction h with
  | rel cs ds h => exact h.normalize
  | refl cs => rfl
  | symm cs ds _ ih => exact ih.symm
  | trans cs ds es _ _ ih ih' => exact ih.trans ih'

/-! ## The normal form of a path -/

structure Canonical (p : String) : Prop where
  rooted : p.toList.head? = some '/'
  single : ¬ ['/', '/'] <:+: p.toList
  dotless : ∀ segment ∈ p.toList.splitOn '/',
    withoutParams segment ≠ ['.'] ∧ withoutParams segment ≠ ['.', '.']
  escapes : ∀ before rest, p.toList = before ++ '%' :: rest → ∃ a b tail, rest = a :: b :: tail ∧
    a ∈ upperHexDigits ∧ b ∈ upperHexDigits ∧ unreserved (16 * hexValue a + hexValue b) = false

theorem Normal.canonical (h : Normal p.toList) : Canonical p where
  rooted := h.rooted
  single := not_infix_of_merged h.single
  dotless := by
    intro segment hs
    have hdot := List.any_eq_false.mp h.dotless segment hs
    simpa [dotSegment] using hdot
  escapes := fun _ _ hsplit => h.fixed.escapes hsplit

/-- What normalisation accepts is canonical and stays as it is, and so does its
reading without path parameters; and spellings of one path are accepted as one
path or refused together. -/
theorem normalizePath_canonical :
    (∀ raw p, normalizePath raw = .ok p →
      Canonical p ∧ normalizePath p = .ok p ∧
      (';' ∈ p.toList → ∃ q, withoutPathParams p = some q ∧ ';' ∉ q.toList ∧
        normalizePath q = .ok q)) ∧
    (∀ raw raw' : String, Relation.EqvGen Respell raw.toList raw'.toList →
      (∃ e e', normalizePath raw = .error e ∧ normalizePath raw' = .error e') ∨
      (∃ p, normalizePath raw = .ok p ∧ normalizePath raw' = .ok p)) := by
  constructor
  · intro raw p h
    have hnormal := normal_of_normalize (normalizePath_eq_ok.mp h)
    refine ⟨hnormal.canonical, normalizePath_eq_ok.mpr hnormal.normalize, ?_⟩
    intro hmem
    obtain ⟨q, hq, hbare, hqnormal⟩ := hnormal.withoutPathParams hmem
    exact ⟨q, hq, hbare, normalizePath_eq_ok.mpr hqnormal.normalize⟩
  · intro raw raw' h
    have hsame := respelled_normalize h
    unfold normalizePath
    cases hraw : normalizeChars raw.toList with
    | error e =>
      cases hraw' : normalizeChars raw'.toList with
      | error e' => exact .inl ⟨e, e', rfl, rfl⟩
      | ok out' => rw [hraw, hraw'] at hsame; cases hsame
    | ok out =>
      cases hraw' : normalizeChars raw'.toList with
      | error e' => rw [hraw, hraw'] at hsame; cases hsame
      | ok out' =>
        rw [hraw, hraw'] at hsame
        cases hsame
        exact .inr ⟨_, rfl, rfl⟩

/-- `//%61;x/%2fb` and `/a;x/%2Fb` are one path, read without its parameters as
`/a/%2Fb`. -/
theorem normalizePath_canonical_params :
    normalizePath "//%61;x/%2fb" = .ok "/a;x/%2Fb" ∧ normalizePath "/a;x/%2Fb" = .ok "/a;x/%2Fb" ∧
    withoutPathParams "/a;x/%2Fb" = some "/a/%2Fb" ∧ normalizePath "/a/%2Fb" = .ok "/a/%2Fb" := by
  have h : normalizePath "//%61;x/%2fb" = .ok "/a;x/%2Fb" := by decide +kernel
  obtain ⟨-, hfixed, hparams⟩ := normalizePath_canonical.1 _ _ h
  obtain ⟨q, hq, -, hqfixed⟩ := hparams (by decide +kernel)
  have hread : withoutPathParams "/a;x/%2Fb" = some "/a/%2Fb" := by decide +kernel
  rw [hread] at hq
  cases hq
  exact ⟨h, hfixed, hread, hqfixed⟩

end Gapura.Core.PathCanonical
