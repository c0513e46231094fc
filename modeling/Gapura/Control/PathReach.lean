import Gapura.Control.Snapshot

/-! # Whether a request reaches a path the console accepted

Three passes read percent escapes: the console's check, the rewriting of an
accepted value to uppercase, and the normalisation of a request's path. On a
value whose escapes are pairs of hex digits that decoding keeps the three
agree; the console's check also lets `%+d` through, which normalisation
refuses. -/
namespace Gapura.Control.PathReach
open Gapura.Core Core.Path
open Core.Store (uppercaseChars uppercaseEscapes uppercasePath uppercaseChars_cons
  uppercaseChars_escape)
open Core.Matcher (RegexCrate RegexMap noRegex pathMatches prefixMatches)
open Control.Configuration
open Control.Snapshot (parsePath)
open Lib.Checks (bind_eq_ok)
open Lib.Text (of_mem_splitOn)

/-! ## Uppercasing kept escapes -/

variable {cs w : List Char} {c : Char} {kind stored value : String}

theorem uppercaseChars_append (h : Kept cs) (rest : List Char) :
    uppercaseChars (cs ++ rest) = uppercaseChars cs ++ uppercaseChars rest := by
  induction cs using escape_induction with
  | nil => rfl
  | bare => cases h
  | cut a => cases h
  | cons c cs hc ih =>
    rw [kept_cons hc] at h
    rw [List.cons_append, uppercaseChars_cons hc, uppercaseChars_cons hc, ih h, List.cons_append]
  | esc a b cs ih =>
    obtain ⟨ha, hb, _, hk⟩ := (kept_escape a b cs).mp h
    show uppercaseChars ('%' :: a :: b :: (cs ++ rest)) = _
    rw [uppercaseChars_escape ha hb, uppercaseChars_escape ha hb, ih hk]
    rfl

theorem kept_uppercaseChars (h : Kept cs) : Kept (uppercaseChars cs) := by
  induction cs using escape_induction with
  | nil => trivial
  | bare => cases h
  | cut a => cases h
  | cons c cs hc ih =>
    rw [kept_cons hc] at h
    rw [uppercaseChars_cons hc, kept_cons hc]
    exact ih h
  | esc a b cs ih =>
    obtain ⟨ha, hb, hv, hk⟩ := (kept_escape a b cs).mp h
    rw [uppercaseChars_escape ha hb, kept_escape, hexValue_toUpper ha, hexValue_toUpper hb]
    exact ⟨isHexDigit_toUpper ha, isHexDigit_toUpper hb, hv, ih hk⟩

theorem uppercaseChars_idem (h : Kept cs) :
    uppercaseChars (uppercaseChars cs) = uppercaseChars cs := by
  induction cs using escape_induction with
  | nil => rfl
  | bare => cases h
  | cut a => cases h
  | cons c cs hc ih =>
    rw [kept_cons hc] at h
    rw [uppercaseChars_cons hc, uppercaseChars_cons hc, ih h]
  | esc a b cs ih =>
    obtain ⟨ha, hb, _, hk⟩ := (kept_escape a b cs).mp h
    rw [uppercaseChars_escape ha hb,
      uppercaseChars_escape (isHexDigit_toUpper ha) (isHexDigit_toUpper hb), ih hk,
      toUpper_toUpper ha, toUpper_toUpper hb]

/-- Uppercasing moves no slash, dot or semicolon. -/
theorem map_shape_uppercaseChars (h : Kept cs) : (uppercaseChars cs).map shape = cs.map shape := by
  induction cs using escape_induction with
  | nil => rfl
  | bare => cases h
  | cut a => cases h
  | cons c cs hc ih =>
    rw [kept_cons hc] at h
    rw [uppercaseChars_cons hc, List.map_cons, List.map_cons, ih h]
  | esc a b cs ih =>
    obtain ⟨ha, hb, _, hk⟩ := (kept_escape a b cs).mp h
    rw [uppercaseChars_escape ha hb]
    simp only [List.map_cons, shape_toUpper ha, shape_toUpper hb, ih hk]

/-- Decoding a text whose escapes are all kept only uppercases it. -/
theorem decode_append (h : Kept cs) (rest : List Char) :
    decode (cs ++ rest) = (decode rest).map (uppercaseChars cs ++ ·) := by
  induction cs using escape_induction with
  | nil =>
    show decode rest = (decode rest).map ([] ++ ·)
    cases decode rest <;> rfl
  | bare => cases h
  | cut a => cases h
  | cons c cs hc ih =>
    rw [kept_cons hc] at h
    rw [List.cons_append, decode_cons hc, ih h, uppercaseChars_cons hc]
    cases decode rest <;> rfl
  | esc a b cs ih =>
    obtain ⟨ha, hb, hv, hk⟩ := (kept_escape a b cs).mp h
    have hesc : decodeEscape a b = ['%', a.toUpper, b.toUpper] := by
      simp [decodeEscape, hv]
    show decode ('%' :: a :: b :: (cs ++ rest)) = _
    rw [decode_escape, ha, hb, ih hk, hesc, uppercaseChars_escape ha hb]
    cases decode rest <;> rfl

theorem decode_of_kept (h : Kept cs) : decode cs = .ok (uppercaseChars cs) := by
  have := decode_append h []
  simpa [decode, Except.map] using this

/-! ## Plain paths -/

/-- A path that normalisation only uppercases. -/
structure Plain (cs : List Char) : Prop where
  rooted : cs.head? = some '/'
  kept : Kept cs
  single : merged false cs = true
  dotless : (cs.splitOn '/').any dotSegment = false

theorem Plain.uppercase (h : Plain cs) : Plain (uppercaseChars cs) where
  rooted := by
    obtain ⟨rest, rfl⟩ := List.head?_eq_some_iff.mp h.rooted
    rw [uppercaseChars_cons (by decide)]
    rfl
  kept := kept_uppercaseChars h.kept
  single := by rw [← merged_shape, map_shape_uppercaseChars h.kept, merged_shape, h.single]
  dotless := by
    rw [← dotSegments_shape, map_shape_uppercaseChars h.kept, dotSegments_shape, h.dotless]

/-- A rooted text that decodes is merged and then checked for dot segments. -/
theorem normalizeChars_rooted {raw decoded : List Char} (hr : raw.head? = some '/')
    (hd : decode raw = .ok decoded) : normalizeChars raw =
      if ((merge decoded).splitOn '/').any dotSegment then .error "a dot segment in the path"
      else .ok (merge decoded) := by
  obtain ⟨rest, rfl⟩ := List.head?_eq_some_iff.mp hr
  simp only [normalizeChars, hd]
  rfl

theorem Plain.normalize (h : Plain cs) : normalizeChars cs = .ok (uppercaseChars cs) := by
  rw [normalizeChars_rooted h.rooted (decode_of_kept h.kept), merge,
    mergeFrom_of_merged h.uppercase.single, h.uppercase.dotless]
  rfl

/-- Every plain path but `/` is a stem with at most one slash after it. -/
theorem Plain.ends (h : Plain cs) : cs = ['/'] ∨
    ∃ w c, c ≠ '/' ∧ (cs = w ++ [c] ∨ cs = w ++ [c] ++ ['/']) := by
  rcases List.eq_nil_or_concat' cs with hnil | ⟨l, d, rfl⟩
  · rw [hnil] at h
    cases h.rooted
  · by_cases hd : d = '/'
    · subst hd
      rcases List.eq_nil_or_concat' l with rfl | ⟨w, c, rfl⟩
      · exact .inl rfl
      · refine .inr ⟨w, c, ?_, .inr rfl⟩
        intro hc
        have hm := h.single
        rw [merged_append, endsSlash_append_singleton, hc] at hm
        simp [merged] at hm
    · exact .inr ⟨l, d, hd, .inl rfl⟩

theorem dotless_stem (h : ((w ++ ['/']).splitOn '/').any dotSegment = false) :
    (w.splitOn '/').any dotSegment = false := by
  rw [List.splitOn_append_cons_self, List.any_append, Bool.or_eq_false_iff] at h
  exact h.1

theorem Plain.stem (h : Plain (w ++ ['/'])) (hw : w ≠ []) : Plain w where
  rooted := by
    cases w with
    | nil => exact absurd rfl hw
    | cons c rest => exact h.rooted
  kept := kept_of_append_slash h.kept
  single := by
    have hm := h.single
    rw [merged_append, Bool.and_eq_true] at hm
    exact hm.1
  dotless := dotless_stem h.dotless

/-- A path under a plain one normalises to the stem, a slash and the rest. -/
theorem normalizeChars_below (h : Plain cs)
    (hend : uppercaseChars cs = w ++ [c] ∨ uppercaseChars cs = w ++ [c] ++ ['/']) (hc : c ≠ '/') :
    normalizeChars (cs ++ ['/', 'x']) = .ok (w ++ [c] ++ ['/', 'x']) := by
  have hdecode : decode (cs ++ ['/', 'x']) = .ok (uppercaseChars cs ++ ['/', 'x']) := by
    rw [decode_append h.kept]
    rfl
  have hroot : (cs ++ ['/', 'x']).head? = some '/' := by
    rw [List.head?_append, h.rooted]
    rfl
  have hmerge : merge (uppercaseChars cs ++ ['/', 'x']) = w ++ [c] ++ ['/', 'x'] := by
    rw [merge, mergeFrom_append h.uppercase.single]
    rcases hend with hend | hend
    · rw [hend, endsSlash_append_singleton]
      simp [mergeFrom, hc]
    · rw [hend, endsSlash_append_singleton]
      simp [mergeFrom]
  have hdots : ((w ++ [c]).splitOn '/').any dotSegment = false := by
    have hd := h.uppercase.dotless
    rcases hend with hend | hend
    · rwa [hend] at hd
    · rw [hend] at hd
      exact dotless_stem hd
  rw [normalizeChars_rooted hroot hdecode, hmerge, List.splitOn_append_cons_self, List.any_append,
    hdots]
  rfl

/-! ## What the console lets through -/

theorem popSlashes_stem (hc : c ≠ '/') : (popSlashes (w ++ [c]).reverse).reverse = w ++ [c] := by
  rw [List.reverse_append]
  cases hw : w.reverse with
  | nil =>
    obtain rfl : w = [] := List.reverse_eq_nil_iff.mp hw
    rfl
  | cons d rest =>
    have : w = rest.reverse ++ [d] := by simpa using congrArg List.reverse hw
    simp [popSlashes, hc, this]

theorem popSlashes_slash (hc : c ≠ '/') :
    (popSlashes (w ++ [c] ++ ['/']).reverse).reverse = w ++ [c] := by
  have : (w ++ [c] ++ ['/']).reverse = '/' :: c :: w.reverse := by simp
  rw [this, popSlashes, if_pos rfl]
  have h := popSlashes_stem (w := w) hc
  simpa using h

theorem checkEscapes_cons (hc : c ≠ '%') (rest : List Char) :
    checkEscapes (c :: rest) = checkEscapes rest := by
  simp only [checkEscapes, if_neg hc]

theorem radixDigits_pair {a b : Char} {v : Nat} (h : radixDigits 0 [a, b] = some v) :
    a.isHexDigit = true ∧ b.isHexDigit = true ∧ v = 16 * hexValue a + hexValue b := by
  simp only [radixDigits] at h
  split at h
  · rename_i ha
    split at h
    · split at h
      · rename_i hb
        split at h
        · cases h
          exact ⟨ha, hb, by omega⟩
        · cases h
      · cases h
    · cases h
  · cases h

/-- An escape the console accepts is a pair of hex digits unless it has a sign. -/
theorem checkEscapes_escape {a b : Char} {rest : List Char} (ha : a ≠ '+')
    (h : checkEscapes ('%' :: a :: b :: rest) = .ok ()) : a.isHexDigit = true ∧
      b.isHexDigit = true ∧ unreserved (16 * hexValue a + hexValue b) = false ∧
      checkEscapes rest = .ok () := by
  have htake : (a :: b :: rest).take 2 = [a, b] := rfl
  have hlen : ¬ (a :: b :: rest).length < 2 := by simp
  rw [checkEscapes, if_pos rfl, if_neg hlen, htake, u8FromStrRadix, if_neg ha] at h
  split at h
  · cases h
  · rename_i v hv
    obtain ⟨hha, hhb, rfl⟩ := radixDigits_pair hv
    split at h
    · cases h
    · rename_i hu
      rw [checkEscapes_cons (hexDigit_ne_percent hha),
        checkEscapes_cons (hexDigit_ne_percent hhb)] at h
      exact ⟨hha, hhb, by simpa using hu, h⟩

theorem kept_of_checkEscapes (h : checkEscapes cs = .ok ())
    (hsign : ¬ ['%', '+'] <:+: cs) : Kept cs := by
  induction cs using escape_induction with
  | nil => trivial
  | bare => cases h
  | cut a => cases h
  | cons c cs hc ih =>
    rw [checkEscapes_cons hc] at h
    exact (kept_cons hc cs).mpr (ih h fun hi => hsign (hi.trans (List.suffix_cons c cs).isInfix))
  | esc a b cs ih =>
    have ha : a ≠ '+' := by
      intro ha
      exact hsign ⟨[], b :: cs, by rw [ha]; rfl⟩
    obtain ⟨hha, hhb, hv, hrest⟩ := checkEscapes_escape ha h
    have hcs : ¬ ['%', '+'] <:+: cs := fun hi =>
      hsign (hi.trans (List.suffix_append ['%', a, b] cs).isInfix)
    exact (kept_escape a b cs).mpr ⟨hha, hhb, hv, ih hrest hcs⟩

theorem not_infix_of_escaped (h : Escaped cs) : ¬ ['%', '+'] <:+: cs := by
  induction cs using escape_induction with
  | nil => simp
  | bare => cases h
  | cut a => cases h
  | cons c cs hc ih =>
    rw [escaped_cons hc] at h
    intro hi
    rcases List.infix_cons_iff.mp hi with hp | hi
    · exact hc (List.cons_prefix_cons.mp hp).1.symm
    · exact ih h hi
  | esc a b cs ih =>
    obtain ⟨ha, hb, hrest⟩ := (escaped_escape a b cs).mp h
    intro hi
    rcases List.infix_cons_iff.mp hi with hp | hi
    · have hplus := (List.cons_prefix_cons.mp (List.cons_prefix_cons.mp hp).2).1
      rw [← hplus] at ha
      cases ha
    rcases List.infix_cons_iff.mp hi with hp | hi
    · exact hexDigit_ne_percent ha (List.cons_prefix_cons.mp hp).1.symm
    rcases List.infix_cons_iff.mp hi with hp | hi
    · exact hexDigit_ne_percent hb (List.cons_prefix_cons.mp hp).1.symm
    · exact ih hrest hi

theorem escaped_of_normalizeChars {out : List Char} (h : normalizeChars cs = .ok out) :
    Escaped cs := by
  cases cs with
  | nil => trivial
  | cons c rest =>
    simp only [normalizeChars] at h
    split at h
    · cases h
    · split at h
      · cases h
      · rename_i decoded hd
        exact escaped_of_decode hd

/-- Without a semicolon no segment has parameters to look behind. -/
theorem dotSegment_of_mem_splitOn {segment : List Char} (hp : ';' ∉ cs)
    (hs : segment ∈ cs.splitOn '/') :
    dotSegment segment = (segment == ['.'] || segment == ['.', '.']) := by
  have hall : ∀ c ∈ segment, (c != ';') = true := by
    intro c hc
    have hmem := (of_mem_splitOn hs hc).1
    simp only [bne_iff_ne]
    intro hsemi
    rw [hsemi] at hmem
    exact hp hmem
  unfold dotSegment withoutParams
  rw [List.takeWhile_eq_self_iff.mpr hall]

/-- A value the console accepts, and the value it stores. -/
structure Accepted (kind value stored : String) : Prop where
  rooted : value.toList.head? = some '/'
  paramless : ';' ∉ value.toList
  single : ¬ ['/', '/'] <:+: value.toList
  dotless : ((value.toList.splitOn '/').any fun segment =>
    segment == ['.'] || segment == ['.', '.']) = false
  escapes : checkEscapes value.toList = .ok ()
  stored : stored = String.ofList (if kind == "prefix" then
    (popSlashes (uppercaseChars value.toList).reverse).reverse else uppercaseChars value.toList)

theorem accepted_of_plainPath {field : String}
    (h : plainPath kind value field = .ok stored) : Accepted kind value stored := by
  unfold plainPath at h
  simp only at h
  -- each check of the console that fails answers with an error
  split at h
  · cases h
  rename_i hroot
  split at h
  · cases h
  split at h
  · cases h
  split at h
  · cases h
  rename_i hparams
  split at h
  · cases h
  rename_i hsingle
  split at h
  · cases h
  rename_i hdots
  split at h
  · cases h
  rename_i hescapes
  cases h
  exact ⟨not_not.mp hroot, by simpa using hparams, hsingle, by simpa using hdots, hescapes, rfl⟩

theorem Accepted.plain (h : Accepted kind value stored)
    (hsign : ¬ ['%', '+'] <:+: value.toList) : Plain value.toList where
  rooted := h.rooted
  kept := kept_of_checkEscapes h.escapes hsign
  single := merged_of_not_infix h.single (by simp)
  dotless := by
    have hd := h.dotless
    rw [List.any_eq_false] at hd ⊢
    intro segment hs
    rw [dotSegment_of_mem_splitOn h.paramless hs]
    exact hd segment hs

/-! ## Reaching a stored path -/

/-- A request for `raw` passes normalisation, and the entry's path takes it. -/
def Arrives (m : Core.PathMatch) (raw : String) : Prop :=
  ∃ path, normalizePath raw = .ok path ∧ ∀ regexes : RegexMap, pathMatches regexes m path = true

/-- What the operator who typed `value` can expect of the entry compiled from
what was stored. -/
structure Reached (kind value stored : String) (m : Core.PathMatch) : Prop where
  fixed : normalizePath (uppercaseEscapes stored) = .ok (uppercaseEscapes stored)
  arrives : Arrives m value
  below : kind = "prefix" → Arrives m (value ++ "/x")

theorem prefixMatches_below {value rest : List Char} :
    prefixMatches (String.ofList value) (String.ofList (value ++ '/' :: rest)) = true := by
  have hdrop : (value ++ '/' :: rest).dropPrefix? value = some ('/' :: rest) :=
    List.dropPrefix?_append_of_beq _ BEq.rfl
  simp [prefixMatches, hdrop]

theorem uppercaseEscapes_ofList (h : uppercaseChars cs = cs) :
    uppercaseEscapes (String.ofList cs) = String.ofList cs := by
  rw [uppercaseEscapes, String.toList_ofList, h]

theorem Plain.normalizePath (h : Plain value.toList) :
    Path.normalizePath value = .ok (String.ofList (uppercaseChars value.toList)) := by
  rw [Path.normalizePath, h.normalize]
  rfl

theorem Plain.fixed (h : Plain cs) (hup : uppercaseChars cs = cs) :
    Path.normalizePath (uppercaseEscapes (String.ofList cs)) =
      .ok (uppercaseEscapes (String.ofList cs)) := by
  have hn : Plain (String.ofList cs).toList := by rwa [String.toList_ofList]
  rw [uppercaseEscapes_ofList hup, hn.normalizePath, String.toList_ofList, hup]

theorem reached_exact (h : Plain value.toList) :
    Reached "exact" value (String.ofList (uppercaseChars value.toList))
      (uppercasePath (.exact (String.ofList (uppercaseChars value.toList)))) where
  fixed := h.uppercase.fixed (uppercaseChars_idem h.kept)
  arrives := by
    refine ⟨_, h.normalizePath, ?_⟩
    intro regexes
    simp [uppercasePath, pathMatches, uppercaseEscapes_ofList (uppercaseChars_idem h.kept)]
  below := by
    intro hk
    exact absurd hk (by decide)

theorem reached_root (h : Plain value.toList) (hup : uppercaseChars value.toList = ['/']) :
    Reached "prefix" value (String.ofList ['/']) (uppercasePath (.pathPrefix (String.ofList ['/'])))
    where
  fixed := by decide +kernel
  arrives := by
    refine ⟨_, h.normalizePath, ?_⟩
    intro regexes
    rfl
  below := by
    intro _
    refine ⟨String.ofList ['/', 'x'], ?_, fun _ => rfl⟩
    have hdecode : decode (value.toList ++ ['/', 'x']) = .ok ['/', '/', 'x'] := by
      rw [decode_append h.kept, hup]
      rfl
    have hroot : (value.toList ++ ['/', 'x']).head? = some '/' := by
      rw [List.head?_append, h.rooted]
      rfl
    have hchars : (value ++ "/x").toList = value.toList ++ ['/', 'x'] := String.toList_append
    rw [Path.normalizePath, hchars, normalizeChars_rooted hroot hdecode]
    rfl

theorem reached_stem (h : Plain value.toList)
    (hc : c ≠ '/') (hend : uppercaseChars value.toList = w ++ [c] ∨
      uppercaseChars value.toList = w ++ [c] ++ ['/']) :
    Reached "prefix" value (String.ofList (w ++ [c]))
      (uppercasePath (.pathPrefix (String.ofList (w ++ [c])))) := by
  have hidem := uppercaseChars_idem h.kept
  have hplain : Plain (w ++ [c]) := by
    have hp := h.uppercase
    rcases hend with hend | hend
    · rwa [hend] at hp
    · rw [hend] at hp
      exact hp.stem (by simp)
  have hup : uppercaseChars (w ++ [c]) = w ++ [c] := by
    rcases hend with hend | hend
    · rwa [hend] at hidem
    · rw [hend, uppercaseChars_append hplain.kept] at hidem
      exact List.append_cancel_right hidem
  refine ⟨hplain.fixed hup, ⟨_, h.normalizePath, ?_⟩, ?_⟩
  · intro regexes
    simp only [uppercasePath, pathMatches, uppercaseEscapes_ofList hup]
    rcases hend with hend | hend
    · rw [hend]
      simp [prefixMatches]
    · rw [hend]
      exact prefixMatches_below
  · intro _
    refine ⟨String.ofList (w ++ [c] ++ ['/', 'x']), ?_, ?_⟩
    · have hchars : (value ++ "/x").toList = value.toList ++ ['/', 'x'] := String.toList_append
      rw [Path.normalizePath, hchars, normalizeChars_below h hend hc]
      rfl
    · intro regexes
      simp only [uppercasePath, pathMatches, uppercaseEscapes_ofList hup]
      exact prefixMatches_below

theorem Accepted.reached_prefix (h : Accepted "prefix" value stored)
    (hsign : ¬ ['%', '+'] <:+: value.toList) :
    Reached "prefix" value stored (uppercasePath (.pathPrefix stored)) := by
  have hplain := h.plain hsign
  have hstored : stored =
      String.ofList (popSlashes (uppercaseChars value.toList).reverse).reverse := h.stored
  rcases hplain.uppercase.ends with hup | ⟨w, c, hc, hend⟩
  · rw [hup] at hstored
    subst hstored
    exact reached_root hplain hup
  · have hpop : (popSlashes (uppercaseChars value.toList).reverse).reverse = w ++ [c] := by
      rcases hend with hend | hend
      · rw [hend]
        exact popSlashes_stem hc
      · rw [hend]
        exact popSlashes_slash hc
    rw [hpop] at hstored
    subst hstored
    exact reached_stem hplain hc hend

theorem getLast?_popSlashes (cs : List Char) : (popSlashes cs).getLast? = cs.getLast? := by
  fun_induction popSlashes cs with
  | case1 d rest ih => rw [ih, List.getLast?_cons_cons]
  | case2 c d rest hc => rfl
  | case3 cs hcs => rfl

theorem Accepted.head?_stored (h : Accepted kind value stored) : stored.toList.head? = some '/' := by
  have hup : (uppercaseChars value.toList).head? = some '/' := by
    obtain ⟨rest, hrest⟩ := List.head?_eq_some_iff.mp h.rooted
    rw [hrest, uppercaseChars_cons (by decide)]
    rfl
  rw [h.stored, String.toList_ofList]
  split
  · rw [List.head?_reverse, getLast?_popSlashes, List.getLast?_reverse, hup]
  · exact hup

/-- The request's own walk over escapes admits no sign. -/
theorem not_infix_of_arrives {m : Core.PathMatch} {raw : String} (h : Arrives m raw) :
    ¬ ['%', '+'] <:+: raw.toList := by
  obtain ⟨path, hpath, _⟩ := h
  unfold Path.normalizePath at hpath
  cases hn : normalizeChars raw.toList with
  | error e => rw [hn] at hpath; cases hpath
  | ok out => exact not_infix_of_escaped (escaped_of_normalizeChars hn)

theorem Accepted.reached_iff (rx : RegexCrate)
    (hkind : kind = "prefix" ∨ kind = "exact") (h : Accepted kind value stored) :
    ∃ m, parsePath rx ⟨kind, stored⟩ = .ok m ∧
      (Reached kind value stored (uppercasePath m) ↔ ¬ ['%', '+'] <:+: value.toList) := by
  have hroot := h.head?_stored
  rcases hkind with hkind | hkind
  · subst hkind
    refine ⟨.pathPrefix stored, by simp [parsePath, hroot], ?_, h.reached_prefix⟩
    intro hr
    exact not_infix_of_arrives hr.arrives
  · subst hkind
    refine ⟨.exact stored, by simp [parsePath, hroot], ?_, ?_⟩
    · intro hr
      exact not_infix_of_arrives hr.arrives
    · intro hsign
      have hstored : stored = String.ofList (uppercaseChars value.toList) := h.stored
      subst hstored
      exact reached_exact (h.plain hsign)

/-! ## A route's paths -/

variable {rx : RegexCrate} {reason : Matcher.RegexError → String}

/-- The loop keeps what it holds and adds what each path is stored as. -/
theorem paths_ok {entries out stored : List Configuration.PathMatch} {i : Nat}
    (h : paths rx reason i out entries = .ok stored) : out ⊆ stored ∧
      ∀ p ∈ entries, ∃ j value, pathValue rx reason j p = .ok value ∧ ⟨p.kind, value⟩ ∈ stored := by
  induction entries generalizing i out with
  | nil =>
    cases h
    exact ⟨List.Subset.refl _, by simp⟩
  | cons path rest ih =>
    rw [paths] at h
    split at h
    · cases h
    · rename_i value hvalue
      obtain ⟨hout, hrest⟩ := ih h
      refine ⟨?_, ?_⟩
      · intro e he
        apply hout
        split
        · exact he
        · exact List.mem_append_left _ he
      · intro p hp
        rcases List.mem_cons.mp hp with rfl | hp
        · refine ⟨i, value, hvalue, hout ?_⟩
          split
          · rename_i hc
            simpa using hc
          · simp
        · exact hrest p hp

theorem plainPath_of_pathValue {j : Nat} {p : Configuration.PathMatch}
    (h : pathValue rx reason j p = .ok value) (hk : p.kind ≠ "regex") :
    (p.kind = "prefix" ∨ p.kind = "exact") ∧ ∃ field, plainPath p.kind p.value field = .ok value := by
  unfold pathValue at h
  simp only at h
  split at h
  · cases h
  rename_i htypes
  split at h
  · cases h
  split at h
  · rename_i hregex
    exact absurd (by simpa using hregex) hk
  · refine ⟨?_, _, h⟩
    have hmem : p.kind ∈ pathTypes := by simpa using htypes
    have hcases : p.kind = "prefix" ∨ p.kind = "exact" ∨ p.kind = "regex" := by
      simpa [pathTypes] using hmem
    rcases hcases with hp | hp | hp
    · exact .inl hp
    · exact .inr hp
    · exact absurd hp hk

/-- The lists of an accepted route are what their checks made of those given. -/
theorem lists_of_route {input : RouteInput} {kind : Write} {r : Route} {seen : Option String}
    (h : route rx reason input kind = .ok (r, seen)) :
    paths rx reason 0 [] input.paths = .ok r.paths ∧
      headers 0 [] (input.headers.getD []) = .ok r.headers := by
  simp only [route] at h
  obtain ⟨routeName, -, h⟩ := bind_eq_ok.mp h
  obtain ⟨serviceName, -, h⟩ := bind_eq_ok.mp h
  split at h
  · cases h
  obtain ⟨hosts, -, h⟩ := bind_eq_ok.mp h
  split at h
  · cases h
  obtain ⟨paths, hpaths, h⟩ := bind_eq_ok.mp h
  obtain ⟨methods, -, h⟩ := bind_eq_ok.mp h
  split at h
  · cases h
  obtain ⟨headers, hheaders, h⟩ := bind_eq_ok.mp h
  split at h
  · cases h
  obtain ⟨⟨⟩, -, h⟩ := bind_eq_ok.mp h
  obtain ⟨seen', -, h⟩ := bind_eq_ok.mp h
  cases h
  exact ⟨hpaths, hheaders⟩

/-- A prefix or exact path the console accepts is stored in a form that requests
for it arrive in, exactly when it has no `%+`. -/
theorem accepted_path_reached_iff {input : RouteInput} {kind : Write} {r : Route}
    {seen : Option String} (h : route rx reason input kind = .ok (r, seen))
    {p : Configuration.PathMatch} (hp : p ∈ input.paths) (hk : p.kind ≠ "regex") :
    ∃ stored m, ⟨p.kind, stored⟩ ∈ r.paths ∧
      (∃ field, plainPath p.kind p.value field = .ok stored) ∧
      parsePath rx ⟨p.kind, stored⟩ = .ok m ∧
      (Reached p.kind p.value stored (uppercasePath m) ↔ ¬ ['%', '+'] <:+: p.value.toList) := by
  obtain ⟨_, hstored⟩ := paths_ok (lists_of_route h).1
  obtain ⟨j, stored, hvalue, hmem⟩ := hstored p hp
  obtain ⟨hkind, field, hplain⟩ := plainPath_of_pathValue hvalue hk
  obtain ⟨m, hm, hiff⟩ := (accepted_of_plainPath hplain).reached_iff rx hkind
  exact ⟨stored, m, hmem, ⟨field, hplain⟩, hm, hiff⟩

/-- The form that creates a prefix route for `value` on a host of its own. -/
def prefixRoute (value : String) : RouteInput :=
  { name := "r", service := "s", hosts := ["a.test"], paths := [⟨"prefix", value⟩] }

theorem accepted_path_reached_docs : ∃ stored m,
    Reached "prefix" "/docs/%2f/" stored (uppercasePath m) := by
  have hroute : route noRegex (fun _ => "") (prefixRoute "/docs/%2f/") .create =
      .ok ({ name := "r", service := "s", hosts := ["a.test"], paths := [⟨"prefix", "/docs/%2F"⟩]
             methods := [], headers := [], stripPath := false, priority := 0 }, none) := by
    decide +kernel
  obtain ⟨stored, m, _, _, _, hiff⟩ := accepted_path_reached_iff hroute
    (p := ⟨"prefix", "/docs/%2f/"⟩) (by decide) (by decide)
  exact ⟨stored, m, hiff.mpr (by decide)⟩

/-- The console reads `%+1` as the number 1 and stores the path; no request for
it passes normalisation. -/
theorem signed_escape_unreached :
    (route noRegex (fun _ => "") (prefixRoute "/a%+1") .create).map (fun p => p.1.paths) =
      .ok [⟨"prefix", "/a%+1"⟩] ∧
    parsePath noRegex ⟨"prefix", "/a%+1"⟩ = .ok (.pathPrefix "/a%+1") ∧
    normalizePath "/a%+1" = .error "an invalid percent escape" ∧
    ¬ Reached "prefix" "/a%+1" "/a%+1" (uppercasePath (.pathPrefix "/a%+1")) := by
  refine ⟨by decide +kernel, by rfl, by decide +kernel, ?_⟩
  intro hr
  exact not_infix_of_arrives hr.arrives (by decide)

end Gapura.Control.PathReach
