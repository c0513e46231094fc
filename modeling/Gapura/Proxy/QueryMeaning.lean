import Gapura.Proxy.EditMeaning

/-! # What a transformer's edits of a query mean

The pieces of a query hold what a form decoder reads in them. An edit's passes
over the pieces follow the edit of that map, leave every piece they do not name
as it was written, and the pieces joined again are the query that is sent. -/
namespace Gapura.Proxy.Transform
open Gapura.Core Lib.MultiMap Lib.Headers Lib.Text Proxy.Plugin

/-- The pieces as one query. -/
def joined (params : List Param) : String := "&".intercalate (params.map Param.raw)

section Values

variable (form : Form)

/-- The value of a piece, decoded; empty without a `=`. -/
def valueOf (raw : String) : String :=
  form.decode (((splitOnce "=" raw).map Prod.snd).getD "")

/-- The pairs of a query as a form is read, which passes over empty pieces. -/
def formPairs (query : String) : List (String × String) :=
  ((splitOn '&' query).filter fun piece => !piece.isEmpty).map fun piece =>
    ((Param.read form piece).name, valueOf form piece)

def formValues (query name : String) : List String :=
  ((formPairs form query).filter fun pair => pair.1 == name).map Prod.snd

/-- What the pieces hold under a name. -/
def holds (params : List Param) (name : String) : List String :=
  (params.filter fun q => !q.raw.isEmpty && q.name == name).map fun q =>
    valueOf form q.raw

theorem formValues_eq (query name : String) : formValues form query name =
    holds form ((splitOn '&' query).map (Param.read form)) name := by
  simp [formValues, formPairs, holds, List.filter_map, List.filter_filter, Function.comp_def,
    Param.read, Bool.and_comm]

variable {form}

theorem holds_append (ps qs : List Param) (name : String) :
    holds form (ps ++ qs) name =
      holds form ps name ++ holds form qs name := by
  simp [holds]

/-- Keeping pieces by their names keeps or drops all a name holds. -/
theorem holds_filter (keep : String → Bool) (ps : List Param) (name : String) :
    holds form (ps.filter fun q => keep q.name) name =
      if keep name then holds form ps name else [] := by
  unfold holds
  rw [List.filter_filter]
  have hname : ∀ q ∈ ps, (!q.raw.isEmpty && q.name == name && keep q.name) =
      (!q.raw.isEmpty && q.name == name && keep name) := by
    intro q _
    cases hq : q.name == name with
    | false => simp
    | true => rw [eq_of_beq hq]
  rw [List.filter_congr hname]
  cases keep name with
  | false => simp
  | true => simp

theorem holds_eq_nil {ps : List Param} {name : String} (h : ∀ q ∈ ps, q.name ≠ name) :
    holds form ps name = [] := by
  unfold holds
  rw [List.filter_eq_nil_iff.mpr fun q hq => by simp [h q hq], List.map_nil]

end Values

/-! ## Pieces -/

/-- What the libraries are relied on for. A text comes back from what encodes it, in
which nothing separates names, values and pieces. A query the http crate produced
holds characters that a query may hold, and so does what is encoded here; and the
path of a URI it produced, alone or before a query of such characters, reads as
that path and that query. -/
structure Libraries (form : Form) (setPathAndQuery : Uri → String → Option Uri)
    (produced : Uri → Prop) (queryChar : Char → Prop) : Prop where
  decodes : ∀ s, form.decode (form.encode s) = s
  empty : form.decode "" = ""
  encoded : ∀ s, ∀ c ∈ (form.encode s).toList, queryChar c ∧ c ≠ '=' ∧ c ≠ '&'
  signs : queryChar '=' ∧ queryChar '&'
  own : ∀ uri, produced uri → ∀ query, uri.query = some query → ∀ c ∈ query.toList, queryChar c
  bare : ∀ uri, produced uri → setPathAndQuery uri uri.path = some { uri with query := none }
  withQuery : ∀ uri, produced uri → ∀ query, (∀ c ∈ query.toList, queryChar c) →
    setPathAndQuery uri (uri.path ++ "?" ++ query) = some { uri with query := some query }

/-- A piece under the name it decodes to, of characters a query may hold. -/
structure Piece (form : Form) (queryChar : Char → Prop) (q : Param) :
    Prop where
  read : Param.read form q.raw = q
  single : '&' ∉ q.raw.toList
  chars : ∀ c ∈ q.raw.toList, queryChar c

variable {form : Form} {setPathAndQuery : Uri → String → Option Uri}
  {produced : Uri → Prop} {queryChar : Char → Prop}
  (hlib : Libraries form setPathAndQuery produced queryChar)

include hlib

variable (s : String) {q : Param}

/-- Encoded text holds no sign that a query is split at. -/
theorem not_mem_encode : '=' ∉ (form.encode s).toList ∧ '&' ∉ (form.encode s).toList :=
  ⟨fun h => (hlib.encoded s _ h).2.1 rfl, fun h => (hlib.encoded s _ h).2.2 rfl⟩

/-- An encoded name before a value is a piece of that name and that value. -/
theorem piece_of_value (name value : String) (hsingle : '&' ∉ value.toList)
    (hchars : ∀ c ∈ value.toList, queryChar c) :
    Piece form queryChar ⟨name, form.encode name ++ "=" ++ value⟩ ∧
      valueOf form (form.encode name ++ "=" ++ value) = form.decode value := by
  obtain ⟨hequals, hamp⟩ := not_mem_encode hlib name
  have hsplit : splitOnce "=" (form.encode name ++ "=" ++ value) = some (form.encode name, value) :=
    splitOnce_append rfl hequals value
  refine ⟨⟨?_, ?_, ?_⟩, ?_⟩
  · simp [Param.read, hsplit, hlib.decodes]
  · simpa [hamp] using hsingle
  · intro c hc
    simp only [String.toList_append, List.mem_append] at hc
    rcases hc with (hc | hc) | hc
    · exact (hlib.encoded name c hc).1
    · obtain rfl : c = '=' := by simpa using hc
      exact hlib.signs.1
    · exact hchars c hc
  · simp [valueOf, hsplit]

omit hlib in
theorem new_raw (name value : String) :
    (Param.new form name value).raw = form.encode name ++ "=" ++ form.encode value := by
  simp [Param.new, Form.encode, spacesEscaped, ← String.toList_inj]

theorem piece_new (name value : String) :
    Piece form queryChar (.new form name value) ∧
      valueOf form (Param.new form name value).raw = value := by
  have h := piece_of_value hlib name (form.encode value) (not_mem_encode hlib value).2
    fun c hc => (hlib.encoded value c hc).1
  rwa [hlib.decodes, ← new_raw] at h

theorem piece_renamed (h : Piece form queryChar q) (name : String) :
    Piece form queryChar (q.renamed form name) ∧
      valueOf form (q.renamed form name).raw = valueOf form q.raw := by
  unfold Param.renamed
  cases hsplit : splitOnce "=" q.raw with
  | some parts =>
    have hraw := congrArg String.toList (append_of_splitOnce hsplit)
    have hsub : ∀ c ∈ parts.2.toList, c ∈ q.raw.toList := by
      intro c hc
      rw [hraw]
      simp [hc]
    have hpiece := piece_of_value hlib name parts.2
      (fun hamp => h.single (hsub _ hamp)) fun c hc => h.chars c (hsub c hc)
    refine ⟨hpiece.1, hpiece.2.trans ?_⟩
    simp [valueOf, hsplit]
  | none =>
    obtain ⟨hequals, hamp⟩ := not_mem_encode hlib name
    have hnone : splitOnce "=" (form.encode name) = none := splitOnce_eq_none rfl hequals
    refine ⟨⟨?_, hamp, fun c hc => (hlib.encoded name c hc).1⟩, ?_⟩
    · simp [Param.read, hnone, hlib.decodes]
    · simp [valueOf, hsplit, hnone]

theorem Piece.raw_ne (h : Piece form queryChar q) (hname : q.name ≠ "") : q.raw ≠ "" := by
  intro hraw
  apply hname
  rw [← h.read, hraw]
  exact hlib.empty

/-! ## The passes over the pieces -/

/-- Pieces, and what they hold name by name. -/
structure QueryFollows (form : Form) (queryChar : Char → Prop)
    (ps : List Param) (f : String → List String) : Prop where
  pieces : ∀ q ∈ ps, Piece form queryChar q
  holds : ∀ name, holds form ps name = f name

omit hlib in
theorem insertIdx_length {α : Type} (before after : List α) (a : α) :
    (before ++ after).insertIdx before.length a = before ++ a :: after := by
  induction before with
  | nil => rfl
  | cons b before ih => simpa using ih

omit hlib in
/-- The new piece stands where the first of its name did. -/
theorem replaceParam_cases (form : Form) (ps : List Param) (p : String × String) :
    ((ps.any fun q => q.name == p.1) = false ∧ replaceParam form ps p = ps) ∨
    ∃ before q after, ps = before ++ q :: after ∧ q.name = p.1 ∧
      (∀ r ∈ before, r.name ≠ p.1) ∧
      replaceParam form ps p =
        before ++ .new form p.1 p.2 :: after.filter fun r => r.name != p.1 := by
  unfold replaceParam
  cases hfind : ps.findIdx? fun q => q.name == p.1 with
  | none =>
    refine .inl ⟨?_, rfl⟩
    simpa using hfind
  | some i =>
    obtain ⟨hi, hname, hfirst⟩ := List.findIdx?_eq_some_iff_getElem.mp hfind
    have hbefore : ∀ r ∈ ps.take i, r.name ≠ p.1 := by
      intro r hr
      obtain ⟨j, hj, rfl⟩ := List.mem_take_iff_getElem.mp hr
      simpa using hfirst j (by omega)
    have hsplit : ps = ps.take i ++ ps[i] :: ps.drop (i + 1) := by simp
    have hkept : (ps.filter fun q => q.name != p.1) =
        ps.take i ++ (ps.drop (i + 1)).filter fun q => q.name != p.1 := by
      conv_lhs => rw [hsplit]
      rw [List.filter_append, List.filter_cons_of_neg (by simpa using hname),
        List.filter_eq_self.mpr (by simpa using hbefore)]
    refine .inr ⟨ps.take i, ps[i], ps.drop (i + 1), hsplit, eq_of_beq hname, hbefore, ?_⟩
    have hlen : (ps.take i).length = i := List.length_take_of_le (Nat.le_of_lt hi)
    have hput := insertIdx_length (ps.take i) ((ps.drop (i + 1)).filter fun q => q.name != p.1)
      (.new form p.1 p.2)
    rw [hlen] at hput
    rw [← hput, ← hkept]

variable {ps : List Param} {f : String → List String}

variable {name : String} {uri : Uri} {edits : HeaderEdits}

theorem holds_of_pieces (hps : ∀ q ∈ ps, Piece form queryChar q)
    (hname : name ≠ "") : holds form ps name =
      (ps.filter fun q => q.name == name).map fun q => valueOf form q.raw := by
  unfold holds
  congr 1
  apply List.filter_congr
  intro q hq
  cases heq : q.name == name with
  | false => simp
  | true =>
    have hraw := (hps q hq).raw_ne hlib (by rwa [eq_of_beq heq])
    simpa using hraw

theorem holds_new (hname : name ≠ "") (value k : String) :
    holds form [.new form name value] k = if k = name then [value] else [] := by
  obtain ⟨hpiece, hvalue⟩ := piece_new hlib name value
  have hlabel : (Param.new form name value).name = name := rfl
  split
  next hk =>
    rw [hk, holds_of_pieces hlib (by simpa using hpiece) hname]
    simp [hlabel, hvalue]
  next hk =>
    refine holds_eq_nil fun q hq => ?_
    rw [List.mem_singleton.mp hq, hlabel]
    exact Ne.symm hk

theorem holds_renamed (hps : ∀ q ∈ ps, Piece form queryChar q) {p : String × String}
    (hfrom : p.1 ≠ "") (hto : p.2 ≠ "") (k : String) :
    holds form ((ps.filter fun q => q.name == p.1).map fun q => q.renamed form p.2) k =
      if k = p.2 then holds form ps p.1 else [] := by
  have hpiece : ∀ q ∈ ps.filter (fun q => q.name == p.1), Piece form queryChar
      (q.renamed form p.2) ∧ valueOf form (q.renamed form p.2).raw = valueOf form q.raw :=
    fun q hq => piece_renamed hlib (hps q (List.mem_of_mem_filter hq)) p.2
  have hname : ∀ q ∈ (ps.filter fun q => q.name == p.1).map fun q => q.renamed form p.2,
      q.name = p.2 := by
    intro q hq
    obtain ⟨r, -, rfl⟩ := List.mem_map.mp hq
    rfl
  split
  next hk =>
    rw [hk, holds_of_pieces hlib (List.forall_mem_map.mpr fun q hq => (hpiece q hq).1) hto,
      List.filter_eq_self.mpr fun q hq => beq_iff_eq.mpr (hname q hq),
      holds_of_pieces hlib hps hfrom, List.map_map]
    exact List.map_congr_left fun q hq => (hpiece q hq).2
  next hk => exact holds_eq_nil fun q hq => by rw [hname q hq]; exact Ne.symm hk

namespace QueryFollows

variable (h : QueryFollows form queryChar ps f)

include h

theorem isEmpty {name : String} (hname : name ≠ "") :
    (f name).isEmpty = !ps.any fun q => q.name == name := by
  rw [← h.holds, holds_of_pieces hlib h.pieces hname, List.isEmpty_map, Bool.eq_iff_iff]
  simp

omit hlib in
theorem remove (names : List String) :
    QueryFollows form queryChar (ps.filter fun q => !names.contains q.name)
      (names.foldl removed f) := by
  refine ⟨fun q hq => h.pieces q (List.mem_of_mem_filter hq), fun name => ?_⟩
  rw [holds_filter (fun name => !names.contains name), foldl_removed, h.holds]
  by_cases hname : name ∈ names
  · simp [hname]
  · simp [hname]

variable {p : String × String}

theorem rename (hfrom : p.1 ≠ "") (hto : p.2 ≠ "") :
    QueryFollows form queryChar (renameParams form ps p) (renamed f p) := by
  unfold renameParams renamed
  rw [h.isEmpty hlib hfrom]
  cases hany : ps.any fun q => q.name == p.1 with
  | false => exact h
  | true =>
    refine ⟨fun q hq => ?_, fun name => ?_⟩
    · rcases List.mem_append.mp hq with hq | hq
      · exact h.pieces q (List.mem_of_mem_filter hq)
      · obtain ⟨r, hr, rfl⟩ := List.mem_map.mp hq
        exact (piece_renamed hlib (h.pieces r (List.mem_of_mem_filter hr)) p.2).1
    · simp only [if_true, Bool.not_true, Bool.false_eq_true, if_false]
      rw [holds_append, holds_renamed hlib h.pieces hfrom hto,
        holds_filter (fun name => name != p.1 && name != p.2), h.holds, h.holds]
      by_cases hname : name = p.2
      · simp [hname]
      · rw [Function.update_of_ne hname]
        by_cases hold : name = p.1
        · rw [if_neg hname, hold]
          simp
        · simp [hold, hname]

theorem push (hname : p.1 ≠ "") :
    QueryFollows form queryChar (ps ++ [.new form p.1 p.2]) (appended f p) := by
  refine ⟨fun q hq => ?_, fun name => ?_⟩
  · rcases List.mem_append.mp hq with hq | hq
    · exact h.pieces q hq
    · rw [List.mem_singleton.mp hq]
      exact (piece_new hlib p.1 p.2).1
  · rw [holds_append, holds_new hlib hname, h.holds, appended]
    by_cases hk : name = p.1
    · simp [hk]
    · simp [hk]

theorem add (hname : p.1 ≠ "") : QueryFollows form queryChar (addParam form ps p) (added f p) := by
  unfold addParam added
  rw [h.isEmpty hlib hname]
  cases hany : ps.any fun q => q.name == p.1 with
  | true => exact h
  | false =>
    have hnone : f p.1 = [] := by
      simpa [hany] using h.isEmpty hlib hname
    have hpush := h.push hlib hname
    rw [appended, hnone] at hpush
    exact hpush

theorem replace (hname : p.1 ≠ "") :
    QueryFollows form queryChar (replaceParam form ps p) (replaced f p) := by
  unfold replaced
  rw [h.isEmpty hlib hname]
  obtain ⟨hany, hsame⟩ | ⟨before, q, after, rfl, hq, hbefore, hput⟩ := replaceParam_cases form ps p
  · rw [hsame, hany]
    exact h
  · have hsome : ((before ++ q :: after).any fun q => q.name == p.1) = true := by simp [hq]
    rw [hput, hsome]
    refine ⟨fun r hr => ?_, fun name => ?_⟩
    · rcases List.mem_append.mp hr with hr | hr
      · exact h.pieces r (List.mem_append_left _ hr)
      · rcases List.mem_cons.mp hr with rfl | hr
        · exact (piece_new hlib p.1 p.2).1
        · exact h.pieces r
            (List.mem_append_right _ (List.mem_cons_of_mem q (List.mem_of_mem_filter hr)))
    · have hall := h.holds name
      rw [← List.singleton_append, holds_append, holds_append] at hall ⊢
      rw [holds_new hlib hname, holds_filter (fun name => name != p.1)]
      by_cases hk : name = p.1
      · simp [hk, holds_eq_nil hbefore]
      · have hfirst : Transform.holds form [q] name = [] :=
          holds_eq_nil fun r hr => by rw [List.mem_singleton.mp hr, hq]; exact Ne.symm hk
        rw [hfirst] at hall
        simp [hk, ← hall]

/-- The five passes over the pieces follow the edit. -/
theorem editParams {edits : HeaderEdits} (hw : Writable edits) :
    QueryFollows form queryChar (editParams form ps edits)
      ((meaning id id edits).apply f) := by
  have hpush : ∀ qs : List Param, qs ++ edits.append.map (fun p => Param.new form p.1 p.2) =
      edits.append.foldl (fun qs p => qs ++ [Param.new form p.1 p.2]) qs := by
    intro qs
    rw [List.foldl_append_eq_append, ← List.flatMap_def, ← List.map_eq_flatMap]
  have hremove := h.remove edits.remove
  have hrename := foldl_follows (R := QueryFollows form queryChar) (renameParams form) renamed
    (Prod.map id id) (fun p (hp : p ∈ edits.rename) _ _ h => QueryFollows.rename hlib h
      (ne_empty_of_nameOk (hw.rename p hp).1) (ne_empty_of_nameOk (hw.rename p hp).2)) hremove
  have hreplace := foldl_follows (R := QueryFollows form queryChar) (replaceParam form) replaced
    (Prod.map id id) (fun p (hp : p ∈ edits.replace) _ _ h => QueryFollows.replace hlib h
      (ne_empty_of_nameOk (hw.replace p hp).1)) hrename
  have hadd := foldl_follows (R := QueryFollows form queryChar) (addParam form) added
    (Prod.map id id) (fun p (hp : p ∈ edits.add) _ _ h => QueryFollows.add hlib h
      (ne_empty_of_nameOk (hw.add p hp).1)) hreplace
  have happend := foldl_follows (R := QueryFollows form queryChar)
    (fun qs p => qs ++ [Param.new form p.1 p.2]) appended (Prod.map id id)
    (fun p (hp : p ∈ edits.append) _ _ h => QueryFollows.push hlib h
      (ne_empty_of_nameOk (hw.append p hp).1)) hadd
  rw [← hpush] at happend
  rw [Edits.apply, meaning, List.map_id]
  exact happend

end QueryFollows

/-! ## The pieces no edit names -/

/-- The pieces of other names, as they were written. -/
def others (names : List String) (params : List Param) : List Param :=
  params.filter fun q => !names.contains q.name

section Others

omit hlib

variable {names : List String}

theorem others_append (ps qs : List Param) :
    others names (ps ++ qs) = others names ps ++ others names qs := List.filter_append ..

theorem others_eq_nil (h : ∀ q ∈ ps, q.name ∈ names) : others names ps = [] :=
  List.filter_eq_nil_iff.mpr fun q hq => by simp [h q hq]

theorem others_filter (keep : String → Bool) (h : ∀ name, name ∉ names → keep name = true) :
    others names (ps.filter fun q => keep q.name) = others names ps := by
  unfold others
  rw [List.filter_filter]
  apply List.filter_congr
  intro q _
  by_cases hq : q.name ∈ names
  · simp [hq]
  · simp [hq, h q.name hq]

variable {p : String × String}

theorem others_new (hp : p.1 ∈ names) : others names [Param.new form p.1 p.2] = [] :=
  others_eq_nil fun q hq => by rw [List.mem_singleton.mp hq]; exact hp

theorem others_rename (hfrom : p.1 ∈ names) (hto : p.2 ∈ names) :
    others names (renameParams form ps p) = others names ps := by
  unfold renameParams
  split
  · have hmoved : others names ((ps.filter fun q => q.name == p.1).map
        fun q => q.renamed form p.2) = [] := others_eq_nil fun q hq => by
      obtain ⟨r, -, rfl⟩ := List.mem_map.mp hq
      exact hto
    rw [others_append, hmoved, List.append_nil]
    refine others_filter (fun name => name != p.1 && name != p.2) fun name hname => ?_
    have h1 : name ≠ p.1 := fun h => hname (h ▸ hfrom)
    have h2 : name ≠ p.2 := fun h => hname (h ▸ hto)
    simp [h1, h2]
  · rfl

theorem others_replace (hp : p.1 ∈ names) :
    others names (replaceParam form ps p) = others names ps := by
  obtain ⟨-, hsame⟩ | ⟨before, q, after, rfl, hq, -, hput⟩ := replaceParam_cases form ps p
  · rw [hsame]
  · have hkept : others names (after.filter fun r => r.name != p.1) = others names after :=
      others_filter (fun name => name != p.1) fun name hname => by
        simpa using fun h : name = p.1 => hname (h ▸ hp)
    have hold : others names [q] = [] := others_eq_nil fun r hr => by
      rw [List.mem_singleton.mp hr, hq]
      exact hp
    rw [hput, ← List.singleton_append, ← List.singleton_append (x := q)]
    simp only [others_append, others_new hp, hold, hkept]

theorem others_add (hp : p.1 ∈ names) : others names (addParam form ps p) = others names ps := by
  unfold addParam
  split
  · rfl
  · rw [others_append, others_new hp, List.append_nil]

theorem others_foldl {α : Type} {step : List Param → α → List Param} {l : List α}
    (h : ∀ a ∈ l, ∀ ps, others names (step ps a) = others names ps) (ps : List Param) :
    others names (l.foldl step ps) = others names ps :=
  List.foldlRecOn (motive := fun qs => others names qs = others names ps) l step rfl
    fun qs hqs a ha => (h a ha qs).trans hqs

/-- The pieces no edit names keep their bytes and their order. -/
theorem others_editParams (ps : List Param) (edits : HeaderEdits) :
    others (editNames edits) (editParams form ps edits) = others (editNames edits) ps := by
  have hremove : ∀ name ∈ edits.remove, name ∈ editNames edits := by simp +contextual [editNames]
  have hrename : ∀ p ∈ edits.rename, p.1 ∈ editNames edits ∧ p.2 ∈ editNames edits := by
    intro p hp
    simp only [editNames, List.mem_append, List.mem_flatMap]
    exact ⟨.inl (.inr ⟨p, hp, by simp⟩), .inl (.inr ⟨p, hp, by simp⟩)⟩
  have hvalues : ∀ p ∈ edits.replace ++ edits.add ++ edits.append, p.1 ∈ editNames edits :=
    fun p hp => List.mem_append_right _ (List.mem_map_of_mem hp)
  simp only [List.mem_append] at hvalues
  unfold editParams
  rw [others_append, others_eq_nil (List.forall_mem_map.mpr fun p hp => hvalues p (.inr hp)),
    List.append_nil, others_foldl fun p hp _ => others_add (hvalues p (.inl (.inr hp))),
    others_foldl fun p hp _ => others_replace (hvalues p (.inl (.inl hp))),
    others_foldl fun p hp _ => others_rename (hrename p hp).1 (hrename p hp).2]
  refine others_filter (fun name => !edits.remove.contains name) fun name hname => ?_
  simpa using fun h => hname (hremove name h)

end Others

/-! ## The query that is sent -/

omit hlib in
theorem joined_nil : joined [] = "" := rfl

omit hlib in
theorem toList_joined (ps : List Param) :
    (joined ps).toList = ['&'].intercalate (ps.map fun q => q.raw.toList) := by
  rw [joined, String.toList_intercalate, List.map_map]
  rfl

omit hlib in
theorem splitOn_joined (h : ∀ q ∈ ps, '&' ∉ q.raw.toList) (hne : ps ≠ []) :
    splitOn '&' (joined ps) = ps.map Param.raw := by
  rw [splitOn, toList_joined, List.splitOn_intercalate '&' (List.forall_mem_map.mpr h)
    (by simpa using hne), List.map_map]
  simp [Function.comp_def]

omit hlib in
/-- The pieces joined read as they were. -/
theorem formValues_joined (h : ∀ q ∈ ps, Piece form queryChar q) (name : String) :
    formValues form (joined ps) name = holds form ps name := by
  by_cases hne : ps = []
  · subst hne
    rfl
  · have hread : (ps.map Param.raw).map (Param.read form) = ps := by
      rw [List.map_map]
      exact (List.map_congr_left fun q hq => (h q hq).read).trans (List.map_id ps)
    rw [formValues_eq, splitOn_joined (fun q hq => (h q hq).single) hne, hread]

theorem queryChar_joined (h : ∀ q ∈ ps, Piece form queryChar q) :
    ∀ c ∈ (joined ps).toList, queryChar c := by
  intro c hc
  rw [toList_joined] at hc
  rcases mem_intercalate hc with rfl | ⟨cs, hcs, hc⟩
  · exact hlib.signs.2
  · obtain ⟨q, hq, rfl⟩ := List.mem_map.mp hcs
    exact (h q hq).chars c hc

omit hlib in
/-- Pieces that are not edited join to the query. -/
theorem joined_paramsOf (query : Option String) : joined (paramsOf form query) = query.getD "" := by
  cases query with
  | none => rfl
  | some q =>
    simp only [paramsOf, Option.getD_some]
    split
    next hq =>
      rw [joined_nil, String.isEmpty_iff.mp hq]
    next =>
      rw [← String.toList_inj, toList_joined, List.map_map, splitOn, List.map_map]
      have hself : ((fun q : Param => q.raw.toList) ∘ Param.read form) ∘ String.ofList =
          id := by
        funext cs
        simp [Param.read]
      rw [hself, List.map_id]
      exact List.intercalate_splitOn '&'

theorem piece_paramsOf (huri : produced uri) :
    ∀ q ∈ paramsOf form uri.query, Piece form queryChar q := by
  intro q hq
  cases hquery : uri.query with
  | none =>
    rw [hquery] at hq
    cases hq
  | some query =>
    rw [hquery] at hq
    simp only [paramsOf] at hq
    split at hq
    · cases hq
    · obtain ⟨piece, hpiece, rfl⟩ := List.mem_map.mp hq
      refine ⟨rfl, not_mem_of_mem_splitOn hpiece, fun c hc => hlib.own uri huri query hquery c ?_⟩
      obtain ⟨cs, hcs, rfl⟩ := List.mem_map.mp hpiece
      exact (of_mem_splitOn hcs (by simpa [Param.read] using hc)).1

theorem follows_paramsOf (huri : produced uri) :
    QueryFollows form queryChar (paramsOf form uri.query)
      (formValues form (uri.query.getD "")) := by
  refine ⟨piece_paramsOf hlib huri, fun name => ?_⟩
  have hjoined : joined (paramsOf form uri.query) = _ := joined_paramsOf uri.query
  rw [← hjoined, formValues_joined (piece_paramsOf hlib huri)]

omit hlib in
theorem editParams_of_len (h : edits.len = 0) (ps : List Param) : editParams form ps edits = ps := by
  simp only [HeaderEdits.len, Nat.add_eq_zero_iff, List.length_eq_zero_iff] at h
  obtain ⟨⟨⟨⟨hremove, hrename⟩, hreplace⟩, hadd⟩, happend⟩ := h
  simp [editParams, hremove, hrename, hreplace, hadd, happend]

/-- The edited pieces as one query. -/
def sentQuery (form : Form) (uri : Uri) (edits : HeaderEdits) : String :=
  joined (editParams form (paramsOf form uri.query) edits)

/-- The URI is sent as it came when the pieces join to its query, and else with
them for its query. -/
theorem editQuery_eq (hw : Writable edits) (huri : produced uri) :
    editQuery form setPathAndQuery uri edits =
      if sentQuery form uri edits = uri.query.getD "" then none
      else some { uri with
        query := if (sentQuery form uri edits).isEmpty then none
          else some (sentQuery form uri edits) } := by
  have hchars : ∀ c ∈ (sentQuery form uri edits).toList, queryChar c :=
    queryChar_joined hlib ((follows_paramsOf hlib huri).editParams hlib hw).pieces
  unfold editQuery
  split
  next hlen => rw [sentQuery, editParams_of_len hlen, joined_paramsOf, if_pos rfl]
  next =>
    change (if sentQuery form uri edits == uri.query.getD "" then none
      else setPathAndQuery uri (if (sentQuery form uri edits).isEmpty then uri.path
        else uri.path ++ "?" ++ sentQuery form uri edits)) = _
    simp only [beq_iff_eq]
    split
    · rfl
    · split
      · exact hlib.bare uri huri
      · exact hlib.withQuery uri huri _ hchars

theorem formValues_sent (hw : Writable edits) (huri : produced uri) (name : String) :
    formValues form
        (((editQuery form setPathAndQuery uri edits).getD uri).query.getD "") name =
      (meaning id id edits).apply (formValues form (uri.query.getD "")) name := by
  have hfollows := (follows_paramsOf hlib huri).editParams hlib hw
  have hsent : ((editQuery form setPathAndQuery uri edits).getD uri).query.getD "" =
      sentQuery form uri edits := by
    rw [editQuery_eq hlib hw huri]
    split
    next hsame => exact hsame.symm
    next =>
      rw [Option.getD_some]
      split
      next hempty => exact (String.isEmpty_iff.mp hempty).symm
      next => rfl
  rw [hsent, sentQuery, formValues_joined hfollows.pieces, hfollows.holds]

omit hlib

/-- The edits a policy may hold do to a head's lines and to a query's pieces what
one edit does to the values of each name; they leave every piece of another name
as it was written; and the URI is replaced exactly when the joined pieces differ
from its query. -/
theorem edits_mean_one_edit (form : Form) (setPathAndQuery : Uri → String → Option Uri)
    (produced : Uri → Prop) (queryChar : Char → Prop)
    (hlib : Libraries form setPathAndQuery produced queryChar) (edits : HeaderEdits)
    (hwritable : writable edits = true) :
    (∀ (m : HeaderMap) (name : String), (editHeaders m edits).getAll name =
      (meaning toAsciiLowercase bytes edits).apply m.getAll (toAsciiLowercase name)) ∧
    ∀ uri, produced uri →
      (∀ name,
        formValues form (((editQuery form setPathAndQuery uri edits).getD uri).query.getD "") name =
          (meaning id id edits).apply (formValues form (uri.query.getD "")) name) ∧
      others (editNames edits) (editParams form (paramsOf form uri.query) edits) =
        others (editNames edits) (paramsOf form uri.query) ∧
      (editQuery form setPathAndQuery uri edits = none ↔
        sentQuery form uri edits = uri.query.getD "") ∧
      ∀ sent, editQuery form setPathAndQuery uri edits = some sent →
        sent = { uri with
          query := if (sentQuery form uri edits).isEmpty then none
            else some (sentQuery form uri edits) } := by
  have hw := writable_of_check hwritable
  refine ⟨fun m name => (HeadFollows.getAll m).editHeaders hw name, fun uri huri => ?_⟩
  refine ⟨formValues_sent hlib hw huri, others_editParams _ edits, ?_, ?_⟩
  · rw [editQuery_eq hlib hw huri]
    simp
  · intro sent hsent
    rw [editQuery_eq hlib hw huri] at hsent
    split at hsent
    · cases hsent
    · exact (Option.some.inj hsent).symm

/-- Text from its bytes, and nothing from bytes that are no text. -/
def utf8Text (bs : List UInt8) : String := (String.fromUTF8? ⟨bs.toArray⟩).getD ""

/-- A path and query, cut at the first question mark. -/
def cutAtMark (uri : Uri) (text : String) : Option Uri :=
  some { uri with
    path := ((splitOnce "?" text).map Prod.fst).getD text
    query := (splitOnce "?" text).map Prod.snd }

theorem utf8Text_bytes : utf8Text (bytes s) = s := by
  have hvalid : s.toByteArray.IsValidUTF8 := s.isValidUTF8
  have hread : String.fromUTF8? s.toByteArray = some s := by
    rw [String.fromUTF8?, dif_pos hvalid]
    rfl
  rw [utf8Text, bytes_eq_data, Array.toArray_toList, hread, Option.getD_some]

theorem libraries_cutAtMark : Libraries (formUrlencoded utf8Text) cutAtMark
    (fun uri => '?' ∉ uri.path.toList) (fun _ => True) where
  decodes := decode_encode utf8Text_bytes
  empty := decode_empty utf8Text_bytes
  encoded s c hc := by
    have hchar := formChar_encode hc
    refine ⟨trivial, ?_, ?_⟩ <;> rintro rfl <;> cases hchar
  signs := ⟨trivial, trivial⟩
  own _ _ _ _ _ _ := trivial
  bare uri huri := by
    have hcut : splitOnce "?" uri.path = none := splitOnce_eq_none rfl huri
    simp [cutAtMark, hcut]
  withQuery uri huri query _ := by
    have hcut : splitOnce "?" (uri.path ++ "?" ++ query) = some (uri.path, query) :=
      splitOnce_append rfl huri query
    simp [cutAtMark, hcut]

def accountEdits : HeaderEdits where
  remove := ["debug"]
  rename := [("user", "account")]
  add := [("page", "1")]

def searchUri : Uri := { path := "/search", query := some "q=a%20b&debug=1&user=ann&page=2" }

theorem edits_mean_one_edit_account :
    formValues (formUrlencoded utf8Text)
        (((editQuery (formUrlencoded utf8Text) cutAtMark searchUri accountEdits).getD
          searchUri).query.getD "") "account" = ["ann"] ∧
      (editHeaders ⟨[("User", bytes "ann"), ("X", bytes "1")]⟩ accountEdits).getAll "Account" =
        [bytes "ann"] := by
  have h := edits_mean_one_edit (formUrlencoded utf8Text) cutAtMark _ _ libraries_cutAtMark
    accountEdits (by decide +kernel)
  constructor
  · rw [(h.2 searchUri (by decide)).1 "account"]
    decide +kernel
  · rw [h.1]
    decide +kernel

end Gapura.Proxy.Transform
