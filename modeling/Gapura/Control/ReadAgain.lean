import Gapura.Control.PolicyKinds

/-! # A stored policy is read as the policy that was accepted

Each check normalises what it accepts: names in lower case, methods in upper
case, a bare address as a network of one, defaults filled in, a scheme's own port
left off. What it returns it accepts again and returns unchanged. -/
namespace Gapura.Control.Policies
open Gapura.Core Lib.Text Lib.Checks Control.Configuration
open Core.ClientIp (IpAddr Cidr)

/-! ## Characters -/

variable {c : Char} {s : Section} {given : Json} {debug : String → String} {at_ : String}

theorem toLower_isAlphanum (h : c.isAlphanum = true) : c.toLower.isAlphanum = true := by
  unfold Char.toLower
  split
  · rename_i hc
    simp [UInt32.le_iff_toNat_le] at hc
    simp [Char.isAlphanum, Char.isAlpha, Char.isLower, UInt32.le_iff_toNat_le]
    omega
  · exact h

theorem toLower_of_not_isUpper (h : c.isUpper = false) : c.toLower = c := by
  unfold Char.toLower
  split
  · rename_i hc
    simp [Char.isUpper, UInt32.le_iff_toNat_le] at h hc
    omega
  · rfl

theorem isToken_toLower (h : isToken c = true) : isToken c.toLower = true := by
  by_cases halnum : c.isAlphanum = true
  · simp only [isToken, toLower_isAlphanum halnum, Bool.true_or]
  · have hupper : c.isUpper = false := by
      simp only [Char.isAlphanum, Char.isAlpha, Bool.or_eq_true, not_or] at halnum
      simpa using halnum.1.1
    rwa [toLower_of_not_isUpper hupper]

theorem toAsciiLowercase_idem (s : String) :
    toAsciiLowercase (toAsciiLowercase s) = toAsciiLowercase s := by
  rw [← String.toList_inj]
  simp

/-- Text without capitals is in lower case. -/
theorem toAsciiLowercase_of_any {s : String} (h : s.toList.any Char.isUpper = false) :
    toAsciiLowercase s = s := by
  have hfixed : ∀ c ∈ s.toList, c.toLower = id c := fun c hc =>
    toLower_of_not_isUpper (by simpa using List.any_eq_false.mp h c hc)
  rw [← String.toList_inj, toList_toAsciiLowercase]
  exact (List.map_congr_left hfixed).trans (List.map_id _)

theorem toAsciiUppercase_idem (s : String) :
    toAsciiUppercase (toAsciiUppercase s) = toAsciiUppercase s := by
  rw [← String.toList_inj]
  simp [toAsciiUppercase, upper]

theorem len_toAsciiLowercase (s : String) : len (toAsciiLowercase s) = len s := by
  rw [len_eq, len_eq, toList_toAsciiLowercase, lower_lower]

theorem isToken_toAsciiLowercase {s : String} (h : s.toList.all isToken = true) :
    (toAsciiLowercase s).toList.all isToken = true := by
  rw [toList_toAsciiLowercase, lower, List.all_map, List.all_eq_true]
  intro c hc
  exact isToken_toLower (List.all_eq_true.mp h c hc)

/-! ## Names and values of edits -/

theorem spelled_again {op given n : String} (h : spelled s op given = .ok n) :
    spelled s op n = .ok n := by
  unfold spelled at h ⊢
  cases hs : s.header with
  | true =>
    simp only [hs, if_true] at h ⊢
    split at h
    · cases h
    rename_i hcount
    split at h
    · cases h
    rename_i htoken
    cases h
    have htoken' := isToken_toAsciiLowercase (by simpa using htoken)
    rw [htoken', toList_toAsciiLowercase, length_lower, if_neg hcount, toAsciiLowercase_idem]
    rfl
  | false =>
    simp only [hs, Bool.false_eq_true, if_false] at h ⊢
    split at h
    · cases h
    · rename_i hcount
      cases h
      rw [if_neg hcount]

theorem name_again {op given n : String} (h : name s op given = .ok n) : name s op n = .ok n := by
  unfold name at h ⊢
  split at h
  · cases h
  rename_i spelled' hspelled
  split at h
  · cases h
  rename_i hrefused
  cases h
  rw [spelled_again hspelled]
  exact if_neg hrefused

theorem value_again {op given v : String} (h : value s op given = .ok v) : value s op v = .ok v := by
  unfold value at h ⊢
  split at h
  · cases h
  rename_i hlong
  split at h
  · cases h
  rename_i hvisible
  cases h
  rw [if_neg hlong, if_neg hvisible]

theorem renamed_again {op : String} {given p : String × String}
    (h : renamed s op given = .ok p) : renamed s op p = .ok p := by
  obtain ⟨old, hold, h⟩ := bind_eq_ok.mp h
  obtain ⟨new, hnew, h⟩ := bind_eq_ok.mp h
  cases h
  exact bind_ok (name_again hold) (bind_ok (name_again hnew) rfl)

theorem written_again {op : String} {given p : String × String}
    (h : written s op given = .ok p) : written s op p = .ok p := by
  obtain ⟨n, hn, h⟩ := bind_eq_ok.mp h
  obtain ⟨v, hv, h⟩ := bind_eq_ok.mp h
  cases h
  exact bind_ok (name_again hn) (bind_ok (value_again hv) rfl)

/-! ## Edits -/

theorem names_of_texts {list : Json} {l : List String} (h : list.texts = some l) (s : Section)
    (op : String) : names s op list = .ok l := by
  unfold names
  split
  · cases h
  · rw [h]

theorem pairs_of_pairs {list : Json} {l : List (String × String)} (h : list.pairs = some l)
    (s : Section) (op : String) : pairs s op list = .ok l := by
  unfold pairs
  split
  · cases h
  · rw [h]

theorem names_unlessEmpty (s : Section) (op : String) (l : List String) :
    names s op ((Json.unlessEmpty Json.ofTexts l).getD .null) = .ok l := by
  cases l with
  | nil => rfl
  | cons n rest => exact names_of_texts (Json.texts_ofTexts (n :: rest)) s op

theorem pairs_unlessEmpty (s : Section) (op : String) (l : List (String × String)) :
    pairs s op ((Json.unlessEmpty Json.ofPairs l).getD .null) = .ok l := by
  cases l with
  | nil => rfl
  | cons p rest => exact pairs_of_pairs (Json.pairs_ofPairs (p :: rest)) s op

/-- A field of a written record, as a reader that takes an absent one for null
sees it. -/
theorem field_kept {fields : List (String × Option Json)} (h : (fields.map Prod.fst).Nodup)
    (name : String) :
    Json.field (Json.kept fields) name = ((fields.lookup name).join).getD .null := by
  rw [Json.field, Json.lookup_kept h]

theorem editsFields_nodup (e : HeaderEdits) : ((editsFields e).map Prod.fst).Nodup := by
  show ["remove", "rename", "replace", "add", "append"].Nodup
  decide

theorem mapM_self {α : Type} {f : α → Except FieldError α} (hf : ∀ x y, f x = .ok y → f y = .ok y)
    {l out : List α} (h : l.mapM f = .ok out) : out.mapM f = .ok out := by
  have hagain := mapM_again (g := id) hf h
  rwa [List.map_id] at hagain

/-- Each list of edits passes its check unchanged. -/
structure EditsChecked (s : Section) (e : HeaderEdits) : Prop where
  remove : e.remove.mapM (name s "remove") = .ok e.remove
  rename : e.rename.mapM (renamed s "rename") = .ok e.rename
  replace : e.replace.mapM (written s "replace") = .ok e.replace
  add : e.add.mapM (written s "add") = .ok e.add
  append : e.append.mapM (written s "append") = .ok e.append

theorem edits_checked {config : Json} {e : HeaderEdits}
    (h : edits s config = .ok e) : EditsChecked s e := by
  obtain ⟨⟨_, hremove⟩, ⟨_, hrename⟩, ⟨_, hreplace⟩, ⟨_, hadd⟩, ⟨_, happend⟩⟩ := edits_read h
  exact ⟨mapM_self (fun _ _ => name_again) hremove,
    mapM_self (fun _ _ => renamed_again) hrename,
    mapM_self (fun _ _ => written_again) hreplace,
    mapM_self (fun _ _ => written_again) hadd,
    mapM_self (fun _ _ => written_again) happend⟩

theorem eq_empty_of_len {e : HeaderEdits} (h : e.len = 0) : e = {} := by
  obtain ⟨remove, rename, replace, add, append⟩ := e
  simp only [HeaderEdits.len, Nat.add_eq_zero_iff, List.length_eq_zero_iff] at h
  obtain ⟨⟨⟨⟨rfl, rfl⟩, rfl⟩, rfl⟩, rfl⟩ := h
  rfl

/-- The edits a section accepted are read from what is stored of them. -/
theorem edits_again {config : Json} {e : HeaderEdits}
    (h : edits s config = .ok e) : edits s ((editsJson e).getD .null) = .ok e := by
  have hchecked := edits_checked h
  unfold editsJson
  split
  · rename_i hlen
    rw [eq_empty_of_len hlen]
    rfl
  · have hfields : ∀ f ∈ editsFields e, f.2.isSome = true →
        f.1 ∈ ["remove", "rename", "replace", "add", "append"] := by simp [editsFields]
    simp only [Option.getD_some, edits, Json.objectOf_kept hfields,
      field_kept (editsFields_nodup e)]
    refine bind_ok (names_unlessEmpty s "remove" e.remove) ?_
    refine bind_ok hchecked.remove ?_
    refine bind_ok (pairs_unlessEmpty s "rename" e.rename) ?_
    refine bind_ok hchecked.rename ?_
    refine bind_ok (pairs_unlessEmpty s "replace" e.replace) ?_
    refine bind_ok hchecked.replace ?_
    refine bind_ok (pairs_unlessEmpty s "add" e.add) ?_
    refine bind_ok hchecked.add ?_
    refine bind_ok (pairs_unlessEmpty s "append" e.append) ?_
    exact bind_ok hchecked.append rfl

theorem configFields_nodup (plugin : Plugin) : ((configFields plugin).map Prod.fst).Nodup := by
  cases plugin <;> simp [configFields]

theorem requestTransformer_again {p : RequestTransformerPolicy}
    (h : requestTransformer given = .ok p) :
    requestTransformer (config (.requestTransformer p)) = .ok p := by
  unfold requestTransformer at h
  split at h
  · cases h
  obtain ⟨headers, hheaders, h⟩ := bind_eq_ok.mp h
  obtain ⟨query, hquery, h⟩ := bind_eq_ok.mp h
  obtain ⟨⟨⟩, hcounted, h⟩ := bind_eq_ok.mp h
  cases h
  have hfields : ∀ f ∈ configFields (.requestTransformer ⟨headers, query⟩),
      f.2.isSome = true → f.1 ∈ ["headers", "query"] := by simp [configFields]
  simp only [requestTransformer, config, Json.objectOf_kept hfields,
    field_kept (configFields_nodup _)]
  refine bind_ok (edits_again hheaders) ?_
  refine bind_ok (edits_again hquery) ?_
  exact bind_ok hcounted rfl

theorem responseTransformer_again
    {p : ResponseTransformerPolicy} (h : responseTransformer given = .ok p) :
    responseTransformer (config (.responseTransformer p)) = .ok p := by
  unfold responseTransformer at h
  split at h
  · cases h
  obtain ⟨headers, hheaders, h⟩ := bind_eq_ok.mp h
  obtain ⟨⟨⟩, hcounted, h⟩ := bind_eq_ok.mp h
  cases h
  have hfields : ∀ f ∈ configFields (.responseTransformer ⟨headers⟩),
      f.2.isSome = true → f.1 ∈ ["headers"] := by simp [configFields]
  simp only [responseTransformer, config, Json.objectOf_kept hfields,
    field_kept (configFields_nodup _)]
  refine bind_ok (edits_again hheaders) ?_
  exact bind_ok hcounted rfl

/-! ## Networks and groups -/

theorem width_le (addr : IpAddr) : width addr ≤ 128 := by
  cases addr with
  | v4 bits => show 32 ≤ 128; omega
  | v6 bits => exact Nat.le_refl 128

theorem fromStr_bits_le {s : String} {c : Cidr}
    (h : Cidr.fromStr debug s = .ok c) : c.bits ≤ width c.addr := by
  unfold Cidr.fromStr at h
  dsimp only at h
  split at h
  · cases h
  split at h
  · cases h
    exact Nat.le_refl _
  · split at h
    · rename_i bits hbits
      cases h
      obtain ⟨-, hle⟩ := Option.filter_eq_some_iff.mp hbits
      simpa using hle
    · cases h

/-- A network is read from its own text. -/
theorem fromStr_text {c : Cidr} (h : c.bits ≤ width c.addr) :
    Cidr.fromStr debug (Cidr.text c) = .ok c := by
  have hsplit : splitNetwork (Cidr.text c) = (c.addr.display, some (toString c.bits)) := by
    rw [splitNetwork, Cidr.text, splitOnce_append rfl c.addr.slash_notMem_display]
  have hbits : parseUnsigned 32 (toString c.bits) = some c.bits := by
    have hwidth := width_le c.addr
    exact parseUnsigned_toString (by omega)
  have hfits : (some c.bits).filter (· ≤ width c.addr) = some c.bits := by simp [h]
  unfold Cidr.fromStr
  rw [hsplit]
  dsimp only
  rw [IpAddr.fromStr_display, hbits]
  dsimp only
  rw [hfits]

theorem network_again {name text : String} {c : Cidr}
    (h : network debug name text = .ok c) : network debug name (Cidr.text c) = .ok c := by
  unfold network at h ⊢
  split at h
  · rename_i c' hc
    cases h
    rw [fromStr_text (fromStr_bits_le hc)]
  · cases h

theorem aclGroup_again {given name : String} (h : aclGroup at_ given = .ok name) :
    aclGroup at_ name = .ok name := by
  unfold aclGroup Consumers.group at h ⊢
  split at h
  · rename_i name' hname
    cases h
    split at hname
    · rename_i hok
      cases hname
      rw [if_pos hok]
    · cases hname
  · cases h

theorem aclGroups_again {given names : List String}
    (h : aclGroups at_ given = .ok names) : aclGroups at_ names = .ok names := by
  unfold aclGroups at h ⊢
  split at h
  · cases h
  · rename_i hlen
    rw [length_of_mapM h, if_neg hlen]
    exact mapM_self (fun _ _ => aclGroup_again) h

theorem absentOr_unlessEmpty {α : Type} (write : List α → Json) (text : List α → List String)
    (hwrite : ∀ l, (write l).texts = some (text l)) (hnil : text [] = []) (l : List α) :
    Json.absentOr [] Json.texts (Json.unlessEmpty write l) = some (text l) := by
  cases l with
  | nil => simp [Json.unlessEmpty, Json.absentOr, hnil]
  | cons x rest => exact hwrite (x :: rest)

/-- Two lists are read from a record that holds them. -/
theorem allowAndDeny_kept {allow deny : Option Json} {allow' deny' : List String}
    (hallow : Json.absentOr [] Json.texts allow = some allow')
    (hdeny : Json.absentOr [] Json.texts deny = some deny') :
    allowAndDeny (.object (Json.kept [("allow", allow), ("deny", deny)])) =
      some (allow', deny') := by
  have hfields : ∀ f ∈ [("allow", allow), ("deny", deny)],
      f.2.isSome = true → f.1 ∈ ["allow", "deny"] := by simp
  have hnodup : ([("allow", allow), ("deny", deny)].map Prod.fst).Nodup := by simp
  have hreadAllow : Json.absentOr [] Json.texts
      ((Json.kept [("allow", allow), ("deny", deny)]).lookup "allow") = some allow' := by
    rw [Json.lookup_kept hnodup]
    exact hallow
  have hreadDeny : Json.absentOr [] Json.texts
      ((Json.kept [("allow", allow), ("deny", deny)]).lookup "deny") = some deny' := by
    rw [Json.lookup_kept hnodup]
    exact hdeny
  rw [allowAndDeny, Json.strictRecordOf_kept hfields]
  simp only [Option.bind_eq_bind, Option.bind_some, hreadAllow, hreadDeny]
  rfl

theorem isEmpty_of_mapM {α β : Type} {f : α → Except FieldError β} {l : List α} {out : List β}
    (h : l.mapM f = .ok out) : out.isEmpty = l.isEmpty := by
  have hlen := length_of_mapM h
  cases out <;> cases l <;> simp_all

theorem ipRestriction_again {p : IpRestrictionPolicy} (h : ipRestriction debug given = .ok p) :
    ipRestriction debug (config (.ipRestriction p)) = .ok p := by
  unfold ipRestriction at h
  split at h
  · cases h
  rename_i allow deny hgiven
  split at h
  · cases h
  rename_i hsome
  split at h
  · cases h
  rename_i hmany
  obtain ⟨allow', hallow, h⟩ := bind_eq_ok.mp h
  obtain ⟨deny', hdeny, h⟩ := bind_eq_ok.mp h
  cases h
  have hwritten : ∀ l : List Cidr, Json.absentOr [] Json.texts
      (Json.unlessEmpty (fun l => .ofTexts (l.map Cidr.text)) l) =
        some (l.map Cidr.text) :=
    absentOr_unlessEmpty _ (List.map Cidr.text) (fun l => Json.texts_ofTexts _) rfl
  have hread : allowAndDeny (config (.ipRestriction ⟨allow', deny'⟩)) =
      some (allow'.map Cidr.text, deny'.map Cidr.text) :=
    allowAndDeny_kept (hwritten allow') (hwritten deny')
  have hallow' : (allow'.map Cidr.text).mapM (network debug "allow") = .ok allow' :=
    mapM_again (fun _ _ h => network_again h) hallow
  have hdeny' : (deny'.map Cidr.text).mapM (network debug "deny") = .ok deny' :=
    mapM_again (fun _ _ h => network_again h) hdeny
  unfold ipRestriction
  simp only [hread, List.isEmpty_map, List.length_map, isEmpty_of_mapM hallow,
    isEmpty_of_mapM hdeny, length_of_mapM hallow, length_of_mapM hdeny, if_neg hsome, if_neg hmany]
  exact bind_ok hallow' (bind_ok hdeny' rfl)

theorem aclGroups_mapM {given names : List String}
    (h : aclGroups at_ given = .ok names) : given.mapM (aclGroup at_) = .ok names := by
  unfold aclGroups at h
  split at h
  · cases h
  · exact h

theorem acl_again {p : AclPolicy} (h : acl given = .ok p) : acl (config (.acl p)) = .ok p := by
  unfold acl at h
  split at h
  · cases h
  rename_i allow deny hgiven
  split at h
  · cases h
  rename_i hsome
  obtain ⟨allow', hallow, h⟩ := bind_eq_ok.mp h
  obtain ⟨deny', hdeny, h⟩ := bind_eq_ok.mp h
  cases h
  have hwritten : ∀ l : List String, Json.absentOr [] Json.texts
      (Json.unlessEmpty Json.ofTexts l) = some l :=
    absentOr_unlessEmpty _ id Json.texts_ofTexts rfl
  have hread : allowAndDeny (config (.acl ⟨allow', deny'⟩)) = some (allow', deny') :=
    allowAndDeny_kept (hwritten allow') (hwritten deny')
  unfold acl
  simp only [hread, isEmpty_of_mapM (aclGroups_mapM hallow),
    isEmpty_of_mapM (aclGroups_mapM hdeny), if_neg hsome]
  refine bind_ok (aclGroups_again hallow) ?_
  exact bind_ok (aclGroups_again hdeny) rfl

/-! ## The anonymous consumer and body sizes -/

theorem auth_again {p : AuthPolicy} (h : auth given = .ok p) : auth (config (.auth p)) = .ok p := by
  unfold auth at h
  split at h
  · cases h
  split at h
  · cases h
    rfl
  · rename_i n hn
    obtain ⟨-, hblank⟩ := Option.filter_eq_some_iff.mp hn
    have hfilter : (some n).filter (fun n => !(trim n).isEmpty) = some n :=
      Option.filter_eq_some_iff.mpr ⟨rfl, hblank⟩
    unfold Configuration.name at h
    split at h
    · rename_i n' hname
      cases h
      split at hname
      · rename_i hok
        cases hname
        have hfields : ∀ f ∈ configFields (.auth ⟨some n, none⟩),
            f.2.isSome = true → f.1 ∈ ["anonymous"] := by simp [configFields]
        have hread : ((config (.auth ⟨some n, none⟩)).strictRecordOf ["anonymous"]).bind
            (fun input => Json.absentOr none Json.optionalText (input.lookup "anonymous")) =
              some (some n) := by
          rw [config, Json.strictRecordOf_kept hfields, Option.bind_some,
            Json.lookup_kept (configFields_nodup _)]
          rfl
        rw [auth, hread]
        simp only [hfilter, Configuration.name, hok, if_true]
      · cases hname
    · cases h

theorem requestSizeLimit_again {p : RequestSizeLimitPolicy} (h : requestSizeLimit given = .ok p) :
    requestSizeLimit (config (.requestSizeLimit p)) = .ok p := by
  unfold requestSizeLimit at h
  split at h
  · cases h
  split at h
  · rename_i n hn
    cases h
    obtain ⟨hread, hbounds⟩ := Option.filter_eq_some_iff.mp hn
    have hwritten : (Json.ofNat n).asU64.filter
        (fun n => decide (1 ≤ n ∧ n ≤ maxBodyBytes)) = some n := by
      rw [Json.asU64_ofNat (Json.asU64_lt hread)]
      exact Option.filter_eq_some_iff.mpr ⟨rfl, hbounds⟩
    have hfields : ∀ f ∈ configFields (.requestSizeLimit ⟨n⟩),
        f.2.isSome = true → f.1 ∈ ["max_bytes"] := by simp [configFields]
    have hread : ((config (.requestSizeLimit ⟨n⟩)).strictRecordOf ["max_bytes"]).bind
        (·.lookup "max_bytes") = some (.ofNat n) := by
      rw [config, Json.strictRecordOf_kept hfields, Option.bind_some,
        Json.lookup_kept (configFields_nodup _)]
      rfl
    rw [requestSizeLimit, hread]
    simp only [hwritten]
  · cases h

/-! ## Origins -/

/-- What an accepted host is spelled with. -/
def hostChar (c : Char) : Bool :=
  ('a' ≤ c && c ≤ 'z') || c.isDigit || c == '-' || c == '.' || c == '*'

theorem hostChar_isUpper (h : hostChar c = true) : c.isUpper = false := by
  simp only [hostChar, Bool.or_eq_true, Bool.and_eq_true, decide_eq_true_eq, beq_iff_eq] at h
  rcases h with (((h | h) | rfl) | rfl) | rfl
  · simp [Char.isUpper, Char.le_def, UInt32.le_iff_toNat_le] at h ⊢
    omega
  · simp [Char.isUpper, Char.isDigit, UInt32.le_iff_toNat_le] at h ⊢
    omega
  all_goals decide

theorem hostChar_ne_colon (h : hostChar c = true) : c ≠ ':' := by
  intro hc
  rw [hc] at h
  exact absurd h (by decide)

theorem hostChar_of_labels {name : String} (h : (splitOn '.' name).all hostLabel = true) :
    ∀ c ∈ name.toList, hostChar c = true := by
  intro c hc
  rcases mem_splitOn '.' hc with rfl | ⟨l, hl, hmem⟩
  · decide
  · have hlabel := List.all_eq_true.mp h (String.ofList l) (List.mem_map_of_mem hl)
    simp only [hostLabel, String.toList_ofList, Bool.and_eq_true, List.all_eq_true] at hlabel
    have hc := hlabel.2 c hmem
    simp only [hostChar, hc, Bool.true_or]

theorem eq_of_bareOrigin (host : String) :
    host.toList = (bareOrigin host).2.toList ∨
      host.toList = '*' :: '.' :: (bareOrigin host).2.toList := by
  unfold bareOrigin
  split
  · rename_i name hname
    obtain ⟨star, hhost, hstar⟩ := List.dropPrefix?_eq_some_iff.mp hname
    obtain rfl : star = ['*', '.'] := by simpa using hstar
    right
    rw [hhost, String.toList_ofList]
    rfl
  · exact .inl rfl

/-- The parts of an accepted origin. -/
structure OriginParts (scheme host : String) (port : Option Nat) : Prop where
  scheme : scheme = "http" ∨ scheme = "https"
  short : len (bareOrigin host).2 ≤ 253
  labels : (splitOn '.' (bareOrigin host).2).all hostLabel = true
  dotted : ((bareOrigin host).1 && !(bareOrigin host).2.toList.contains '.') = false
  port : ∀ n, port = some n → 0 < n ∧ n < 2 ^ 16

theorem parseUnsigned_lt {w n : Nat} {s : String} (h : parseUnsigned w s = some n) : n < 2 ^ w := by
  simp only [parseUnsigned] at h
  split at h
  · cases h
  · split at h
    · cases h
      assumption
    · cases h

theorem hostAndPort_bounds {rest host : String} {port : Option Nat}
    (h : hostAndPort rest = some (host, port)) : ∀ n, port = some n → 0 < n ∧ n < 2 ^ 16 := by
  unfold hostAndPort at h
  split at h
  · cases h
    intro n hn
    cases hn
  · split at h
    · obtain ⟨n, hn, hpair⟩ := Option.map_eq_some_iff.mp h
      cases hpair
      obtain ⟨hread, hpos⟩ := Option.filter_eq_some_iff.mp hn
      intro m hm
      cases hm
      exact ⟨by simpa using hpos, parseUnsigned_lt hread⟩
    · cases h

/-- An accepted origin is `*` or put together from parts. -/
theorem origin_ok {text out : String} (h : origin text = .ok out) :
    out = "*" ∨ ∃ scheme host port, OriginParts scheme host port ∧
      out = scheme ++ "://" ++ (host ++ portText scheme port) := by
  unfold origin at h
  simp only at h
  split at h
  · rename_i hstar
    cases h
    exact .inl hstar
  split at h
  · cases h
  split at h
  · cases h
  rename_i scheme rest hsplit
  split at h
  · cases h
  rename_i hscheme
  split at h
  · cases h
  rename_i host port hport
  split at h
  · cases h
  rename_i hlabels
  split at h
  · cases h
  rename_i hdotted
  cases h
  simp only [Bool.or_eq_true, decide_eq_true_eq, not_or, Nat.not_lt, Bool.not_eq_true,
    Bool.not_eq_false'] at hlabels
  refine .inr ⟨scheme, host, port, ⟨?_, hlabels.1, hlabels.2, by simpa using hdotted,
    hostAndPort_bounds hport⟩, rfl⟩
  by_contra hnone
  exact hscheme (not_or.mp hnone)

namespace OriginParts
variable {scheme host : String} {port : Option Nat}

section
variable (h : OriginParts scheme host port)

include h

theorem hostChars : ∀ c ∈ host.toList, hostChar c = true := by
  have hname := hostChar_of_labels h.labels
  intro c hc
  rcases eq_of_bareOrigin host with heq | heq
  · exact hname c (heq ▸ hc)
  · rw [heq] at hc
    rcases List.mem_cons.mp hc with rfl | hc
    · decide
    · rcases List.mem_cons.mp hc with rfl | hc
      · decide
      · exact hname c hc

theorem colonless : ':' ∉ host.toList :=
  fun hc => hostChar_ne_colon (h.hostChars ':' hc) rfl

/-- What is written of a port is nothing, or the port itself. -/
theorem portText_cases : portText scheme port = "" ∨
    ∃ n, 0 < n ∧ n < 2 ^ 16 ∧ portText scheme port = ":" ++ toString n ∧
      portText scheme (some n) = portText scheme port := by
  cases hport : port with
  | none => exact .inl rfl
  | some n =>
    obtain ⟨hpos, hlt⟩ := h.port n hport
    by_cases hown : scheme = "http" ∧ n = 80 ∨ scheme = "https" ∧ n = 443
    · exact .inl (if_pos hown)
    · exact .inr ⟨n, hpos, hlt, if_neg hown, rfl⟩

/-- Reading the host and port again leaves the same text of them. -/
theorem hostAndPort_again :
    ∃ port', hostAndPort (host ++ portText scheme port) = some (host, port') ∧
      portText scheme port' = portText scheme port := by
  rcases h.portText_cases with hnone | ⟨n, hpos, hlt, htext, hsame⟩
  · refine ⟨none, ?_, hnone.symm⟩
    rw [hnone, String.append_empty, hostAndPort, splitOnce_eq_none rfl h.colonless]
  · refine ⟨some n, ?_, hsame⟩
    have hdigits : (toString n).toList.all Char.isDigit = true :=
      List.all_eq_true.mpr fun c hc => isDigit_of_mem_toString hc
    have hread : (parseUnsigned 16 (toString n)).filter (0 < ·) = some n := by
      rw [parseUnsigned_toString hlt]
      exact Option.filter_eq_some_iff.mpr ⟨rfl, by simpa using hpos⟩
    rw [htext, hostAndPort, ← String.append_assoc, splitOnce_append rfl h.colonless]
    simp only [hdigits, if_true]
    rw [hread]
    rfl

theorem lowered :
    toAsciiLowercase (scheme ++ "://" ++ (host ++ portText scheme port)) =
      scheme ++ "://" ++ (host ++ portText scheme port) := by
  have hhost : host.toList.any Char.isUpper = false :=
    List.any_eq_false.mpr fun c hc => by simp [hostChar_isUpper (h.hostChars c hc)]
  have hport : (portText scheme port).toList.any Char.isUpper = false := by
    rcases h.portText_cases with hnone | ⟨n, -, -, htext, -⟩
    · rw [hnone]
      rfl
    · have hdigits : (toString n).toList.any Char.isUpper = false := by
        refine List.any_eq_false.mpr fun c hc => ?_
        have hchar : hostChar c = true := by
          simp only [hostChar, isDigit_of_mem_toString hc, Bool.or_true, Bool.true_or]
        simp [hostChar_isUpper hchar]
      rw [htext, String.toList_append, List.any_append, hdigits]
      rfl
  refine toAsciiLowercase_of_any ?_
  simp only [String.toList_append, List.any_append, hhost, hport, Bool.or_false]
  rcases h.scheme with rfl | rfl <;> rfl

/-- The text put together from parts is accepted as it is. -/
theorem accepted :
    origin (scheme ++ "://" ++ (host ++ portText scheme port)) =
      .ok (scheme ++ "://" ++ (host ++ portText scheme port)) := by
  obtain ⟨port', hport, hsame⟩ := h.hostAndPort_again
  have hsplit : splitOnce "://" (scheme ++ "://" ++ (host ++ portText scheme port)) =
      some (scheme, host ++ portText scheme port) := by
    refine splitOnce_append rfl ?_ _
    rcases h.scheme with rfl | rfl <;> decide
  have hlong : ∀ s : String, s.toList.length < 5 →
      scheme ++ "://" ++ (host ++ portText scheme port) ≠ s := by
    intro s hs heq
    rw [← heq] at hs
    rcases h.scheme with rfl | rfl <;> simp at hs <;> omega
  have hscheme : ¬ (scheme ≠ "http" ∧ scheme ≠ "https") :=
    fun hnone => h.scheme.elim hnone.1 hnone.2
  have hlabels : (decide (253 < len (bareOrigin host).2) ||
      !(splitOn '.' (bareOrigin host).2).all hostLabel) = false := by
    rw [h.labels, Bool.not_true, Bool.or_false, decide_eq_false_iff_not]
    have hshort := h.short
    omega
  unfold origin
  simp only [h.lowered, if_neg (hlong "*" (by decide)), if_neg (hlong "null" (by decide)), hsplit,
    if_neg hscheme, hport, hlabels, h.dotted, hsame]
  rfl

end

end OriginParts

theorem origin_again {text out : String} (h : origin text = .ok out) : origin out = .ok out := by
  rcases origin_ok h with rfl | ⟨scheme, host, port, hparts, rfl⟩
  · rfl
  · exact hparts.accepted

/-! ## Cross-origin requests -/

theorem corsHeader_again {given name : String} (h : corsHeader at_ given = .ok name) :
    corsHeader at_ name = .ok name := by
  unfold corsHeader at h ⊢
  split at h
  · rename_i hok
    cases h
    obtain ⟨htoken, hlen⟩ := Bool.and_eq_true_iff.mp hok
    rw [isToken_toAsciiLowercase htoken, len_toAsciiLowercase, hlen, toAsciiLowercase_idem]
    rfl
  · cases h

theorem corsMethod_again {given m : String} (h : corsMethod given = .ok m) :
    corsMethod m = .ok m := by
  simp only [corsMethod] at h ⊢
  split at h
  · rename_i hok
    cases h
    rw [toAsciiUppercase_idem, if_pos hok]
  · cases h

theorem methodList_again {given methods : List String} (h : methodList given = .ok methods) :
    methodList methods = .ok methods := by
  unfold methodList at h
  split at h
  · cases h
    rfl
  · rename_i hsome
    rw [methodList, isEmpty_of_mapM h, if_neg hsome]
    exact mapM_self (fun _ _ => corsMethod_again) h

theorem originList_again {credentials : Bool} {given origins : List String}
    (h : originList credentials given = .ok origins) :
    originList credentials origins = .ok origins := by
  unfold originList at h
  split at h
  · cases h
  rename_i hsome
  split at h
  · cases h
  rename_i hmany
  obtain ⟨origins', horigins, h⟩ := bind_eq_ok.mp h
  split at h
  · cases h
  rename_i hcredentials
  split at h
  · cases h
  rename_i halone
  cases h
  rw [originList, isEmpty_of_mapM horigins, if_neg hsome, length_of_mapM horigins, if_neg hmany]
  refine bind_ok (mapM_self (fun _ _ => origin_again) horigins) ?_
  rw [if_neg hcredentials, if_neg halone]
  rfl

theorem texts_of_texts {value : Json} {l : List String} (h : value.texts = some l)
    (at_ shown : String) : texts at_ value shown = .ok l := by
  unfold texts
  split
  · cases h
  · rw [h]

theorem texts_unlessEmpty (at_ shown : String) (l : List String) :
    texts at_ ((Json.unlessEmpty Json.ofTexts l).getD .null) shown = .ok l := by
  cases l with
  | nil => rfl
  | cons s rest => exact texts_of_texts (Json.texts_ofTexts (s :: rest)) at_ shown

theorem headerNames_again {names : List String} (h : headerNames at_ given = .ok names) :
    headerNames at_ ((Json.unlessEmpty Json.ofTexts names).getD .null) = .ok names := by
  obtain ⟨list, -, h⟩ := bind_eq_ok.mp h
  split at h
  · cases h
  rename_i hmany
  refine bind_ok (texts_unlessEmpty _ _ names) ?_
  rw [length_of_mapM h, if_neg hmany]
  exact mapM_self (fun _ _ => corsHeader_again) h

theorem flag_ifSet (at_ : String) (b : Bool) : flag at_ ((Json.ifSet b).getD .null) = .ok b := by
  cases b with
  | false => rfl
  | true => rfl

theorem maxAge_again {secs : Option Nat} (h : maxAge given = .ok secs) :
    maxAge ((secs.map Json.ofNat).getD .null) = .ok secs := by
  unfold maxAge at h
  split at h
  · cases h
    rfl
  · split at h
    · rename_i n hn
      cases h
      obtain ⟨hread, hmax⟩ := Option.filter_eq_some_iff.mp hn
      have hwritten : (Json.ofNat n).asU64.filter (· ≤ maxAgeSecs) = some n := by
        rw [Json.asU64_ofNat (Json.asU64_lt hread)]
        exact Option.filter_eq_some_iff.mpr ⟨rfl, hmax⟩
      rw [Option.map_some, Option.getD_some, maxAge, hwritten]
      exact fun hnull => nomatch hnull
    · cases h

theorem cors_again {p : CorsPolicy} (h : cors given = .ok p) : cors (config (.cors p)) = .ok p := by
  unfold cors at h
  split at h
  · cases h
  obtain ⟨credentials, -, h⟩ := bind_eq_ok.mp h
  obtain ⟨_, -, h⟩ := bind_eq_ok.mp h
  obtain ⟨origins, horigins, h⟩ := bind_eq_ok.mp h
  obtain ⟨_, -, h⟩ := bind_eq_ok.mp h
  obtain ⟨methods, hmethods, h⟩ := bind_eq_ok.mp h
  obtain ⟨secs, hsecs, h⟩ := bind_eq_ok.mp h
  obtain ⟨headers, hheaders, h⟩ := bind_eq_ok.mp h
  obtain ⟨exposed, hexposed, h⟩ := bind_eq_ok.mp h
  obtain ⟨preflight, -, h⟩ := bind_eq_ok.mp h
  cases h
  have hfields : ∀ f ∈ configFields
      (.cors ⟨origins, methods, headers, exposed, credentials, secs, preflight⟩),
      f.2.isSome = true → f.1 ∈ corsFields := by simp [configFields, corsFields]
  simp only [cors, config, Json.objectOf_kept hfields, field_kept (configFields_nodup _)]
  refine bind_ok (flag_ifSet _ credentials) ?_
  refine bind_ok (texts_of_texts (Json.texts_ofTexts origins) _ _) ?_
  refine bind_ok (originList_again horigins) ?_
  refine bind_ok (texts_unlessEmpty _ _ methods) ?_
  refine bind_ok (methodList_again hmethods) ?_
  refine bind_ok (maxAge_again hsecs) ?_
  refine bind_ok (headerNames_again hheaders) ?_
  refine bind_ok (headerNames_again hexposed) ?_
  exact bind_ok (flag_ifSet _ preflight) rfl

end Gapura.Control.Policies
