import Gapura.Lib.MultiMap
import Gapura.Proxy.FormText

/-! # What a transformer's edits mean

One edit of a name-to-values map, read twice: over a head's lines, where names
are compared without regard to case, and over a query's pieces, where they are
compared once decoded. -/
namespace Gapura.Proxy.Transform
open Gapura.Core Lib.MultiMap Lib.Headers Lib.Text Proxy.Plugin

/-- A policy's edits, over the names `key` tells apart and the values `value`
writes. -/
def meaning {K V : Type} (key : String → K) (value : String → V) (edits : HeaderEdits) :
    Edits K V where
  remove := edits.remove.map key
  rename := edits.rename.map (Prod.map key key)
  replace := edits.replace.map (Prod.map key value)
  add := edits.add.map (Prod.map key value)
  append := edits.append.map (Prod.map key value)

/-! ## What the check of a policy gives -/

/-- Every name and value the header map takes. -/
structure Writable (edits : HeaderEdits) : Prop where
  remove : ∀ name ∈ edits.remove, nameOk name = true
  rename : ∀ p ∈ edits.rename, nameOk p.1 = true ∧ nameOk p.2 = true
  replace : ∀ p ∈ edits.replace, nameOk p.1 = true ∧ ofStr p.2 = some (bytes p.2)
  add : ∀ p ∈ edits.add, nameOk p.1 = true ∧ ofStr p.2 = some (bytes p.2)
  append : ∀ p ∈ edits.append, nameOk p.1 = true ∧ ofStr p.2 = some (bytes p.2)

theorem ofStr_of_isSome {s : String} (h : (ofStr s).isSome = true) : ofStr s = some (bytes s) := by
  unfold ofStr at h ⊢
  split at h
  next hall => exact if_pos hall
  next => cases h

theorem writable_of_check {edits : HeaderEdits} (h : writable edits = true) : Writable edits := by
  simp only [writable, Bool.and_eq_true, List.all_eq_true, List.mem_append] at h
  obtain ⟨⟨hremove, hrename⟩, hvalues⟩ := h
  have hpair : ∀ p : String × String, (p ∈ edits.replace ∨ p ∈ edits.add) ∨ p ∈ edits.append →
      nameOk p.1 = true ∧ ofStr p.2 = some (bytes p.2) := fun p hp =>
    ⟨(hvalues p hp).1, ofStr_of_isSome (hvalues p hp).2⟩
  exact ⟨hremove, hrename, fun p hp => hpair p (.inl (.inl hp)),
    fun p hp => hpair p (.inl (.inr hp)), fun p hp => hpair p (.inr hp)⟩

variable {name : String}

theorem ne_empty_of_nameOk (h : nameOk name = true) : name ≠ "" := by
  rintro rfl
  cases h

/-! ## Headers -/

/-- What the lines of a head hold, name by name. -/
def HeadFollows (m : HeaderMap) (f : String → List Value) : Prop :=
  ∀ n, m.getAll n = f (toAsciiLowercase n)

theorem update_lowercase (f : String → List Value) (name n : String) (values : List Value) :
    Function.update f (toAsciiLowercase name) values (toAsciiLowercase n) =
      if eqIgnoreAsciiCase name n then values else f (toAsciiLowercase n) := by
  by_cases h : toAsciiLowercase n = toAsciiLowercase name
  · rw [h, Function.update_self, if_pos (eqIgnoreAsciiCase_iff.mpr h.symm)]
  · rw [Function.update_of_ne h, if_neg fun heq => h (eqIgnoreAsciiCase_iff.mp heq).symm]

theorem getAll_foldl_move_of_ok (h : nameOk name = true) (values : List Value)
    (m : HeaderMap) (n : String) : (values.foldl (move name) m).getAll n =
      m.getAll n ++ if eqIgnoreAsciiCase name n then values else [] := by
  induction values generalizing m with
  | nil => simp
  | cons v rest ih =>
    rw [List.foldl_cons, ih, move, if_pos h, HeaderMap.getAll_append]
    cases eqIgnoreAsciiCase name n with
    | false => simp
    | true => simp

theorem set_of_ok {m : HeaderMap} {p : String × String}
    (h : nameOk p.1 = true ∧ ofStr p.2 = some (bytes p.2)) :
    set m p.1 p.2 = m.insert p.1 (bytes p.2) := by
  simp [set, h.1, h.2]

namespace HeadFollows

variable {m : HeaderMap} {f : String → List Value}

theorem getAll (m : HeaderMap) : HeadFollows m m.getAll := by
  intro n
  have hsame : named (toAsciiLowercase n) = named n := by
    funext line
    simp [named]
  simp only [HeaderMap.getAll, hsame]

theorem insert (h : HeadFollows m f) (name : String) (v : Value) :
    HeadFollows (m.insert name v) (Function.update f (toAsciiLowercase name) [v]) := by
  intro n
  rw [HeaderMap.getAll_insert, update_lowercase, h n]

theorem remove (h : HeadFollows m f) (name : String) :
    HeadFollows (m.remove name) (removed f (toAsciiLowercase name)) := by
  intro n
  rw [HeaderMap.getAll_remove, removed, update_lowercase, h n]

variable {p : String × String}

theorem rename (h : HeadFollows m f) (hp : nameOk p.2 = true) :
    HeadFollows (rename m p) (renamed f (p.map toAsciiLowercase toAsciiLowercase)) := by
  unfold Transform.rename renamed
  rw [h p.1]
  dsimp only [Prod.map_fst]
  split
  · exact h
  · intro n
    rw [getAll_foldl_move_of_ok hp, HeaderMap.getAll_remove, HeaderMap.getAll_remove, Prod.map_snd,
      update_lowercase, update_lowercase, h n]
    cases eqIgnoreAsciiCase p.2 n with
    | false => simp
    | true => simp

theorem replace (h : HeadFollows m f) (hp : nameOk p.1 = true ∧ ofStr p.2 = some (bytes p.2)) :
    HeadFollows (replace m p) (replaced f (p.map toAsciiLowercase bytes)) := by
  unfold Transform.replace replaced
  rw [h p.1, set_of_ok hp]
  dsimp only [Prod.map_fst]
  split
  · exact h
  · exact h.insert p.1 (bytes p.2)

theorem add (h : HeadFollows m f) (hp : nameOk p.1 = true ∧ ofStr p.2 = some (bytes p.2)) :
    HeadFollows (addAbsent m p) (added f (p.map toAsciiLowercase bytes)) := by
  unfold addAbsent added
  rw [h p.1, set_of_ok hp]
  dsimp only [Prod.map_fst]
  split
  · exact h.insert p.1 (bytes p.2)
  · exact h

theorem append (h : HeadFollows m f) (hp : nameOk p.1 = true ∧ ofStr p.2 = some (bytes p.2)) :
    HeadFollows (Transform.add m p.1 p.2) (appended f (p.map toAsciiLowercase bytes)) := by
  intro n
  have hadd : Transform.add m p.1 p.2 = m.append p.1 (bytes p.2) := by
    simp [Transform.add, hp.1, hp.2]
  rw [hadd, HeaderMap.getAll_append, appended, Prod.map_fst, Prod.map_snd, update_lowercase, h n]
  cases heq : eqIgnoreAsciiCase p.1 n with
  | false => simp
  | true => simp [eqIgnoreAsciiCase_iff.mp heq]

/-- The five passes over the lines follow the edit. -/
theorem editHeaders (h : HeadFollows m f) {edits : HeaderEdits} (hw : Writable edits) :
    HeadFollows (editHeaders m edits) ((meaning toAsciiLowercase bytes edits).apply f) := by
  have hremove := foldl_follows (R := HeadFollows) HeaderMap.remove removed toAsciiLowercase
    (fun name (_ : name ∈ edits.remove) _ _ h => HeadFollows.remove h name) h
  have hrename := foldl_follows (R := HeadFollows) Transform.rename renamed
    (Prod.map toAsciiLowercase toAsciiLowercase)
    (fun p (hp : p ∈ edits.rename) _ _ h => HeadFollows.rename h (hw.rename p hp).2) hremove
  have hreplace := foldl_follows (R := HeadFollows) Transform.replace replaced
    (Prod.map toAsciiLowercase bytes)
    (fun p (hp : p ∈ edits.replace) _ _ h => HeadFollows.replace h (hw.replace p hp)) hrename
  have hadd := foldl_follows (R := HeadFollows) addAbsent added (Prod.map toAsciiLowercase bytes)
    (fun p (hp : p ∈ edits.add) _ _ h => HeadFollows.add h (hw.add p hp)) hreplace
  have happend := foldl_follows (R := HeadFollows)
    (fun (m : HeaderMap) (p : String × String) => Transform.add m p.1 p.2) appended
    (Prod.map toAsciiLowercase bytes)
    (fun p (hp : p ∈ edits.append) _ _ h => HeadFollows.append h (hw.append p hp)) hadd
  exact happend

end HeadFollows

end Gapura.Proxy.Transform
