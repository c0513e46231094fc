import Gapura.Control.Policies

/-! # Records as JSON

What the derived writers and readers of a record do. A writer leaves a field
without a value out; a reader takes an absent field for its default. A record is
also read from an array, by position. A fraction is no value any reader here
takes, so numbers are whole. -/
namespace Gapura.Control.Policies.Json

/-! ## Writing -/

def ofTexts (l : List String) : Json := .array (l.map .string)

def ofPairs (l : List (String × String)) : Json :=
  .array (l.map fun p => .array [.string p.1, .string p.2])

def ofNat (n : Nat) : Json := .number n

/-- A list, left out when it is empty. -/
def unlessEmpty {α : Type} (write : List α → Json) (l : List α) : Option Json :=
  if l.isEmpty then none else some (write l)

/-- A flag, left out when it is not set. -/
def ifSet (flag : Bool) : Option Json := if flag then some (.bool true) else none

/-- The fields of a record that have a value. -/
def kept (fields : List (String × Option Json)) : List (String × Json) :=
  fields.filterMap fun f => f.2.map fun v => (f.1, v)

/-! ## Reading -/

def asU64 : Json → Option Nat
  | .number (.ofNat n) => if n < 2 ^ 64 then some n else none
  | _ => none

def asArray : Json → Option (List Json)
  | .array items => some items
  | _ => none

/-- A field that may be left out, with what it is read as then. -/
def absentOr {α : Type} (absent : α) (read : Json → Option α) : Option Json → Option α
  | none => some absent
  | some v => read v

/-- A text that may be null. -/
def optionalText : Json → Option (Option String)
  | .null => some none
  | .string s => some (some s)
  | _ => none

/-- A record's fields, any others ignored. -/
def recordOf (known : List String) : Json → Option (List (String × Json))
  | .object fields => some fields
  | .array items => if items.length ≤ known.length then some (known.zip items) else none
  | _ => none

/-- A record's fields, any others refused. -/
def strictRecordOf (known : List String) : Json → Option (List (String × Json))
  | .object fields => objectOf known (.object fields)
  | v => recordOf known v

/-! ## Reading what was written -/

@[simp] theorem texts_ofTexts (l : List String) : (ofTexts l).texts = some l := by
  show (l.map Json.string).mapM text = some l
  induction l with
  | nil => rfl
  | cons s rest ih => simp [text, ih]

@[simp] theorem pairs_ofPairs (l : List (String × String)) : (ofPairs l).pairs = some l := by
  show (l.map fun p => Json.array [.string p.1, .string p.2]).mapM pair = some l
  induction l with
  | nil => rfl
  | cons p rest ih => simp [pair, ih]

theorem asU64_ofNat {n : Nat} (h : n < 2 ^ 64) : (ofNat n).asU64 = some n := if_pos h

theorem asU64_lt {v : Json} {n : Nat} (h : v.asU64 = some n) : n < 2 ^ 64 := by
  unfold asU64 at h
  split at h
  · split at h
    · cases h
      assumption
    · cases h
  · cases h

variable {fields : List (String × Option Json)} {known : List String}

theorem mem_kept {f : String × Json} (h : f ∈ kept fields) : (f.1, some f.2) ∈ fields := by
  obtain ⟨⟨name, value⟩, hg, hf⟩ := List.mem_filterMap.mp h
  obtain ⟨v, rfl, rfl⟩ := Option.map_eq_some_iff.mp hf
  exact hg

/-- A written field is read as it was given. -/
theorem lookup_kept (h : (fields.map Prod.fst).Nodup)
    (name : String) : (kept fields).lookup name = (fields.lookup name).join := by
  induction fields with
  | nil => rfl
  | cons f rest ih =>
    obtain ⟨key, v⟩ := f
    obtain ⟨hkey, hrest⟩ := List.nodup_cons.mp h
    have hrest := ih hrest
    cases v with
    | some v =>
      show ((key, v) :: kept rest).lookup name = _
      rw [List.lookup_cons, List.lookup_cons]
      split
      · rfl
      · exact hrest
    | none =>
      show (kept rest).lookup name = _
      rw [hrest, List.lookup_cons]
      split
      · -- the field was left out, and no other has its name
        rename_i hname
        obtain rfl : name = key := by simpa using hname
        rw [List.lookup_eq_none_iff.mpr]
        · rfl
        · intro f hf
          refine bne_iff_ne.mpr fun heq => ?_
          exact hkey (List.mem_map.mpr ⟨f, hf, heq.symm⟩)
      · rfl

/-- A record whose fields are all known is read as a record. -/
theorem objectOf_kept (h : ∀ f ∈ fields, f.2.isSome = true → f.1 ∈ known) :
    objectOf known (.object (kept fields)) = some (kept fields) := by
  refine if_pos (List.all_eq_true.mpr fun f hf => ?_)
  simpa using h _ (mem_kept hf) rfl

theorem strictRecordOf_kept (h : ∀ f ∈ fields, f.2.isSome = true → f.1 ∈ known) :
    strictRecordOf known (.object (kept fields)) = some (kept fields) := objectOf_kept h

end Gapura.Control.Policies.Json
