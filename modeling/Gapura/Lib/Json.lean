import Mathlib

/-! # JSON values and merge patches

A JSON value, how a field of one is read, and the merge patch of RFC 7396: an
object is merged field by field, null takes a field out, and everything else,
arrays included, replaces what was there. The first field of a name counts. -/
namespace Gapura.Lib.Json

inductive Number where
  | integer (value : Int)
  /-- Any other number, as it is written. -/
  | decimal (text : String)
  deriving DecidableEq, Repr

inductive Value where
  | null
  | bool (value : Bool)
  | number (value : Number)
  | string (value : String)
  | array (items : List Value)
  | object (fields : List (String × Value))

namespace Value

/-! ## Equality -/

mutual
def same : Value → Value → Bool
  | .null, .null => true
  | .bool a, .bool b => a == b
  | .number a, .number b => a == b
  | .string a, .string b => a == b
  | .array a, .array b => sameItems a b
  | .object a, .object b => sameFields a b
  | _, _ => false

def sameItems : List Value → List Value → Bool
  | [], [] => true
  | a :: as, b :: bs => same a b && sameItems as bs
  | _, _ => false

def sameFields : List (String × Value) → List (String × Value) → Bool
  | [], [] => true
  | (k, a) :: as, (l, b) :: bs => k == l && same a b && sameFields as bs
  | _, _ => false
end

mutual
theorem same_self : ∀ a : Value, same a a = true
  | .null => rfl
  | .bool _ | .number _ | .string _ => by simp [same]
  | .array items => by rw [same, sameItems_self items]
  | .object fields => by rw [same, sameFields_self fields]

theorem sameItems_self : ∀ items : List Value, sameItems items items = true
  | [] => rfl
  | a :: rest => by rw [sameItems, same_self a, sameItems_self rest, Bool.and_self]

theorem sameFields_self : ∀ fields : List (String × Value), sameFields fields fields = true
  | [] => rfl
  | (k, a) :: rest => by
    rw [sameFields, same_self a, sameFields_self rest, beq_self_eq_true, Bool.and_self,
      Bool.and_self]
end

mutual
theorem eq_of_same : ∀ a b : Value, same a b = true → a = b
  | .null, b, h => by cases b <;> simp_all [same]
  | .bool _, b, h | .number _, b, h | .string _, b, h => by cases b <;> simp_all [same]
  | .array items, b, h => by
    cases b with
    | array items' => rw [eq_of_sameItems items items' (by simpa [same] using h)]
    | _ => simp [same] at h
  | .object fields, b, h => by
    cases b with
    | object fields' => rw [eq_of_sameFields fields fields' (by simpa [same] using h)]
    | _ => simp [same] at h

theorem eq_of_sameItems : ∀ as bs : List Value, sameItems as bs = true → as = bs
  | [], bs, h => by cases bs <;> simp_all [sameItems]
  | a :: as, [], h => by simp [sameItems] at h
  | a :: as, b :: bs, h => by
    obtain ⟨hfirst, hrest⟩ := Bool.and_eq_true_iff.mp (by simpa only [sameItems] using h)
    rw [eq_of_same a b hfirst, eq_of_sameItems as bs hrest]

theorem eq_of_sameFields : ∀ as bs : List (String × Value), sameFields as bs = true → as = bs
  | [], bs, h => by cases bs <;> simp_all [sameFields]
  | a :: as, [], h => by simp [sameFields] at h
  | (k, a) :: as, (l, b) :: bs, h => by
    obtain ⟨hfirst, hrest⟩ := Bool.and_eq_true_iff.mp (by simpa only [sameFields] using h)
    obtain ⟨hkey, hvalue⟩ := Bool.and_eq_true_iff.mp hfirst
    rw [beq_iff_eq.mp hkey, eq_of_same a b hvalue, eq_of_sameFields as bs hrest]
end

instance : DecidableEq Value := fun a b =>
  decidable_of_iff (same a b = true) ⟨eq_of_same a b, fun h => h ▸ same_self a⟩

/-! ## Reading -/

def fields : Value → List (String × Value)
  | .object fields => fields
  | _ => []

/-- A field of an object. -/
def get (v : Value) (name : String) : Option Value := v.fields.lookup name

/-- A field of an object, null if it is not there. -/
def index (v : Value) (name : String) : Value := (v.get name).getD .null

def asArray : Value → Option (List Value)
  | .array items => some items
  | _ => none

def asStr : Value → Option String
  | .string text => some text
  | _ => none

variable {name other : String} {v : Value} {patch : List (String × Value)}

variable {text : String}

theorem index_eq_string : v.index name = .string text ↔ v.get name = some (.string text) := by
  unfold index
  cases v.get name with
  | none => simp
  | some w => simp

theorem asStr_index : (v.index name).asStr = some text ↔ v.get name = some (.string text) := by
  rw [← index_eq_string]
  cases v.index name <;> simp [asStr]

/-! ## Changing a field -/

/-- A field replaced where it stands, or added. -/
def setField (name : String) (v : Value) : List (String × Value) → List (String × Value)
  | [] => [(name, v)]
  | f :: rest => if f.1 = name then (name, v) :: rest else f :: setField name v rest

theorem lookup_field_cons {α : Type} (name : String) (a : α) (rest : List (String × α))
    (other : String) :
    ((name, a) :: rest).lookup other = if other = name then some a else rest.lookup other := by
  rw [List.lookup_cons]
  by_cases h : other = name
  · simp [h]
  · simp [h, beq_false_of_ne h]

theorem lookup_setField (name : String) (v : Value) (fields : List (String × Value))
    (other : String) :
    (setField name v fields).lookup other =
      if other = name then some v else fields.lookup other := by
  induction fields with
  | nil => rw [setField, lookup_field_cons]
  | cons f rest ih =>
    obtain ⟨k, w⟩ := f
    unfold setField
    by_cases hname : k = name
    · subst hname
      simp only [if_true, lookup_field_cons]
      split <;> rfl
    · simp only [if_neg hname, lookup_field_cons, ih]
      by_cases h : other = k
      · have hother : other ≠ name := fun he => hname (h ▸ he)
        simp [h, hname]
      · simp [h]

/-- An object with a field set; anything else is left as it is. -/
def set (v : Value) (name : String) (w : Value) : Value :=
  match v with
  | .object fields => .object (setField name w fields)
  | v => v

/-- An object with a field taken out; anything else is left as it is. -/
def without (v : Value) (name : String) : Value :=
  match v with
  | .object fields => .object (fields.filter fun f => f.1 != name)
  | v => v

/-- An object with a field it has changed. -/
def modify (v : Value) (name : String) (change : Value → Value) : Value :=
  match v.get name with
  | some w => v.set name (change w)
  | none => v

theorem get_set_object (name : String) (w : Value) (fields : List (String × Value))
    (other : String) :
    ((Value.object fields).set name w).get other =
      if other = name then some w else (Value.object fields).get other :=
  lookup_setField name w fields other

theorem get_set_of_ne (h : other ≠ name) (v w : Value) : (v.set name w).get other = v.get other := by
  cases v with
  | object fields => rw [get_set_object, if_neg h]
  | _ => rfl

theorem get_without_of_ne (h : other ≠ name) (v : Value) :
    (v.without name).get other = v.get other := by
  cases v with
  | object fields =>
    change (fields.filter fun f => f.1 != name).lookup other = fields.lookup other
    induction fields with
    | nil => rfl
    | cons f rest ih =>
      obtain ⟨k, w⟩ := f
      rw [lookup_field_cons, ← ih, List.filter_cons]
      by_cases hk : k = name
      · subst hk
        simp [h]
      · simp [hk, lookup_field_cons]
  | _ => rfl

theorem get_modify_of_ne (h : other ≠ name) (change : Value → Value)
    (v : Value) : (v.modify name change).get other = v.get other := by
  unfold modify
  cases v.get name with
  | none => rfl
  | some w => exact get_set_of_ne h v (change w)

theorem get_modify_self {change : Value → Value} {w : Value}
    (h : v.get name = some w) : (v.modify name change).get name = some (change w) := by
  unfold modify
  cases v with
  | object fields => simp only [h, get_set_object, if_true]
  | _ => cases h

/-! ## Merge patches -/

mutual
/-- The value a merge patch makes of a target. -/
def merge (target : Value) : Value → Value
  | .object fields => .object (mergeFields target.fields fields)
  | .null => .null
  | .bool value => .bool value
  | .number value => .number value
  | .string value => .string value
  | .array items => .array items

def mergeFields (target : List (String × Value)) : List (String × Value) → List (String × Value)
  | [] => target
  | f :: rest => mergeFields (mergeField target f) rest

def mergeField (target : List (String × Value)) : String × Value → List (String × Value)
  | (name, v) =>
    if v = .null then target.filter fun f => f.1 != name
    else setField name (merge ((target.lookup name).getD .null) v) target
end

/-- A patch that takes nothing out sets each of its fields and leaves the others. -/
theorem lookup_mergeFields (hdistinct : (patch.map (·.1)).Nodup)
    (hnull : ∀ f ∈ patch, f.2 ≠ .null) (target : List (String × Value)) (name : String) :
    (mergeFields target patch).lookup name =
      match patch.lookup name with
      | some v => some (merge ((target.lookup name).getD .null) v)
      | none => target.lookup name := by
  induction patch generalizing target with
  | nil => rfl
  | cons f rest ih =>
    obtain ⟨k, v⟩ := f
    obtain ⟨hk, hrest⟩ := List.nodup_cons.mp hdistinct
    obtain ⟨hv, hnull⟩ := List.forall_mem_cons.mp hnull
    have hset : mergeField target (k, v) =
        setField k (merge ((target.lookup k).getD .null) v) target := if_neg hv
    rw [mergeFields, hset, ih hrest hnull, lookup_field_cons, lookup_setField]
    by_cases h : name = k
    · subst h
      have hnone : rest.lookup name = none := by
        rw [List.lookup_eq_none_iff]
        intro f hf
        have hne : name ≠ f.1 := fun he => hk (List.mem_map.mpr ⟨f, hf, he.symm⟩)
        simpa using hne
      simp [hnone]
    · simp [h]

theorem get_merge (hdistinct : (patch.map (·.1)).Nodup)
    (hnull : ∀ f ∈ patch, f.2 ≠ .null) (target : Value) (name : String) :
    (merge target (.object patch)).get name =
      match patch.lookup name with
      | some v => some (merge (target.index name) v)
      | none => target.get name :=
  lookup_mergeFields hdistinct hnull target.fields name

end Value

end Gapura.Lib.Json
