import Gapura.Lib.Text

/-! # Header maps

A head's headers as its lines, in the order they were written. Names are
compared without regard to ASCII case. A value is bytes, and reads as text only
when all of them are visible ASCII. -/
namespace Gapura.Lib.Headers
open Text

abbrev Value := List UInt8

def visibleAscii (b : UInt8) : Bool := (32 ≤ b && b < 127) || b == 9

/-- The value as text, `none` when a byte of it is not visible ASCII. -/
def toStr (v : Value) : Option String :=
  if v.all visibleAscii then some (String.ofList (v.map fun b => Char.ofNat b.toNat)) else none

def bytes (s : String) : Value := s.toUTF8.toList

/-- The value a text becomes, `none` when it holds a control character. -/
def ofStr (s : String) : Option Value :=
  if (bytes s).all fun b => (32 ≤ b && b != 127) || b == 9 then some (bytes s) else none

/-- One or more token characters. -/
def nameOk (name : String) : Bool :=
  !name.isEmpty && name.toList.all fun c =>
    c.isAlphanum || "!#$%&'*+-.^_`|~".toList.contains c

structure HeaderMap where
  lines : List (String × Value) := []
  deriving DecidableEq, Repr

def named (name : String) (line : String × Value) : Bool := eqIgnoreAsciiCase line.1 name

namespace HeaderMap

/-- Every value of a name, in order. -/
def getAll (m : HeaderMap) (name : String) : List Value :=
  (m.lines.filter (named name)).map Prod.snd

/-- The first value of a name. -/
def get (m : HeaderMap) (name : String) : Option Value := (m.getAll name).head?

def containsKey (m : HeaderMap) (name : String) : Bool := m.lines.any (named name)

def remove (m : HeaderMap) (name : String) : HeaderMap :=
  ⟨m.lines.filter fun line => !named name line⟩

/-- One more line of a name. -/
def append (m : HeaderMap) (name : String) (v : Value) : HeaderMap := ⟨m.lines ++ [(name, v)]⟩

/-- The only line of a name. -/
def insert (m : HeaderMap) (name : String) (v : Value) : HeaderMap :=
  (m.remove name).append name v

/-! ## What an operation leaves of a name -/

variable {line : String × Value}

theorem named_iff {name : String} :
    named name line = true ↔ toAsciiLowercase line.1 = toAsciiLowercase name :=
  eqIgnoreAsciiCase_iff

theorem named_eq {a b : String} (h : eqIgnoreAsciiCase a b = true) : named a = named b := by
  funext line
  rw [Bool.eq_iff_iff, named_iff, named_iff, eqIgnoreAsciiCase_iff.mp h]

/-- A line has one name. -/
theorem named_ne {a b : String} (h : eqIgnoreAsciiCase a b = false)
    (hb : named b line = true) : named a line = false := by
  by_contra ha
  rw [Bool.not_eq_false, named_iff] at ha
  rw [named_iff] at hb
  have : eqIgnoreAsciiCase a b = true := eqIgnoreAsciiCase_iff.mpr (ha.symm.trans hb)
  rw [this] at h
  cases h

@[simp] theorem getAll_remove (m : HeaderMap) (a b : String) :
    (m.remove a).getAll b = if eqIgnoreAsciiCase a b then [] else m.getAll b := by
  unfold getAll remove
  rw [List.filter_filter]
  split
  next h =>
    rw [named_eq h]
    simp
  next h =>
    congr 1
    apply List.filter_congr
    intro line _
    cases hb : named b line with
    | false => rfl
    | true => simp [named_ne (Bool.eq_false_iff.mpr h) hb]

@[simp] theorem getAll_append (m : HeaderMap) (a b : String) (v : Value) :
    (m.append a v).getAll b = m.getAll b ++ if eqIgnoreAsciiCase a b then [v] else [] := by
  unfold getAll append
  rw [List.filter_append, List.map_append]
  congr 1
  cases h : eqIgnoreAsciiCase a b with
  | false => simp [named, h]
  | true => simp [named, h]

@[simp] theorem getAll_insert (m : HeaderMap) (a b : String) (v : Value) :
    (m.insert a v).getAll b = if eqIgnoreAsciiCase a b then [v] else m.getAll b := by
  unfold insert
  rw [getAll_append, getAll_remove]
  cases eqIgnoreAsciiCase a b <;> simp

/-! ## Maps that agree but for one name -/

/-- The same lines in the same order, those of `h` left out. -/
def AgreeOff (h : String) (m m' : HeaderMap) : Prop := m.remove h = m'.remove h

theorem remove_comm (m : HeaderMap) (a b : String) :
    (m.remove a).remove b = (m.remove b).remove a := by
  simp only [remove, List.filter_filter, Bool.and_comm]

theorem remove_append (m : HeaderMap) (a h : String) (v : Value) :
    (m.append a v).remove h =
      if eqIgnoreAsciiCase a h then m.remove h else (m.remove h).append a v := by
  unfold append remove
  rw [List.filter_append]
  cases hn : eqIgnoreAsciiCase a h with
  | false => simp [named, hn]
  | true => simp [named, hn]

namespace AgreeOff

variable {h : String} {m m' : HeaderMap}

theorem remove (hm : AgreeOff h m m') (a : String) : AgreeOff h (m.remove a) (m'.remove a) := by
  unfold AgreeOff
  rw [remove_comm, hm, remove_comm]

theorem append (hm : AgreeOff h m m') (a : String) (v : Value) :
    AgreeOff h (m.append a v) (m'.append a v) := by
  unfold AgreeOff
  rw [remove_append, remove_append, hm]

theorem insert (hm : AgreeOff h m m') (a : String) (v : Value) :
    AgreeOff h (m.insert a v) (m'.insert a v) := (hm.remove a).append a v

variable {a : String}

theorem getAll (hm : AgreeOff h m m') (ha : eqIgnoreAsciiCase h a = false) :
    m.getAll a = m'.getAll a := by
  have hremove := congrArg (fun m => HeaderMap.getAll m a) hm
  simpa [ha] using hremove

theorem get (hm : AgreeOff h m m') (ha : eqIgnoreAsciiCase h a = false) :
    m.get a = m'.get a := congrArg List.head? (hm.getAll ha)

end AgreeOff

end HeaderMap

end Gapura.Lib.Headers
