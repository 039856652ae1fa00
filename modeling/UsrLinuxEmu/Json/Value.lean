import UsrLinuxEmu.CText.Numeral

/-!
# JSON values

The values of a JSON library with byte strings and two kinds of integers, as far as they are read
and written by programs; the text itself is the library's.

* `JsonValue` — the values; an object's members are listed by ascending key;
* `member`, `asString`, `asInteger` and the like — what the library's tests and conversions give;
* `utf8`, `JsonValue.Utf8` — well-formed strings, which text can hold;
* `reparsed` — a value as it comes back from its text: integers that are not negative are unsigned.
-/

namespace UsrLinuxEmu.Json

open UsrLinuxEmu.CText

/-! ### Values -/

inductive JsonValue where
  | null
  | boolean (b : Bool)
  | integer (n : Int64)
  | unsigned (n : UInt64)
  | float (x : Float)
  | string (s : ByteString)
  | array (elems : List JsonValue)
  | object (members : List (String × JsonValue))

namespace JsonValue

def asObject : JsonValue → Option (List (String × JsonValue))
  | .object members => some members
  | _ => none

def asArray : JsonValue → Option (List JsonValue)
  | .array elems => some elems
  | _ => none

def asString : JsonValue → Option ByteString
  | .string s => some s
  | _ => none

def asBoolean : JsonValue → Option Bool
  | .boolean b => some b
  | _ => none

/-- The 64 bits of a number that is not a float, of which conversions keep the low ones. -/
def asInteger : JsonValue → Option UInt64
  | .integer n => some n.toUInt64
  | .unsigned n => some n
  | _ => none

def asUnsigned : JsonValue → Option UInt64
  | .unsigned n => some n
  | _ => none

/-- The member of an object, if there is one. -/
def member (j : JsonValue) (key : String) : Option JsonValue := j.asObject.bind (List.lookup key)

/-- Every key of the members is allowed. -/
def keysIn (allowed : List String) (members : List (String × JsonValue)) : Bool :=
  members.all fun m => allowed.contains m.1

/-! ### Strings and numbers in text -/

mutual

/-- The string values in a value. -/
def strings : JsonValue → List ByteString
  | .string s => [s]
  | .array elems => stringsOfElems elems
  | .object members => stringsOfMembers members
  | _ => []

def stringsOfElems : List JsonValue → List ByteString
  | [] => []
  | j :: js => j.strings ++ stringsOfElems js

def stringsOfMembers : List (String × JsonValue) → List ByteString
  | [] => []
  | m :: ms => m.2.strings ++ stringsOfMembers ms

end

mutual

def reparsed : JsonValue → JsonValue
  | .integer n => if 0 ≤ n then .unsigned n.toUInt64 else .integer n
  | .array elems => .array (reparsedElems elems)
  | .object members => .object (reparsedMembers members)
  | j => j

def reparsedElems : List JsonValue → List JsonValue
  | [] => []
  | j :: js => j.reparsed :: reparsedElems js

def reparsedMembers : List (String × JsonValue) → List (String × JsonValue)
  | [] => []
  | m :: ms => (m.1, m.2.reparsed) :: reparsedMembers ms

end

theorem reparsedElems_eq_map (js : List JsonValue) : reparsedElems js = js.map reparsed := by
  induction js with
  | nil => rfl
  | cons j js ih => rw [reparsedElems, ih, List.map_cons]

theorem mem_stringsOfElems {js : List JsonValue} {s : ByteString} :
    s ∈ stringsOfElems js ↔ ∃ j ∈ js, s ∈ j.strings := by
  induction js with
  | nil => simp [stringsOfElems]
  | cons j js ih => simp [stringsOfElems, ih]

theorem mem_stringsOfMembers {ms : List (String × JsonValue)} {s : ByteString} :
    s ∈ stringsOfMembers ms ↔ ∃ m ∈ ms, s ∈ m.2.strings := by
  induction ms with
  | nil => simp [stringsOfMembers]
  | cons m ms ih => simp [stringsOfMembers, ih]

/-- The strings of a member are among the object's. -/
theorem strings_of_member {j j' : JsonValue} {key : String} (h : j.member key = some j')
    {s : ByteString} (hs : s ∈ j'.strings) : s ∈ j.strings := by
  cases j with
  | object members =>
    replace h : members.lookup key = some j' := h
    obtain ⟨before, after, hsplit, -⟩ := List.lookup_eq_some_iff.mp h
    refine mem_stringsOfMembers.mpr ⟨(key, j'), ?_, hs⟩
    rw [hsplit]
    exact List.mem_append_right _ List.mem_cons_self
  | _ => cases h

end JsonValue

/-! ### UTF-8 -/

/-- The continuation bytes owed, and the bounds of the next one. -/
structure Utf8State where
  owed : ℕ
  low : UInt8
  high : UInt8
  deriving DecidableEq, Repr

namespace Utf8State

/-- Between two characters. -/
def start : Utf8State := ⟨0, 0x80, 0xBF⟩

def step (st : Utf8State) (b : UInt8) : Option Utf8State :=
  if st.owed = 0 then
    if b < 0x80 then some start
    else if 0xC2 ≤ b ∧ b ≤ 0xDF then some ⟨1, 0x80, 0xBF⟩
    else if b = 0xE0 then some ⟨2, 0xA0, 0xBF⟩
    else if b = 0xED then some ⟨2, 0x80, 0x9F⟩
    else if 0xE1 ≤ b ∧ b ≤ 0xEF then some ⟨2, 0x80, 0xBF⟩
    else if b = 0xF0 then some ⟨3, 0x90, 0xBF⟩
    else if 0xF1 ≤ b ∧ b ≤ 0xF3 then some ⟨3, 0x80, 0xBF⟩
    else if b = 0xF4 then some ⟨3, 0x80, 0x8F⟩
    else none
  else if st.low ≤ b ∧ b ≤ st.high then some ⟨st.owed - 1, 0x80, 0xBF⟩
  else none

end Utf8State

def utf8 (s : ByteString) : Bool := s.foldlM Utf8State.step .start == some .start

theorem utf8_of_ascii {s : ByteString} (h : ∀ b ∈ s, b < 0x80) : utf8 s = true := by
  have hfold : s.foldlM Utf8State.step .start = some .start := by
    induction s with
    | nil => rfl
    | cons b s ih =>
      have hstep : Utf8State.step .start b = some .start := by
        have howed : Utf8State.start.owed = 0 := rfl
        rw [Utf8State.step, if_pos howed, if_pos (h b List.mem_cons_self)]
      rw [List.foldlM_cons, hstep]
      exact ih fun c hc => h c (List.mem_cons_of_mem _ hc)
  rw [utf8, hfold]
  rfl

/-- All strings of the value are well formed. -/
def JsonValue.Utf8 (j : JsonValue) : Prop := ∀ s ∈ j.strings, utf8 s = true

end UsrLinuxEmu.Json
