import Scaffold.Number.Numeral

/-!
# Plain data

A schema file describes a resource with plain data: nothing, truth values, numbers, texts, lists
and objects.  `Value` is that data.  The members of an object keep the order in which their keys
first appear; setting a key again changes its value and not its place (`Members.set`).
-/

namespace Scaffold

/-- Plain data. -/
inductive Value where
  /-- Nothing. -/
  | null
  /-- A truth value. -/
  | bool (value : Bool)
  /-- A number. -/
  | number (value : Number)
  /-- A text. -/
  | text (value : Text)
  /-- A list. -/
  | list (items : List Value)
  /-- An object: keys with their values. -/
  | object (members : List (Text × Value))
  deriving Inhabited

/-- The members of an object, in order. -/
abbrev Members := List (Text × Value)

namespace Members

/-- The value of a key. -/
def get? (m : Members) (key : Text) : Option Value :=
  (m.find? (·.1 = key)).map (·.2)

/-- Gives `key` the value `v`: in its place if the key is there, at the end otherwise. -/
def set (key : Text) (v : Value) : Members → Members
  | [] => [(key, v)]
  | (k, w) :: m => if k = key then (key, v) :: m else (k, w) :: set key v m

/-- The members written one after another. -/
def ofList (entries : List (Text × Value)) : Members :=
  entries.foldl (fun m (k, v) => m.set k v) []

/-- The keys in order. -/
def keys (m : Members) : List Text := m.map (·.1)

/-- The text under a key, unless it is empty or the value is no text. -/
def text? (m : Members) (key : Text) : Option Text :=
  match m.get? key with
  | some (.text t) => if t = [] then none else some t
  | _ => none

/-- The key holds the truth value `b` itself. -/
def holds (m : Members) (key : Text) (b : Bool) : Bool :=
  match m.get? key with
  | some (.bool c) => c == b
  | _ => false

theorem get?_set_self (m : Members) (key : Text) (v : Value) :
    (m.set key v).get? key = some v := by
  induction m with
  | nil => simp [set, get?]
  | cons e m ih =>
    obtain ⟨k, w⟩ := e
    by_cases h : k = key
    · simp [set, get?, h]
    · simpa [set, get?, h] using ih

theorem get?_set_of_ne (m : Members) {key k : Text} (v : Value) (h : k ≠ key) :
    (m.set key v).get? k = m.get? k := by
  induction m with
  | nil => simp [set, get?, Ne.symm h]
  | cons e m ih =>
    obtain ⟨k', w⟩ := e
    by_cases hk : k' = key
    · subst hk; simp [set, get?, Ne.symm h]
    · by_cases hk' : k' = k
      · subst hk'; simp [set, get?, hk]
      · simpa [set, get?, hk, hk'] using ih

/-- Setting a key keeps the order of the keys that are there. -/
theorem keys_set (m : Members) (key : Text) (v : Value) :
    (m.set key v).keys = if key ∈ m.keys then m.keys else m.keys ++ [key] := by
  induction m with
  | nil => simp [set, keys]
  | cons e m ih =>
    obtain ⟨k, w⟩ := e
    simp only [keys] at ih ⊢
    by_cases h : k = key
    · simp [set, h]
    · rw [set, if_neg h, List.map_cons, ih]
      by_cases hm : key ∈ m.map (·.1)
      · simp [hm]
      · simp [hm, Ne.symm h]

end Members

namespace Value

/-- The members of an object, and none of any other value. -/
def members : Value → Members
  | object m => m
  | _ => []

/-- The items of a list, and none of any other value. -/
def items : Value → List Value
  | list vs => vs
  | _ => []

/-- The value counts as true: anything but nothing, `false`, zero and what is empty. -/
def isTruthy : Value → Bool
  | null => false
  | bool b => b
  | number n => !n.isZero
  | text t => !t.isEmpty
  | list vs => !vs.isEmpty
  | object m => !m.isEmpty

/-- The value is the text of a member that is there and is a text. -/
def text? : Value → Option Text
  | text t => some t
  | _ => none

end Value

end Scaffold
