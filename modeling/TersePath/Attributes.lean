namespace TersePath

/-- Values in the order in which they were given, each name once, and values that hold for names
without a given one. -/
structure Attributes where
  given : List (String × String) := []
  implied : List (String × String) := []
deriving DecidableEq

namespace Attributes

def get? (attributes : Attributes) (name : String) : Option String :=
  (attributes.given.lookup name).or (attributes.implied.lookup name)

def put (name value : String) : List (String × String) → List (String × String)
  | [] => [(name, value)]
  | entry :: rest => if entry.1 = name then (name, value) :: rest else entry :: put name value rest

def set (attributes : Attributes) (name value : String) : Attributes :=
  { attributes with given := put name value attributes.given }

theorem lookup_put_self (name value : String) (entries : List (String × String)) :
    (put name value entries).lookup name = some value := by
  induction entries with
  | nil => simp [put]
  | cons entry rest ih =>
    rw [put]
    split
    · simp
    · next h =>
      rw [List.lookup_cons, show (name == entry.1) = false by simpa using Ne.symm h]
      exact ih

theorem lookup_put_of_ne {name other : String} (h : other ≠ name) (value : String)
    (entries : List (String × String)) :
    (put name value entries).lookup other = entries.lookup other := by
  have hother : (other == name) = false := by simpa using h
  induction entries with
  | nil => simp [put, List.lookup_cons, hother]
  | cons entry rest ih =>
    obtain ⟨key, old⟩ := entry
    rw [put]
    split
    · next hkey =>
      obtain rfl : key = name := hkey
      rw [List.lookup_cons, List.lookup_cons, hother]
    · rw [List.lookup_cons, List.lookup_cons, ih]

theorem get?_set_self (attributes : Attributes) (name value : String) :
    (attributes.set name value).get? name = some value := by
  simp [get?, set, lookup_put_self]

theorem get?_set_of_ne {name other : String} (h : other ≠ name) (attributes : Attributes)
    (value : String) : (attributes.set name value).get? other = attributes.get? other := by
  simp [get?, set, lookup_put_of_ne h]

end Attributes

end TersePath
