import Mathlib.Tactic.Common

/-!
# Header lists

Headers in the order of the message, with their names in lower case.  Reading
takes the first header of a name; assigning writes there and drops the others.
-/

namespace BackendProdReady.Lib.HttpHeaders

abbrev Headers := List (String × String)

/-- `s.lower()` for a name, which is ASCII. -/
def lower (s : String) : String := String.ofList (s.toList.map Char.toLower)

namespace Headers

def getKey (key : String) : Headers → Option String
  | [] => none
  | (k, v) :: rest => if k = key then some v else getKey key rest

def setKey (key value : String) : Headers → Headers
  | [] => [(key, value)]
  | (k, v) :: rest =>
      if k = key then (key, value) :: rest.filter (·.1 ≠ key) else (k, v) :: setKey key value rest

def get (headers : Headers) (name : String) : Option String := headers.getKey (lower name)

def set (headers : Headers) (name value : String) : Headers := headers.setKey (lower name) value

theorem getKey_setKey_self (key value : String) (headers : Headers) :
    (headers.setKey key value).getKey key = some value := by
  induction headers with
  | nil => simp [setKey, getKey]
  | cons header rest ih =>
      obtain ⟨k, v⟩ := header
      by_cases hk : k = key
      · simp [setKey, getKey, hk]
      · simp [setKey, getKey, hk, ih]

theorem getKey_filter_of_ne {key other : String} (h : other ≠ key) (headers : Headers) :
    getKey other (headers.filter (·.1 ≠ key)) = getKey other headers := by
  induction headers with
  | nil => rfl
  | cons header rest ih =>
      obtain ⟨k, v⟩ := header
      by_cases hk : k = key
      · subst hk
        rw [List.filter_cons_of_neg (by simp), ih, getKey, if_neg h.symm]
      · rw [List.filter_cons_of_pos (by simpa using hk), getKey, getKey, ih]

theorem getKey_setKey_of_ne {key other : String} (h : other ≠ key) (value : String)
    (headers : Headers) : (headers.setKey key value).getKey other = headers.getKey other := by
  induction headers with
  | nil => simp [setKey, getKey, h.symm]
  | cons header rest ih =>
      obtain ⟨k, v⟩ := header
      by_cases hk : k = key
      · subst hk
        rw [setKey, if_pos rfl, getKey, getKey, if_neg h.symm, if_neg h.symm,
          getKey_filter_of_ne h]
      · rw [setKey, if_neg hk, getKey, getKey, ih]

@[simp] theorem get_set_self (headers : Headers) (name value : String) :
    (headers.set name value).get name = some value :=
  getKey_setKey_self _ _ headers

theorem get_set_of_ne {name other : String} (h : lower other ≠ lower name)
    (headers : Headers) (value : String) :
    (headers.set name value).get other = headers.get other :=
  getKey_setKey_of_ne h value headers

end Headers

end BackendProdReady.Lib.HttpHeaders
