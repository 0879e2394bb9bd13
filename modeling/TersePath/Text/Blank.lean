/-!
Blank characters and the text between them. The class is that of Unicode whitespace together with
the four information separators. Main statement: trimmed text neither begins nor ends with a blank.
-/

namespace TersePath

def wideBlanks : List Nat :=
  [0x1680, 0x2000, 0x2001, 0x2002, 0x2003, 0x2004, 0x2005, 0x2006, 0x2007, 0x2008, 0x2009, 0x200a,
    0x2028, 0x2029, 0x202f, 0x205f, 0x3000]

def isBlank (c : Char) : Bool :=
  if c.toNat < 0x100 then
    c.toNat == 0x20 || (0x9 ≤ c.toNat && c.toNat ≤ 0xd) || (0x1c ≤ c.toNat && c.toNat ≤ 0x1f) ||
      c.toNat == 0x85 || c.toNat == 0xa0
  else wideBlanks.contains c.toNat

/-- Characters of Unicode whitespace alone. -/
def isWhite (c : Char) : Bool := isBlank c && !(0x1c ≤ c.toNat && c.toNat ≤ 0x1f)

def trimEnd (text : List Char) : List Char :=
  text.foldr (fun c rest => if isBlank c && rest.isEmpty then [] else c :: rest) []

def trim (text : List Char) : List Char := trimEnd (text.dropWhile isBlank)

theorem trimEnd_cons (c : Char) (text : List Char) :
    trimEnd (c :: text) = if isBlank c && (trimEnd text).isEmpty then [] else c :: trimEnd text :=
  rfl

theorem head?_trimEnd {text : List Char} (h : trimEnd text ≠ []) :
    (trimEnd text).head? = text.head? := by
  cases text with
  | nil => rfl
  | cons c rest =>
    rw [trimEnd_cons] at h ⊢
    by_cases hc : (isBlank c && (trimEnd rest).isEmpty) = true
    · simp [hc] at h
    · rw [if_neg hc]
      rfl

theorem getLast?_trimEnd {text : List Char} {c : Char} (h : (trimEnd text).getLast? = some c) :
    isBlank c = false := by
  induction text with
  | nil => simp [trimEnd] at h
  | cons d rest ih =>
    rw [trimEnd_cons] at h
    split at h
    · simp at h
    · cases hr : trimEnd rest with
      | nil => simp_all
      | cons e r =>
        rw [hr, List.getLast?_cons_cons] at h
        exact ih (by rw [hr]; exact h)

theorem head?_trim {text : List Char} {c : Char} (h : (trim text).head? = some c) :
    isBlank c = false := by
  have hne : trim text ≠ [] := by
    intro hnil
    simp [hnil] at h
  rw [trim, head?_trimEnd hne] at h
  have := List.head?_dropWhile_not isBlank text
  simpa [h] using this

theorem getLast?_trim {text : List Char} {c : Char} (h : (trim text).getLast? = some c) :
    isBlank c = false :=
  getLast?_trimEnd h

end TersePath
