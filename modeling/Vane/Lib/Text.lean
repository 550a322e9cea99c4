import Mathlib

/-!
This module contains `str.strip`.
-/

namespace Text

def isSpace (c : Char) : Bool :=
  let n := c.toNat
  (0x09 ≤ n ∧ n ≤ 0x0d) ∨ (0x1c ≤ n ∧ n ≤ 0x20) ∨ n = 0x85 ∨ n = 0xa0 ∨ n = 0x1680 ∨
    (0x2000 ≤ n ∧ n ≤ 0x200a) ∨ n = 0x2028 ∨ n = 0x2029 ∨ n = 0x202f ∨ n = 0x205f ∨ n = 0x3000

def stripChars (cs : List Char) : List Char :=
  ((cs.dropWhile isSpace).reverse.dropWhile isSpace).reverse

def strip (s : String) : String := String.ofList (stripChars s.toList)

theorem stripChars_stripChars (cs : List Char) : stripChars (stripChars cs) = stripChars cs := by
  -- What is left after the first `dropWhile` keeps its head when the end is dropped.
  have hhead : (stripChars cs).dropWhile isSpace = stripChars cs := by
    rw [List.dropWhile_eq_self_iff]
    intro hlen
    have hpre : stripChars cs <+: cs.dropWhile isSpace := List.rdropWhile_prefix isSpace _
    have hne : 0 < (cs.dropWhile isSpace).length := lt_of_lt_of_le hlen hpre.length_le
    have := List.dropWhile_get_zero_not isSpace cs hne
    simpa [hpre.getElem hlen] using this
  have htail : List.rdropWhile isSpace (stripChars cs) = stripChars cs :=
    List.rdropWhile_idempotent isSpace _
  rw [List.rdropWhile] at htail
  unfold stripChars at hhead ⊢
  rw [hhead]
  exact htail

@[simp]
theorem strip_strip (s : String) : strip (strip s) = strip s := by
  unfold strip
  rw [String.toList_ofList, stripChars_stripChars]

end Text
