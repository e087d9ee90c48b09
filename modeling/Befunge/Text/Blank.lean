/-!
# Blank characters

The characters with Unicode's `White_Space` property, and texts without them at their ends.
-/

namespace Befunge.Text

/-- A character that counts as blank space: one of the 25 of Unicode's `White_Space`. -/
def isBlank (c : Char) : Bool :=
  let n := c.toNat
  (0x09 ≤ n && n ≤ 0x0D) || n == 0x20 || n == 0x85 || n == 0xA0 || n == 0x1680 ||
    (0x2000 ≤ n && n ≤ 0x200A) || n == 0x2028 || n == 0x2029 || n == 0x202F || n == 0x205F ||
    n == 0x3000

def trimStart (s : List Char) : List Char := s.dropWhile isBlank

def trimEnd (s : List Char) : List Char := (s.reverse.dropWhile isBlank).reverse

def trim (s : List Char) : List Char := trimEnd (trimStart s)

theorem trimEnd_append_blanks (s : List Char) {b : List Char} (h : ∀ c ∈ b, isBlank c = true) :
    trimEnd (s ++ b) = trimEnd s := by
  have hb : ∀ c ∈ b.reverse, isBlank c = true := fun c hc => h c (List.mem_reverse.1 hc)
  simp only [trimEnd, List.reverse_append]
  rw [List.dropWhile_append_of_pos hb]

end Befunge.Text
