namespace Flowplan.Unicode

/-- The White_Space property. -/
def isWhiteSpace (c : Char) : Bool :=
  let n := c.toNat
  (0x9 ≤ n && n ≤ 0xD) || n == 0x20 || n == 0x85 || n == 0xA0 || n == 0x1680 ||
  (0x2000 ≤ n && n ≤ 0x200A) || n == 0x2028 || n == 0x2029 || n == 0x202F || n == 0x205F ||
  n == 0x3000

/-- White space and the four information separators. -/
def isBlank (c : Char) : Bool :=
  isWhiteSpace c || (0x1C ≤ c.toNat && c.toNat ≤ 0x1F)

theorem isBlank_of_isWhiteSpace {c : Char} (h : isWhiteSpace c = true) : isBlank c = true := by
  simp [isBlank, h]

end Flowplan.Unicode
