import Flowplan.Unicode.RangeTable

namespace Flowplan.Unicode

/-- Characters whose compatibility decomposition holds one of the five delimiters of an authority. -/
def delimiterLookalikes : RangeTable where
  ranges := [
    (0x2047, 0x2049), (0x2100, 0x2101), (0x2105, 0x2106), (0x2A74, 0x2A74), (0xFE13, 0xFE13),
    (0xFE16, 0xFE16), (0xFE55, 0xFE56), (0xFE5F, 0xFE5F), (0xFE6B, 0xFE6B), (0xFF03, 0xFF03),
    (0xFF0F, 0xFF0F), (0xFF1A, 0xFF1A), (0xFF1F, 0xFF20)]

def hidesDelimiter (c : Char) : Bool :=
  delimiterLookalikes.contains c.toNat

end Flowplan.Unicode
