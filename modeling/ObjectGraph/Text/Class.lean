/-
# Character classes

Which characters separate, begin and continue words, and which are shown escaped.  Each class
decides ASCII characters by itself and looks the others up in the tables of
`ObjectGraph.Text.Ranges`.
-/
import ObjectGraph.Text.Ranges

namespace ObjectGraph.Text

/-- The property `White_Space`. -/
def isWhitespace (c : Char) : Bool :=
  let code := c.toNat
  (0x09 ≤ code && code ≤ 0x0d) || code == 0x20 || code == 0x85 || code == 0xa0 || code == 0x1680
    || (0x2000 ≤ code && code ≤ 0x200a) || code == 0x2028 || code == 0x2029 || code == 0x202f
    || code == 0x205f || code == 0x3000

/-- Whether a character is one of the 128 ASCII characters. -/
def isAscii (c : Char) : Bool :=
  c.toNat < 0x80

/-- The property `Alphabetic`: letters of every script. -/
def isAlphabetic (c : Char) : Bool :=
  if isAscii c then c.isAlpha else inRanges alphabeticRanges c.toNat

/-- Letters and numbers of every script. -/
def isAlphanumeric (c : Char) : Bool :=
  if isAscii c then c.isAlphanum
  else inRanges alphabeticRanges c.toNat || inRanges numericRanges c.toNat

/-- ASCII letters and digits. -/
def isAsciiAlphanumeric (c : Char) : Bool :=
  isAscii c && c.isAlphanum

/-- Whether a character is a mark that belongs to the character before it. -/
def isExtend (c : Char) : Bool :=
  !isAscii c && inRanges extendRanges c.toNat

/-- Whether a character has a visible form of its own; of the blanks only the space counts. -/
def isPrintable (c : Char) : Bool :=
  if isAscii c then 0x20 ≤ c.toNat && c.toNat < 0x7f else !inRanges unprintableRanges c.toNat

end ObjectGraph.Text
