/-!
# Blank space

The characters with the Unicode property White_Space, and cutting them off the ends of a text.
-/

namespace Conduit.Text

def isBlank (c : Char) : Bool :=
  let n := c.toNat
  (9 ≤ n && n ≤ 13) || n == 0x20 || n == 0x85 || n == 0xa0 || n == 0x1680 ||
  (0x2000 ≤ n && n ≤ 0x200a) || n == 0x2028 || n == 0x2029 || n == 0x202f || n == 0x205f ||
  n == 0x3000

def trimChars (chars : List Char) : List Char :=
  ((chars.dropWhile isBlank).reverse.dropWhile isBlank).reverse

/-- The text without blank space at its ends. -/
def trim (text : String) : String := String.ofList (trimChars text.toList)

/-- The pieces between the occurrences of a character; always at least one. -/
def splitChars (sep : Char) : List Char → List (List Char)
  | [] => [[]]
  | c :: rest =>
    if c = sep then [] :: splitChars sep rest
    else match splitChars sep rest with
      | [] => [[c]]
      | piece :: pieces => (c :: piece) :: pieces

def split (sep : Char) (text : String) : List String :=
  (splitChars sep text.toList).map String.ofList

/-- Whether `needle` occurs in `hay` as a run of adjacent elements. -/
def occurs [BEq α] (needle : List α) : List α → Bool
  | [] => needle.isEmpty
  | a :: rest => needle.isPrefixOf (a :: rest) || occurs needle rest

end Conduit.Text
