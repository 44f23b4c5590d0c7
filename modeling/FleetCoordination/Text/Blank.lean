/-!
# Blank characters

The Unicode property White_Space, and texts without it at their ends.
-/
namespace FleetCoordination.Text

def isBlank (c : Char) : Bool :=
  let n := c.toNat
  (9 ≤ n && n ≤ 13) || n = 0x20 || n = 0x85 || n = 0xA0 || n = 0x1680 ||
    (0x2000 ≤ n && n ≤ 0x200A) || n = 0x2028 || n = 0x2029 || n = 0x202F || n = 0x205F || n = 0x3000

def trimLeft (cs : List Char) : List Char := cs.dropWhile isBlank

def trim (s : String) : String :=
  String.ofList (trimLeft (trimLeft s.toList).reverse).reverse

def upperAscii (s : String) : String := String.ofList (s.toList.map Char.toUpper)
def lowerAscii (s : String) : String := String.ofList (s.toList.map Char.toLower)

/-- Fills with blanks on the right up to `width` characters. -/
def padRight (width : Nat) (s : String) : String := s ++ String.ofList (List.replicate (width - s.length) ' ')

/-- Fills with blanks on the left up to `width` characters. -/
def padLeft (width : Nat) (s : String) : String := String.ofList (List.replicate (width - s.length) ' ') ++ s

/-- The parts of `text` joined by `separator`. -/
def join (separator : String) (parts : List String) : String := String.intercalate separator parts

end FleetCoordination.Text
