/-!
# Blank characters

Texts typed by a person are read without the blanks around them.  Which characters are blank
is the Unicode property `White_Space`, so that a no-break space or an ideographic space counts
as well as a plain one.

## Main definitions

* `Text.isBlank` : the characters with the property `White_Space`.
* `Text.trim` : a text without the blanks at its ends.
* `Text.lower` : a text with the letters `A` to `Z` made small.
-/

namespace PowerTables.Text

/-- Whether a character has the Unicode property `White_Space`. -/
def isBlank (c : Char) : Bool :=
  let n := c.toNat
  (0x09 ≤ n && n ≤ 0x0D) || n == 0x20 || n == 0x85 || n == 0xA0 || n == 0x1680 ||
    (0x2000 ≤ n && n ≤ 0x200A) || n == 0x2028 || n == 0x2029 || n == 0x202F || n == 0x205F ||
    n == 0x3000

/-- The characters that are left when the blanks in front are skipped. -/
def skipBlanks (cs : List Char) : List Char := cs.dropWhile isBlank

/-- The characters without the blanks at both ends. -/
def trimChars (cs : List Char) : List Char :=
  (skipBlanks (skipBlanks cs).reverse).reverse

/-- A text without the blanks at both ends. -/
def trim (s : String) : String := String.ofList (trimChars s.toList)

/-- A text with the letters `A` to `Z` replaced by `a` to `z`; other letters stay. -/
def lower (s : String) : String := String.ofList (s.toList.map Char.toLower)

/-- The texts with a separator between neighbours. -/
def joinWith (separator : String) : List String → String
  | [] => ""
  | [s] => s
  | s :: rest => s ++ separator ++ joinWith separator rest

/-- Splits the characters at every occurrence of a separator; there is always one piece more
than there are separators. -/
def splitChars (separator : Char) : List Char → List (List Char)
  | [] => [[]]
  | c :: cs =>
    if c = separator then [] :: splitChars separator cs
    else match splitChars separator cs with
      | [] => [[c]]
      | piece :: pieces => (c :: piece) :: pieces

/-- Splits a text at every occurrence of a separator. -/
def split (separator : Char) (s : String) : List String :=
  (splitChars separator s.toList).map String.ofList

/-- The parts before and after the first occurrence of a separator, if there is one. -/
def splitFirst? (separator : Char) : List Char → Option (List Char × List Char)
  | [] => none
  | c :: cs =>
    if c = separator then some ([], cs)
    else (splitFirst? separator cs).map fun (before, after) => (c :: before, after)

/-- The parts before and after the last occurrence of a separator, if there is one. -/
def splitLast? (separator : Char) : List Char → Option (List Char × List Char)
  | [] => none
  | c :: cs =>
    match splitLast? separator cs with
    | some (before, after) => some (c :: before, after)
    | none => if c = separator then some ([], cs) else none

end PowerTables.Text
