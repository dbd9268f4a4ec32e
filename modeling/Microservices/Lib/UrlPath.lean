import Mathlib.Data.List.Basic

/-!
# Two normal forms of a URL path

What a client library and a server do to a path between the program that names it
and the program that is asked for it: the sender resolves the `.` and `..`
segments, the receiver decodes the percent escapes. Text is a list of characters
here, and a decoded path a list of bytes, since an escape names a byte.
-/

namespace UrlPath

/-! ## Dot segments -/

/-- One segment of a path, after the segments already kept. -/
def pushSegment (output : List (List Char)) (segment : List Char) : List (List Char) :=
  if segment = ['.'] then output
  else if segment = ['.', '.'] then
    if output = [] ∨ output = [[]] then output else output.dropLast
  else output ++ [segment]

/-- Drop `.` segments, and with each `..` the segment before it. -/
def removeDotSegments (path : List Char) : List Char :=
  ['/'].intercalate ((path.splitOn '/').foldl pushSegment [])

/-! ## Percent escapes -/

/-- The value of a hexadecimal digit, of either case. -/
def hexValue (c : Char) : Option UInt8 :=
  if c.isDigit then some (UInt8.ofNat (c.toNat - '0'.toNat))
  else if 'a' ≤ c ∧ c ≤ 'f' then some (UInt8.ofNat (c.toNat - 'a'.toNat + 10))
  else if 'A' ≤ c ∧ c ≤ 'F' then some (UInt8.ofNat (c.toNat - 'A'.toNat + 10))
  else none

/-- `%XX` is the byte it names; every other character is its UTF-8 encoding. -/
def unquoteToBytes : List Char → List UInt8
  | '%' :: a :: b :: rest =>
      match hexValue a, hexValue b with
      | some x, some y => (16 * x + y) :: unquoteToBytes rest
      | _, _ => String.utf8EncodeChar '%' ++ unquoteToBytes (a :: b :: rest)
  | c :: rest => String.utf8EncodeChar c ++ unquoteToBytes rest
  | [] => []

end UrlPath
