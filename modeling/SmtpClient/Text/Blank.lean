/-
Blank characters, trimming and words. Replies and configured lists are cut
at the characters with the Unicode property White_Space, so a no-break space
separates words as a plain space does.
-/

namespace SmtpClient.Text

/-- The Unicode property White_Space. -/
def isBlank (c : Char) : Bool :=
  let n := c.toNat
  (0x09 ≤ n && n ≤ 0x0d) || n == 0x20 || n == 0x85 || n == 0xa0 || n == 0x1680 ||
    (0x2000 ≤ n && n ≤ 0x200a) || n == 0x2028 || n == 0x2029 || n == 0x202f || n == 0x205f ||
    n == 0x3000

/-- A list of characters without the blanks at its two ends. -/
def trimBlanks (cs : List Char) : List Char :=
  ((cs.dropWhile isBlank).reverse.dropWhile isBlank).reverse

/-- A text without the blanks at its two ends. -/
def trim (s : String) : String :=
  String.ofList (trimBlanks s.toList)

/-- The longest runs of characters that are not blank, in order. -/
def runs : List Char → List (List Char)
  | [] => []
  | c :: cs =>
    if isBlank c then runs cs
    else
      match cs with
      | [] => [[c]]
      | d :: _ =>
        if isBlank d then [c] :: runs cs
        else
          match runs cs with
          | [] => [[c]]
          | w :: ws => (c :: w) :: ws

/-- The words of a text: what blanks separate, never empty. -/
def words (s : String) : List String :=
  (runs s.toList).map String.ofList

end SmtpClient.Text
