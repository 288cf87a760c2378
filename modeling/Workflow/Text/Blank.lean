/-! White space of every script: which characters are blank, and cutting a text at blanks. -/

namespace Workflow.Text

def isBlank (c : Char) : Bool :=
  let n := c.toNat
  (9 ≤ n && n ≤ 13) || (28 ≤ n && n ≤ 32) || n == 0x85 || n == 0xA0 || n == 0x1680 ||
  (0x2000 ≤ n && n ≤ 0x200A) || n == 0x2028 || n == 0x2029 || n == 0x202F || n == 0x205F ||
  n == 0x3000

def dropLast (member : Char → Bool) (cs : List Char) : List Char :=
  (cs.reverse.dropWhile member).reverse

/-- The text without the leading and trailing characters of a class. -/
def trim (member : Char → Bool) (cs : List Char) : List Char :=
  dropLast member (cs.dropWhile member)

def strip (s : String) : String :=
  String.ofList (trim isBlank s.toList)

/-- The words of a text: maximal runs of characters that are not blank. -/
def words (cs : List Char) : List (List Char) :=
  go [] cs
where
  finish (word : List Char) (rest : List (List Char)) : List (List Char) :=
    if word.isEmpty then rest else word.reverse :: rest
  go : List Char → List Char → List (List Char)
    | word, [] => finish word []
    | word, c :: rest =>
      if isBlank c then finish word (go [] rest) else go (c :: word) rest

end Workflow.Text
