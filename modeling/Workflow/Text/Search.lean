import Workflow.Text.Blank

/-! Finding, counting, cutting and replacing parts of a text. -/

namespace Workflow.Text

/-- The first place, from `i` on, at which a part begins. -/
def findFrom (part : List Char) : (i : Nat) → List Char → Option Nat
  | i, [] => if part.isEmpty then some i else none
  | i, c :: rest =>
    if part.isPrefixOf (c :: rest) then some i else findFrom part (i + 1) rest

def contains (part cs : List Char) : Bool := (findFrom part 0 cs).isSome

/-- The pieces of a text between the places where a part begins that do not overlap, for at most
`most` cuts. The part is not empty. -/
def pieces (part : List Char) : (fuel : Nat) → (most : Option Nat) → List Char → List (List Char)
  | 0, _, cs => [cs]
  | fuel + 1, most, cs =>
    if most == some 0 then [cs]
    else match findFrom part 0 cs with
      | none => [cs]
      | some i => cs.take i :: pieces part fuel (most.map (· - 1)) (cs.drop (i + part.length))

def splitAt (part : List Char) (most : Option Nat) (cs : List Char) : List (List Char) :=
  pieces part (cs.length + 1) most cs

/-- The words of a text after at most `most` cuts; what is left is kept as it is. -/
def wordsUpTo : (fuel : Nat) → (most : Nat) → List Char → List (List Char)
  | 0, _, _ => []
  | fuel + 1, most, cs =>
    match cs.dropWhile isBlank with
    | [] => []
    | cs =>
      if most == 0 then [cs]
      else
        let word := cs.takeWhile (!isBlank ·)
        word :: wordsUpTo fuel (most - 1) (cs.drop word.length)

/-- How often a part occurs without overlap; an empty part stands at every place. -/
def occurrences (part cs : List Char) : Nat :=
  if part.isEmpty then cs.length + 1 else (splitAt part none cs).length - 1

/-- A new text put before the first `most` characters, and at the end if any of them are left. -/
def weave (new : List Char) : (most : Option Nat) → List Char → List Char
  | most, [] => if most == some 0 then [] else new
  | most, c :: rest =>
    if most == some 0 then c :: rest else new ++ c :: weave new (most.map (· - 1)) rest

def replace (old new : List Char) (most : Option Nat) (cs : List Char) : List Char :=
  if old.isEmpty then weave new most cs else new.intercalate (splitAt old most cs)

end Workflow.Text
