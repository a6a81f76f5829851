/-!
# Substitution

Texts in place of others, wherever those occur. Occurrences are found from the left and do not
overlap, and what has been put in is not looked at again. Where two texts occur in one place, the
one that is listed first counts.
-/

namespace SealedChat.Substitution

/-- Every occurrence of a text that is listed replaced by its partner, where the next `skip`
characters belong to an occurrence that has been replaced. -/
def replaceFrom (pairs : List (List Char × List Char)) : (skip : Nat) → List Char → List Char
  | _, [] => []
  | skip + 1, _ :: r => replaceFrom pairs skip r
  | 0, c :: r =>
    match pairs.find? fun p => p.1.isPrefixOf (c :: r) with
    | some (old, new) => new ++ replaceFrom pairs (old.length - 1) r
    | none => c :: replaceFrom pairs 0 r

/-- Every occurrence of `old` replaced by `new`. The empty text occurs in front of every character
and at the end. -/
def replaceAll (old new cs : List Char) : List Char :=
  if old = [] then cs.flatMap (fun c => new ++ [c]) ++ new else replaceFrom [(old, new)] 0 cs

def ofText (old new s : String) : String :=
  String.ofList (replaceAll old.toList new.toList s.toList)

/-- A text with its holes filled, each by the text that it stands for. -/
def fill (holes : List (String × String)) (s : String) : String :=
  String.ofList (replaceFrom (holes.map fun h => (h.1.toList, h.2.toList)) 0 s.toList)

end SealedChat.Substitution
