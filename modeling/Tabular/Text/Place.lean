/-! # Places in a text

A place in a text is the number of bytes before it. Characters are looked up by
their places, and a text is cut at places. A text cannot be cut inside a
character or behind its end.
-/

namespace Tabular.Text

def byteLength : List Char → Nat
  | [] => 0
  | c :: rest => c.utf8Size + byteLength rest

/-- The first place where the character stands. -/
def find? (c : Char) : List Char → Option Nat
  | [] => none
  | d :: rest => if d = c then some 0 else (find? c rest).map (d.utf8Size + ·)

/-- The last place where the character stands. -/
def rfind? (c : Char) : List Char → Option Nat
  | [] => none
  | d :: rest =>
    match rfind? c rest with
    | some place => some (d.utf8Size + place)
    | none => if d = c then some 0 else none

/-- What is before a place, and what is behind it. -/
def cutAt? : Nat → List Char → Option (List Char × List Char)
  | 0, cs => some ([], cs)
  | _ + 1, [] => none
  | place + 1, c :: rest =>
    if c.utf8Size ≤ place + 1 then
      (cutAt? (place + 1 - c.utf8Size) rest).map fun (before, behind) => (c :: before, behind)
    else none

/-- What is between two places. -/
def slice? (start stop : Nat) (cs : List Char) : Option (List Char) := do
  let (before, _) ← cutAt? stop cs
  let (_, part) ← cutAt? start before
  return part

end Tabular.Text
