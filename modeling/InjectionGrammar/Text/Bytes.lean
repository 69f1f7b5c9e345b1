/-! Lengths of texts and places in them, counted in the bytes that encode them. -/
namespace InjectionGrammar

/-- The number of bytes of characters. -/
def byteLength : List Char → Nat
  | [] => 0
  | c :: cs => c.utf8Size + byteLength cs

/-- The characters up to a place; a place inside of a character is none. -/
def upToByte? : Nat → List Char → Option (List Char)
  | 0, _ => some []
  | _ + 1, [] => none
  | n + 1, c :: cs =>
    if c.utf8Size ≤ n + 1 then (upToByte? (n + 1 - c.utf8Size) cs).map (c :: ·) else none

/-- The characters from a place on. -/
def fromByte? : Nat → List Char → Option (List Char)
  | 0, cs => some cs
  | _ + 1, [] => none
  | n + 1, c :: cs => if c.utf8Size ≤ n + 1 then fromByte? (n + 1 - c.utf8Size) cs else none

/-- The characters between two places. -/
def betweenBytes? (start stop : Nat) (cs : List Char) : Option (List Char) :=
  (fromByte? start cs).bind (upToByte? (stop - start))

@[simp] theorem byteLength_append (cs ds : List Char) :
    byteLength (cs ++ ds) = byteLength cs + byteLength ds := by
  induction cs with
  | nil => simp [byteLength]
  | cons c cs ih => simp [byteLength, ih, Nat.add_assoc]

end InjectionGrammar
