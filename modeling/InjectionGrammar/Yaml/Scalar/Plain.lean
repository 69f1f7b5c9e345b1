import InjectionGrammar.Yaml.Scalar.Folding

/-! Scalars without quotes, on one line or more. -/
namespace InjectionGrammar
namespace Yaml

/-- A scalar without quotes: its text, whether a line break follows it, and the next place that
is not blank. -/
structure Plain where
  text : List Char
  broken : Bool
  stop : Cursor

/-- Puts text before what is still to be read. -/
def Plain.cons (cs : List Char) (r : Option Plain) : Option Plain :=
  r.map fun p => { p with text := cs ++ p.text }

/-- Whether a colon follows that would be misread inside of a flow collection. -/
def atBadColon (s : List Char) : Bool :=
  match s with
  | c :: d :: _ => c = ':' && (isFlowIndicator d || d = '?')
  | _ => false

/-- Whether the characters that follow cannot be part of a scalar without quotes. -/
def atPlainEnd (inFlow : Bool) (s : List Char) : Bool :=
  match s with
  | [] => true
  | c :: r => (c = ':' && atBlank r) || (inFlow && isFlowIndicator c)

/-- Reads the rest of a scalar. In block context the lines after the first have to be indented up
to the column `indent`. -/
def readPlain (inFlow : Bool) (indent : Nat) (gap : Gap) (m : Mark) : List Char → Option Plain
  | [] => some ⟨[], gap.isBroken, ⟨m, []⟩⟩
  | c :: s =>
    let stop : Option Plain := some ⟨[], gap.isBroken, ⟨m, c :: s⟩⟩
    if isSpaceOrTab c then
      if c = '\t' ∧ gap.isBroken ∧ m.column < indent then none
      else readPlain inFlow indent (gap.blank c) (m.next c) s
    else if isBreak c then readPlain inFlow indent (gap.newline c) m.nextLine s
    else if gap ≠ .none ∧ ((!inFlow ∧ m.column < indent) ∨ c = '#' ∨
        (m.column = 0 ∧ atDocumentMark (c :: s))) then stop
    else if inFlow ∧ atBadColon (c :: s) then none
    else if atPlainEnd inFlow (c :: s) then stop
    else Plain.cons (gap.text ++ [c]) (readPlain inFlow indent .none (m.next c) s)

end Yaml
end InjectionGrammar
