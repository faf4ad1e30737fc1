import Paging.Text.Quoted

/-!
Templates with one gap. `%s` takes the text as it is and `%r` takes it quoted, both with a width and
a precision if the template gives them; `%%` is a percent sign. A template must use the text exactly
once.
-/

namespace Paging.Text

inductive TemplateError
  | unused
  | exhausted
  | incomplete
  | needsNamedValues
  | starWantsInteger
  | widthTooBig
  | precisionTooBig
  | needsNumber (code : Char)
  | needsInteger (code : Char)
  | needsReal
  | needsCharacter
  | unknownCode (code : Char) (index : Nat)
  deriving DecidableEq

def TemplateError.message : TemplateError → String
  | .unused => "not all arguments converted during string formatting"
  | .exhausted => "not enough arguments for format string"
  | .incomplete => "incomplete format"
  | .needsNamedValues => "format requires a mapping"
  | .starWantsInteger => "* wants int"
  | .widthTooBig => "width too big"
  | .precisionTooBig => "precision too big"
  | .needsNumber code =>
    "%" ++ code.toString ++ " format: a real number is required, not str"
  | .needsInteger code =>
    "%" ++ code.toString ++ " format: an integer is required, not str"
  | .needsReal => "must be real number, not str"
  | .needsCharacter => "%c requires int or char"
  | .unknownCode code index =>
    let shown := if 31 ≤ code.toNat ∧ code.toNat < 128 then code else '?'
    "unsupported format character '" ++ shown.toString ++ "' (0x" ++
      String.ofList (Nat.toDigits 16 code.toNat) ++ ") at index " ++ toString index

namespace Template

/-- How the text is laid out in the gap. -/
structure Layout where
  left : Bool
  width : Nat
  precision : Option Nat

def Layout.apply (l : Layout) (s : List Letter) : List Letter :=
  let s := match l.precision with
    | some n => s.take n
    | none => s
  let fill := List.replicate (l.width - s.length) (' ' : Letter)
  if l.left then s ++ fill else fill ++ s

/-- The greatest width that is read. -/
def maxWidth : Nat := Nat.pow 2 63 - 1

def isFlag (c : Char) : Bool :=
  c == '-' || c == '+' || c == ' ' || c == '#' || c == '0'

def number (ds : List Char) : Nat :=
  ds.foldl (fun n d => 10 * n + (d.toNat - 48)) 0

/-- A field with its flags, width and precision, in front of its code: the layout, the code, how
many characters stand before the code and what follows it. -/
def field (used : Bool) (s : List Char) :
    Except TemplateError (Layout × Char × Nat × List Char) := do
  if s.head? = some '(' then throw .needsNamedValues
  let flags := s.takeWhile isFlag
  let s₁ := s.drop flags.length
  let star := if used then TemplateError.exhausted else .starWantsInteger
  if s₁.head? = some '*' then throw star
  let width := s₁.takeWhile Char.isDigit
  if maxWidth < number width then throw .widthTooBig
  let s₂ := s₁.drop width.length
  let point := s₂.head? = some '.'
  let s₃ := if point then s₂.drop 1 else s₂
  if point ∧ s₃.head? = some '*' then throw star
  let digits := if point then s₃.takeWhile Char.isDigit else []
  if maxWidth < number digits then throw .precisionTooBig
  let s₄ := s₃.drop digits.length
  let s₅ := match s₄ with
    | 'h' :: r => r
    | 'l' :: r => r
    | 'L' :: r => r
    | r => r
  match s₅ with
  | [] => throw .incomplete
  | c :: r =>
    return (⟨flags.contains '-', number width, if point then some (number digits) else none⟩, c,
      s.length - s₅.length, r)

/-- The quoted text with all but ASCII escaped. -/
def asciiQuoted (s : Text) : List Letter :=
  (quoted s).toList.flatMap fun c =>
    if c.toNat < 128 then [c]
    else if c.toNat < 0x100 then '\\' :: 'x' :: letters (hex 2 c.toNat)
    else if c.toNat < 0x10000 then '\\' :: 'u' :: letters (hex 4 c.toNat)
    else '\\' :: 'U' :: letters (hex 8 c.toNat)

def convert (text : Text) (code : Char) (index : Nat) : Except TemplateError (List Letter) :=
  match code with
  | 's' => .ok text.toList
  | 'r' => .ok (quoted text).toList
  | 'a' => .ok (asciiQuoted text)
  | 'c' => if text.length = 1 then .ok text.toList else .error .needsCharacter
  | 'd' | 'i' | 'u' => .error (.needsNumber code)
  | 'o' | 'x' | 'X' => .error (.needsInteger code)
  | 'e' | 'E' | 'f' | 'F' | 'g' | 'G' => .error .needsReal
  | _ => .error (.unknownCode code index)

/-- Fill the rest of a template, which starts at `index`; `used` tells that the gap is behind.
`fuel` bounds the number of characters. -/
def fillFrom (text : Text) : Nat → Nat → Bool → List Char → Except TemplateError (List Letter)
  | 0, _, used, _ => if used then .ok [] else .error .unused
  | _, _, used, [] => if used then .ok [] else .error .unused
  | fuel + 1, index, used, c :: r =>
    if c = '%' then
      match r with
      | '%' :: rest => (fillFrom text fuel (index + 2) used rest).map ('%' :: ·)
      | _ => do
        let (layout, code, skipped, rest) ← field used r
        if used then throw .exhausted
        let s ← convert text code (index + skipped + 1)
        let layout := if code = 'c' then { layout with precision := none } else layout
        let more ← fillFrom text fuel (index + skipped + 2) true rest
        return layout.apply s ++ more
    else (fillFrom text fuel (index + 1) used r).map (c :: ·)

def fill (template : String) (text : Text) : Except TemplateError Text :=
  (fillFrom text template.length 0 false template.toList).map Text.ofList

end Template
end Paging.Text
