import TidyImports.Text.Basic

/-! Classes of characters: those given by tables of code point ranges, blanks, and the characters that
fold to letters. A table lists its ranges in ascending order, both ends included, and membership is decided
by bisection. -/
namespace TidyImports.Text

def inRangesBetween (table : Array (Nat × Nat)) (code : Nat) : Nat → Nat → Nat → Bool
  | 0, _, _ => false
  | fuel + 1, low, high =>
    if low ≥ high then false
    else
      match table[(low + high) / 2]? with
      | none => false
      | some (first, last) =>
        if code < first then inRangesBetween table code fuel low ((low + high) / 2)
        else if last < code then inRangesBetween table code fuel ((low + high) / 2 + 1) high
        else true

/-- Whether a character lies in one of the ranges of an ascending table. -/
def inRanges (table : Array (Nat × Nat)) (c : Char) : Bool :=
  inRangesBetween table c.toNat (table.size + 1) 0 table.size

/-- The White_Space property: the tabs and line breaks, the space, and the wider spaces. -/
def isBlank (c : Char) : Bool :=
  let n := c.toNat
  (0x09 ≤ n && n ≤ 0x0D) || n == 0x20 || n == 0x85 || n == 0xA0 || n == 0x1680 ||
  (0x2000 ≤ n && n ≤ 0x200A) || n == 0x2028 || n == 0x2029 || n == 0x202F || n == 0x205F ||
  n == 0x3000

def allBlank (t : Text) : Bool := t.all isBlank

def trimEnd (t : Text) : Text := (t.reverse.dropWhile isBlank).reverse

/-! Comparison with lower-case ASCII letters up to simple case folding. Besides the upper-case
letters two characters outside ASCII fold into the alphabet: the long s into `s` and the Kelvin
sign into `k`. -/

/-- The lower-case ASCII letter a character folds to, or the character itself. -/
def foldLetter (c : Char) : Char :=
  if c = 'ſ' then 's' else if c = 'K' then 'k' else c.toLower

def foldsInto (letters : List Char) (c : Char) : Bool := letters.contains (foldLetter c)

def foldsToLetter (c : Char) : Bool :=
  let d := foldLetter c
  'a' ≤ d && d ≤ 'z'

/-- What follows `head` in a text that starts with it up to case folding; `head` is lower case. -/
def stripFolded? : Text → Text → Option Text
  | [], t => some t
  | _ :: _, [] => none
  | c :: head, d :: t => if c = foldLetter d then stripFolded? head t else none

end TidyImports.Text
