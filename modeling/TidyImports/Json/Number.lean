import TidyImports.Json.Value

/-! What a number literal means to a reader of options: a natural number that fits in a machine
word, or a number that is at least finite as a double. -/
namespace TidyImports.Json

def digitsValue (t : Text) : Nat := t.foldl (fun n c => n * 10 + (c.toNat - '0'.toNat)) 0

def wordValue? (spelling : Text) : Option Nat :=
  if !spelling.isEmpty && spelling.all Char.isDigit then
    let n := digitsValue spelling
    if n < Nat.pow 2 64 then some n else none
  else none

def doubleLimit : Nat := Nat.pow 2 1024 - Nat.pow 2 970

/-- Whether a literal is finite as a double. The exponent is compared first, so that no huge power
is computed. -/
def isFiniteDouble (spelling : Text) : Bool :=
  let body := spelling.dropWhile (· == '-')
  let mantissa := body.takeWhile fun c => c != 'e' && c != 'E'
  let exponent := (body.dropWhile fun c => c != 'e' && c != 'E').drop 1
  let whole := mantissa.takeWhile (· != '.')
  let fraction := (mantissa.dropWhile (· != '.')).drop 1
  let digits := digitsValue (whole ++ fraction)
  let power := digitsValue (exponent.filter Char.isDigit)
  if digits == 0 then true
  else if exponent.head? == some '-' then
    if whole.length ≤ 308 + power then true
    else digits < doubleLimit * Nat.pow 10 (fraction.length + power)
  else if power > 400 + fraction.length then false
  else digits * Nat.pow 10 power < doubleLimit * Nat.pow 10 fraction.length

end TidyImports.Json
