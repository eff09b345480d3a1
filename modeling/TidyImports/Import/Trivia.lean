import TidyImports.Text.Characters

/-! What stands between the specifiers of an import: commas, line breaks, comments and blanks. The
scanner stops at the first character that is none of these, and before a comment that is not
closed. -/
namespace TidyImports.Import

inductive Trivia
  | comma
  | newline
  | comment (text : Text)
  deriving DecidableEq, Repr

def blockComment? (t : Text) : Option (Text × Text) :=
  (Text.breakOn? ['*', '/'] t).map fun (body, rest) => (['/', '*'] ++ body ++ ['*', '/'], rest)

/-- One step of the scanner: what it finds, if that is worth noting, and the rest; nothing where it
stops. -/
def triviaStep : Text → Option (Option Trivia × Text)
  | [] => none
  | ',' :: t => some (some .comma, t)
  | '\n' :: t => some (some .newline, t)
  | '/' :: '/' :: t =>
    some (some (.comment (Text.trimEnd ('/' :: '/' :: t.takeWhile (· != '\n')))),
      t.dropWhile (· != '\n'))
  | '/' :: '*' :: t =>
    (blockComment? t).map fun (comment, rest) => (some (.comment comment), rest)
  | c :: t => if Text.isBlank c then some (none, t) else none

def triviaFrom : Nat → Text → List Trivia × Text
  | 0, t => ([], t)
  | bound + 1, t =>
    match triviaStep t with
    | none => ([], t)
    | some (found, rest) =>
      let (more, rest) := triviaFrom bound rest
      (found.toList ++ more, rest)

def scanTrivia (t : Text) : List Trivia × Text := triviaFrom t.length t

end TidyImports.Import
