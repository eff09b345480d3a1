import TidyImports.Edit.Span
import TidyImports.Import.Trivia

/-! Comments between the braces of an import belong to its specifiers: a comment on the line of the
specifier before it belongs to that one, any other to the next one. A declaration with a comment
that cannot be given to a specifier in this way has none to give away. -/
namespace TidyImports.Import

structure SpecifierComments where
  leading : List Text
  trailing : List Text
  deriving DecidableEq, Repr

/-- How the comments of a gap are divided between the specifiers around it, and whether there was a
comma. -/
structure GapComments where
  trailing : List Text
  leading : List Text
  hasComma : Bool

/-- Divides the comments of a gap: the line of the specifier before it ends with the first line break
behind the comma. A second comma is refused. -/
def divideGap (seenComma nextLine : Bool) : List Trivia → Option GapComments
  | [] => some ⟨[], [], seenComma⟩
  | .comma :: rest => if seenComma then none else divideGap true nextLine rest
  | .newline :: rest => divideGap seenComma (nextLine || seenComma) rest
  | .comment text :: rest =>
    (divideGap seenComma nextLine rest).map fun gap =>
      if nextLine then { gap with leading := text :: gap.leading }
      else { gap with trailing := text :: gap.trailing }

/-- The comments before the first specifier, which stand behind the last opening brace. -/
def headComments? (head : Text) : Option (List Text) :=
  match Text.breakOn? ['\x7b'] head.reverse with
  | none => none
  | some (inside, _) =>
    let (trivia, rest) := scanTrivia inside.reverse
    if rest.isEmpty && !trivia.contains .comma then
      some (trivia.filterMap fun
        | .comment text => some text
        | _ => none)
    else none

/-- The comments of the specifiers at given spans of a declaration that ends at `stop`; `leading`
are those before the first one. -/
def commentsFrom (text : Text) (stop : Nat) (leading : List Text) :
    List Edit.Span → Option (List SpecifierComments)
  | [] => some []
  | [last] =>
    let (trivia, rest) := scanTrivia (text.slice last.stop stop)
    match divideGap false false trivia with
    | none => none
    | some gap =>
      if rest.startsWith ['\x7d'] && gap.leading.isEmpty then some [⟨leading, gap.trailing⟩]
      else none
  | span :: next :: more =>
    let (trivia, rest) := scanTrivia (text.slice span.stop next.start)
    match divideGap false false trivia with
    | none => none
    | some gap =>
      if rest.isEmpty && gap.hasComma then
        (commentsFrom text stop gap.leading (next :: more)).map
          (⟨leading, gap.trailing⟩ :: ·)
      else none

def looseComments (declaration : Edit.Span) (named comments : List Edit.Span) : Nat :=
  comments.countP fun comment =>
    comment.within declaration && !named.any fun span => comment.within span

def placed (attached : List SpecifierComments) : Nat :=
  attached.foldl (fun n comments => n + comments.leading.length + comments.trailing.length) 0

/-- The comments of each named specifier of a declaration, if all comments can be given away. -/
def attachedComments? (text : Text) (declaration : Edit.Span) (named comments : List Edit.Span) :
    Option (List SpecifierComments) :=
  let expected := looseComments declaration named comments
  if expected = 0 then some (named.map fun _ => ⟨[], []⟩)
  else
    match named with
    | [] => none
    | first :: _ =>
      match headComments? (text.slice declaration.start first.start) with
      | none => none
      | some leading =>
        match commentsFrom text declaration.stop leading named with
        | none => none
        | some attached => if placed attached = expected then some attached else none

end TidyImports.Import
