import TidyImports.Edit.Span

/-! A patch is a list of changes to one text. It is accepted when every change lies inside the text,
cuts no character and conflicts with no other; an accepted patch is applied in one pass from left
to right. -/
namespace TidyImports.Edit

inductive PatchError
  | outOfBounds (start stop length : Nat)
  | insideCharacter (start stop : Nat)
  | overlapping (first second : Span)
  deriving DecidableEq, Repr

def showBounds (start stop : Nat) : String :=
  "[" ++ toString start ++ ", " ++ toString stop ++ ")"

def PatchError.message : PatchError → String
  | .outOfBounds start stop length =>
    "text change " ++ showBounds start stop ++ " is out of bounds for text of length " ++
      toString length
  | .insideCharacter start stop =>
    "text change " ++ showBounds start stop ++ " does not fall on a character boundary"
  | .overlapping first second =>
    "overlapping text changes: " ++ showBounds first.start first.stop ++ " and " ++
      showBounds second.start second.stop

/-- A change lies inside the text and cuts no character. -/
def fits (text : Text) (c : Change) : Except PatchError Unit :=
  if text.width < c.stop then .error (.outOfBounds c.start c.stop text.width)
  else if text.isBoundary c.start && text.isBoundary c.stop then .ok ()
  else .error (.insideCharacter c.start c.stop)

def allFit (text : Text) : List Change → Except PatchError Unit
  | [] => .ok ()
  | c :: cs =>
    match fits text c with
    | .ok _ => allFit text cs
    | .error e => .error e

/-- Order by start, then by end: an insertion comes before a replacement that starts with it. -/
def precedes (a b : Change) : Bool :=
  a.start < b.start || (a.start == b.start && a.stop ≤ b.stop)

def inOrder (changes : List Change) : List Change := changes.mergeSort precedes

/-- No two neighbours conflict. -/
def disjoint : List Change → Except PatchError Unit
  | [] => .ok ()
  | [_] => .ok ()
  | a :: b :: cs =>
    if a.span.overlaps b.span then .error (.overlapping a.span b.span) else disjoint (b :: cs)

/-- The changes in order, if they form a patch of the text. -/
def validate (text : Text) (changes : List Change) : Except PatchError (List Change) :=
  match allFit text changes with
  | .error e => .error e
  | .ok _ =>
    match disjoint (inOrder changes) with
    | .error e => .error e
    | .ok _ => .ok (inOrder changes)

/-- Applies ordered changes to the text that starts at `offset`. -/
def splice (offset : Nat) (text : Text) : List Change → Text
  | [] => text
  | c :: cs =>
    text.upto (c.start - offset) ++ c.text ++ splice c.stop (text.after (c.stop - offset)) cs

def apply (text : Text) (changes : List Change) : Except PatchError Text :=
  match validate text changes with
  | .error e => .error e
  | .ok ordered => .ok (splice 0 text ordered)

end TidyImports.Edit
