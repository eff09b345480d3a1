import TidyImports.Text.Basic

/-! Paths with forward slashes. A path has a root (a slash, a drive letter with its colon, or
nothing) and segments; cleaning folds empty segments and dots, and climbs with two dots as far as
the root of an absolute path allows. -/
namespace TidyImports.Path

def normalizeSeparators (path : Text) : Text := path.map fun c => if c = '\\' then '/' else c

/-- A drive letter and a colon, with or without a slash, or a leading slash, and what follows. -/
def splitRoot : Text → Text × Text
  | [] => ([], [])
  | [c] => if c = '/' then (['/'], []) else ([], [c])
  | c :: d :: rest =>
    if d = ':' ∧ Text.isAsciiLetter c then
      match rest with
      | '/' :: rest => ([c, ':', '/'], rest)
      | rest => ([c, ':'], rest)
    else if c = '/' then (['/'], d :: rest)
    else ([], c :: d :: rest)

theorem splitRoot_append (path : Text) : (splitRoot path).1 ++ (splitRoot path).2 = path := by
  unfold splitRoot
  split
  · rfl
  · split <;> simp_all
  · next c d rest =>
    split
    · next h =>
      split <;> simp_all
    · split <;> simp_all

def isRooted (path : Text) : Bool := !(splitRoot (normalizeSeparators path)).1.isEmpty

/-- Adds a segment to a stack of segments, the last one on top. Two dots take the top away; at the
bottom they vanish under a root and stay otherwise. -/
def pushSegment (rooted : Bool) (stack : List Text) (segment : Text) : List Text :=
  if segment = [] ∨ segment = ['.'] then stack
  else if segment = ['.', '.'] then
    match stack with
    | [] => if rooted then [] else [segment]
    | top :: below =>
      if top = ['.', '.'] then if rooted then stack else segment :: stack else below
  else segment :: stack

def foldSegments (rooted : Bool) (segments : List Text) : List Text :=
  (segments.foldl (pushSegment rooted) []).reverse

def closeRoot (root : Text) : Text := if root.endsWith ['/'] then root else root ++ ['/']

/-- The clean form: forward slashes only, no empty segment, no dot, no avoidable climb. -/
def clean (path : Text) : Text :=
  let (root, rest) := splitRoot (normalizeSeparators path)
  let folded := Text.glue ['/'] (foldSegments (!root.isEmpty) (rest.pieces '/'))
  if root.isEmpty then folded else closeRoot root ++ folded

def splitLast? (path : Text) : Option (Text × Text) :=
  match path.pieces '/' with
  | [] => none
  | [_] => none
  | p :: ps => some (Text.glue ['/'] ((p :: ps).dropLast), ((p :: ps).getLast?).getD [])

/-- The directory of a file: what stands before the last slash of the clean path, the root when
there is nothing else, and a dot for a bare name. -/
def dirname (path : Text) : Text :=
  let cleaned := clean path
  let root := (splitRoot cleaned).1
  match splitLast? cleaned with
  | none => ['.']
  | some (directory, _) =>
    if root.length < directory.length + 1 then directory else root

def append (base path : Text) : Text :=
  let path := normalizeSeparators path
  if isRooted path then path
  else if base.isEmpty || base.endsWith ['/'] then base ++ path
  else base ++ ['/'] ++ path

/-- Follows the paths one after the other from a base, and cleans the result. -/
def join (base : Text) (paths : List Text) : Text :=
  clean (paths.foldl append (normalizeSeparators base))

def trimSlashes (path : Text) : Text := (path.reverse.dropWhile (· == '/')).reverse

/-- The part of a path below a base directory, matched on whole segments; nothing for the base
itself. -/
def relativeWithin? (base path : Text) : Option Text :=
  let base := trimSlashes base
  if base.isEmpty then Text.stripHead? ['/'] path
  else
    match Text.stripHead? base path with
    | none => none
    | some [] => some []
    | some rest => Text.stripHead? ['/'] rest

def preceded (path resolved : Text) : Text :=
  let path := normalizeSeparators path
  if resolved.isEmpty then path else path ++ ['/'] ++ resolved

/-- Takes paths from the last one back until the result is rooted; the current directory comes
before all of them. -/
def resolveFrom (cwd : Text) : List Text → Text → Text
  | [], resolved => clean (cwd ++ ['/'] ++ resolved)
  | path :: paths, resolved =>
    let resolved := preceded path resolved
    if isRooted resolved then clean resolved else resolveFrom cwd paths resolved

/-- The absolute path that a list of paths leads to. -/
def resolve (cwd : Text) (paths : List Text) : Text := resolveFrom cwd paths.reverse []

end TidyImports.Path
