import TidyImports.Path

/-! Files by path, with a current directory. Paths are kept in their clean form; writing a file makes
the directories above it, and they stay when the file is removed. -/
namespace TidyImports

structure FileTree where
  cwd : Text
  files : List (Text × Text)
  directories : List Text

namespace FileTree

def new (cwd : Text) : FileTree := ⟨Path.clean cwd, [], []⟩

def resolve (tree : FileTree) (path : Text) : Text := Path.resolve tree.cwd [path]

def read? (tree : FileTree) (path : Text) : Option Text := tree.files.lookup path

def hasFile (tree : FileTree) (path : Text) : Bool := (tree.read? path).isSome

def above : Nat → Text → List Text
  | 0, _ => []
  | bound + 1, path =>
    let directory := Path.dirname path
    if directory = path then [] else directory :: above bound directory

def write (tree : FileTree) (path content : Text) : FileTree :=
  let path := tree.resolve path
  { tree with
    files := (path, content) :: tree.files.filter (·.1 != path)
    directories := above path.length path ++ tree.directories }

def remove (tree : FileTree) (path : Text) : FileTree :=
  let path := tree.resolve path
  { tree with files := tree.files.filter (·.1 != path) }

/-- Whether there is a file or a directory at an absolute path. The current directory and those
above it are always there. -/
def hasEntry (tree : FileTree) (path : Text) : Bool :=
  tree.hasFile path || path == tree.cwd || (above tree.cwd.length tree.cwd).contains path ||
  tree.directories.contains path

end FileTree

end TidyImports
