import TidyImports.Script.Module

/-! Imports as the organizer sees them: the parts of an import declaration as they are written, the
comments that belong to its bindings, and what may be done with it. A frozen import stays as it is
written and where it stands. -/
namespace TidyImports.Import

/-- A named binding: its specifier as written, its names, and the comments before and behind it. -/
structure NamedBinding where
  text : Text
  imported : Text
  name : Text
  isType : Bool
  leading : List Text
  trailing : List Text
  deriving DecidableEq, Repr

def NamedBinding.same (a b : NamedBinding) : Bool :=
  a.imported == b.imported && a.name == b.name && a.isType == b.isType

structure Item where
  written : Text
  module : Text
  source : Text
  attributes : Option Text
  isType : Bool
  defaultName : Option Text
  namespaceName : Option Text
  named : List NamedBinding
  frozen : Bool
  semicolon : Bool
  modified : Bool
  deriving DecidableEq, Repr

def Item.isEmpty (i : Item) : Bool :=
  i.defaultName.isNone && i.namespaceName.isNone && i.named.isEmpty

end TidyImports.Import
