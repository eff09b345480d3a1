import TidyImports.Import.Basic
import TidyImports.Text.Lowercase

/-! The order of imports and of their named bindings. Names are compared in lower case first and as
they are second; where types go among the bindings is a choice. -/
namespace TidyImports.Import

inductive TypeOrder
  | last
  | first
  | inline
  deriving DecidableEq, Repr

def TypeOrder.label : TypeOrder → String
  | .last => "last"
  | .first => "first"
  | .inline => "inline"

def compareText : Text → Text → Ordering
  | [], [] => .eq
  | [], _ :: _ => .lt
  | _ :: _, [] => .gt
  | a :: s, b :: t => (compare a.toNat b.toNat).then (compareText s t)

/-- Texts in lower case, and texts that differ in case alone as they are. -/
def compareFolded (a b : Text) : Ordering :=
  (compareText a.lower b.lower).then (compareText a b)

def compareFlag (a b : Bool) : Ordering := compare a.toNat b.toNat

def compareModules (a b : Text) : Ordering := compareFolded a b

def sortModules (modules : List Text) : List Text :=
  modules.mergeSort fun a b => (compareModules a b).isLE

def compareImports (a b : Item) : Ordering :=
  (compareModules a.module b.module).then (compareFlag a.isType b.isType)

def compareTypes (order : TypeOrder) (a b : Bool) : Ordering :=
  match order with
  | .last => compareFlag a b
  | .first => compareFlag b a
  | .inline => .eq

def compareBindings (order : TypeOrder) (a b : NamedBinding) : Ordering :=
  ((compareTypes order a.isType b.isType).then (compareFolded a.imported b.imported)).then
    (compareFolded a.name b.name)

def sortImports (imports : List Item) : List Item :=
  imports.mergeSort fun a b => (compareImports a b).isLE

def sortBindings (order : TypeOrder) (bindings : List NamedBinding) : List NamedBinding :=
  bindings.mergeSort fun a b => (compareBindings order a b).isLE

end TidyImports.Import
