import TidyImports.Text.Basic

/-! The outline of a script is what remains of it for the question which names are used: the
declarations, the uses and the scopes around them, in order. A use looks for a declaration of its
name from the innermost scope outwards and takes the first one that it can denote; declarations of
one name in one scope are one thing with all their meanings. `leftover` computes what leaves a part
of the outline, so the uses left over at the outermost level decide which imports are needed. -/
namespace TidyImports.Script

inductive Sense
  | value
  | type
  /-- The value behind a `typeof` type or a computed key of a type. -/
  | valueInType
  /-- Either of the two, as in an export. -/
  | any
  deriving DecidableEq, Repr

structure Meaning where
  value : Bool
  type : Bool
  valueInType : Bool
  deriving DecidableEq, Repr

namespace Meaning

def valueOnly : Meaning := ⟨true, false, true⟩

def both : Meaning := ⟨true, true, true⟩

def typeOnly : Meaning := ⟨false, true, false⟩

def typeImport : Meaning := ⟨false, true, true⟩

def union (a b : Meaning) : Meaning :=
  ⟨a.value || b.value, a.type || b.type, a.valueInType || b.valueInType⟩

def serves (m : Meaning) : Sense → Bool
  | .value => m.value
  | .type => m.type
  | .valueInType => m.valueInType
  | .any => m.value || m.type

end Meaning

inductive Reach
  /-- The scope it stands in. -/
  | block
  /-- The nearest function, module or static block. -/
  | function
  /-- The nearest conditional type, or else the scope it stands in. -/
  | conditional
  deriving DecidableEq, Repr

/-- The kinds of scopes that differ in what they collect. -/
inductive ScopeKind
  | block
  | function
  | conditional
  deriving DecidableEq, Repr

inductive Outline
  | empty
  | use (name : Text) (sense : Sense)
  | declare (name : Text) (meaning : Meaning) (reach : Reach)
  | both (first second : Outline)
  | scope (kind : ScopeKind) (inner : Outline)
  deriving DecidableEq, Repr

instance : Inhabited Outline := ⟨.empty⟩

def Outline.append : Outline → Outline → Outline
  | .empty, b => b
  | a, .empty => a
  | a, b => .both a b

instance : Append Outline := ⟨Outline.append⟩

abbrev Binding := Text × Meaning

abbrev Use := Text × Sense

/-- What an outline leaves to the scopes around it: declarations for the scope it stands in, for
the function around it and for the conditional type around it, and uses not denoting anything
inside. -/
structure Leftover where
  block : List Binding
  function : List Binding
  conditional : List Binding
  uses : List Use

def meaningOf (name : Text) : List Binding → Option Meaning
  | [] => none
  | (bound, meaning) :: rest =>
    let others := meaningOf name rest
    if bound = name then
      match others with
      | some other => some (meaning.union other)
      | none => some meaning
    else others

def denotes (bindings : List Binding) (use : Use) : Bool :=
  match meaningOf use.1 bindings with
  | some meaning => meaning.serves use.2
  | none => false

def closeScope (kind : ScopeKind) (inner : Leftover) : Leftover :=
  match kind with
  | .block => ⟨[], inner.function, inner.conditional,
      inner.uses.filter fun use => !denotes inner.block use⟩
  | .function => ⟨[], [], inner.conditional,
      inner.uses.filter fun use => !denotes (inner.block ++ inner.function) use⟩
  | .conditional => ⟨[], inner.function, [],
      inner.uses.filter fun use => !denotes (inner.block ++ inner.conditional) use⟩

/-- What an outline leaves over; `inConditional` says whether a conditional type is around it. -/
def Outline.leftover (inConditional : Bool) : Outline → Leftover
  | .empty => ⟨[], [], [], []⟩
  | .use name sense => ⟨[], [], [], [(name, sense)]⟩
  | .declare name meaning reach =>
    match reach with
    | .block => ⟨[(name, meaning)], [], [], []⟩
    | .function => ⟨[], [(name, meaning)], [], []⟩
    | .conditional =>
      if inConditional then ⟨[], [], [(name, meaning)], []⟩ else ⟨[(name, meaning)], [], [], []⟩
  | .both first second =>
    let a := first.leftover inConditional
    let b := second.leftover inConditional
    ⟨a.block ++ b.block, a.function ++ b.function, a.conditional ++ b.conditional, a.uses ++ b.uses⟩
  | .scope kind inner =>
    closeScope kind (inner.leftover (inConditional || kind == .conditional))

def Outline.names (outline : Outline) : Leftover := outline.leftover false

def Leftover.isUsed (whole : Leftover) (name : Text) : Bool :=
  match meaningOf name (whole.block ++ whole.function) with
  | none => false
  | some meaning => whole.uses.any fun use => use.1 == name && meaning.serves use.2

def Outline.insideType : Outline → Outline
  | .use name .value => .use name .valueInType
  | .both first second => .both first.insideType second.insideType
  | outline => outline

end TidyImports.Script
