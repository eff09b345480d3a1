import TidyImports.Edit.Span
import TidyImports.Script.Outline

/-! What is kept of a parsed script: its statements at the outermost level, its comments and what
its outline leaves over. Only statements that name another module are kept in detail; spans say
where everything stands in the text. -/
namespace TidyImports.Script

/-- A string literal that names a module: what it stands for, and where it is with its quotes. -/
structure SourceLiteral where
  value : Text
  span : Edit.Span
  deriving DecidableEq, Repr

def SourceLiteral.shift (delta : Nat) (literal : SourceLiteral) : SourceLiteral :=
  ⟨literal.value, literal.span.shift delta⟩

inductive ImportSpecifier
  | defaultName (name : Text) (span : Edit.Span)
  | namespaceName (name : Text) (span : Edit.Span)
  | named (imported name : Text) (isType : Bool) (span : Edit.Span)
  deriving DecidableEq, Repr

def ImportSpecifier.name : ImportSpecifier → Text
  | .defaultName name _ => name
  | .namespaceName name _ => name
  | .named _ name _ _ => name

def ImportSpecifier.shift (delta : Nat) : ImportSpecifier → ImportSpecifier
  | .defaultName name span => .defaultName name (span.shift delta)
  | .namespaceName name span => .namespaceName name (span.shift delta)
  | .named imported name isType span => .named imported name isType (span.shift delta)

/-- An import declaration. A declaration with a phase asks for another way to load the module. -/
structure ImportDeclaration where
  span : Edit.Span
  source : SourceLiteral
  attributes : Option Edit.Span
  isType : Bool
  hasPhase : Bool
  specifiers : List ImportSpecifier
  deriving DecidableEq, Repr

def ImportDeclaration.shift (delta : Nat) (d : ImportDeclaration) : ImportDeclaration :=
  { d with
    span := d.span.shift delta
    source := d.source.shift delta
    attributes := d.attributes.map (Edit.Span.shift delta)
    specifiers := d.specifiers.map (ImportSpecifier.shift delta) }

inductive StatementKind
  | importing (declaration : ImportDeclaration)
  | sourced (source : SourceLiteral)
  | other
  deriving DecidableEq, Repr

def StatementKind.source? : StatementKind → Option SourceLiteral
  | .importing declaration => some declaration.source
  | .sourced source => some source
  | .other => none

def StatementKind.shift (delta : Nat) : StatementKind → StatementKind
  | .importing declaration => .importing (declaration.shift delta)
  | .sourced source => .sourced (source.shift delta)
  | .other => .other

structure Statement where
  span : Edit.Span
  kind : StatementKind
  deriving DecidableEq, Repr

def Statement.shift (delta : Nat) (s : Statement) : Statement :=
  ⟨s.span.shift delta, s.kind.shift delta⟩

structure Program where
  statements : List Statement
  comments : List Edit.Span
  names : Leftover

end TidyImports.Script
