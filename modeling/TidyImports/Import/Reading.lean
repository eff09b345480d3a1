import TidyImports.Import.Basic
import TidyImports.Import.Comments

/-! Reading imports from the declarations of a script. Bindings that are not used are left out, and a
declaration that loses all of them is no import any more. Declarations that bind nothing, that have
a phase or that hold comments without an owner are frozen. -/
namespace TidyImports.Import

open Script

def spanText (text : Text) (span : Edit.Span) : Text := text.slice span.start span.stop

def namedSpan? : ImportSpecifier → Option Edit.Span
  | .named _ _ _ span => some span
  | _ => none

def Item.bare (text : Text) (d : ImportDeclaration) : Item :=
  let written := spanText text d.span
  { written := written
    module := d.source.value
    source := spanText text d.source.span
    attributes := d.attributes.map (spanText text)
    isType := d.isType
    defaultName := none
    namespaceName := none
    named := []
    frozen := d.hasPhase
    semicolon := written.trimEnd.endsWith [';']
    modified := false }

def usedBindings (text : Text) (isUsed : Text → Bool) :
    List ImportSpecifier → List SpecifierComments → List NamedBinding
  | [], _ => []
  | .named imported name isType span :: rest, comments =>
    let own := (comments.head?).getD ⟨[], []⟩
    let more := usedBindings text isUsed rest comments.tail
    if isUsed name then
      ⟨spanText text span, imported, name, isType, own.leading, own.trailing⟩ :: more
    else more
  | _ :: rest, comments => usedBindings text isUsed rest comments

def usedDefault (text : Text) (isUsed : Text → Bool) (specifiers : List ImportSpecifier) :
    Option Text :=
  specifiers.findSome? fun
    | .defaultName name span => if isUsed name then some (spanText text span) else none
    | _ => none

def usedNamespace (text : Text) (isUsed : Text → Bool) (specifiers : List ImportSpecifier) :
    Option Text :=
  specifiers.findSome? fun
    | .namespaceName name span => if isUsed name then some (spanText text span) else none
    | _ => none

/-- The import of a declaration; nothing if it binds names and none of them is used. -/
def Item.ofDeclaration? (text : Text) (comments : List Edit.Span) (isUsed : Text → Bool)
    (d : ImportDeclaration) : Option Item :=
  let bare := Item.bare text d
  if d.specifiers.isEmpty || d.hasPhase then some { bare with frozen := true }
  else
    match attachedComments? text d.span (d.specifiers.filterMap namedSpan?) comments with
    | none => some { bare with frozen := true }
    | some attached =>
      let whole : Item :=
        { bare with
          defaultName := usedDefault text isUsed d.specifiers
          namespaceName := usedNamespace text isUsed d.specifiers
          named := usedBindings text isUsed d.specifiers attached
          modified := d.specifiers.any fun specifier => !isUsed specifier.name }
      if whole.isEmpty then none else some whole

end TidyImports.Import
