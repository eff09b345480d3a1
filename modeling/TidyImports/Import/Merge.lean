import TidyImports.Import.Order

/-! Organizing the imports of a group. Frozen imports stay in place and divide the group into
segments; a segment is sorted, imports of one module are merged as far as one declaration can say
what they say, and named bindings are sorted within each import. -/
namespace TidyImports.Import

def mixesForms (a b : Item) : Bool :=
  (a.defaultName.isSome && !b.named.isEmpty) || (b.defaultName.isSome && !a.named.isEmpty)

/-- Whether one declaration can say what two say. -/
def Item.canMerge (a b : Item) : Bool :=
  !a.frozen && !b.frozen && a.module == b.module && a.isType == b.isType &&
  a.namespaceName.isNone && b.namespaceName.isNone &&
  a.attributes.isNone && b.attributes.isNone &&
  !(a.defaultName.isSome && b.defaultName.isSome) &&
  !(a.isType && mixesForms a b)

def addBinding (binding : NamedBinding) : List NamedBinding → List NamedBinding
  | [] => [binding]
  | other :: rest =>
    if other.same binding then
      { other with
        leading := other.leading ++ binding.leading
        trailing := other.trailing ++ binding.trailing } :: rest
    else other :: addBinding binding rest

def Item.merge (a b : Item) : Item :=
  { a with
    defaultName := a.defaultName.or b.defaultName
    named := b.named.foldl (fun named binding => addBinding binding named) a.named
    semicolon := a.semicolon || b.semicolon
    modified := true }

/-- Merges neighbours from left to right; `current` takes in what follows as long as it can. -/
def mergeFrom (current : Item) : List Item → List Item
  | [] => [current]
  | next :: rest =>
    if current.canMerge next then mergeFrom (current.merge next) rest
    else current :: mergeFrom next rest

def mergeNeighbours : List Item → List Item
  | [] => []
  | first :: rest => mergeFrom first rest

/-- Sorts the named bindings of an import; the import counts as modified if that changes a text. -/
def Item.sortNamed (order : TypeOrder) (i : Item) : Item :=
  let sorted := sortBindings order i.named
  let moved := sorted.map NamedBinding.text != i.named.map NamedBinding.text
  { i with named := sorted, modified := i.modified || moved }

/-- The imports of a segment in their final form. -/
def organizeSegment (order : TypeOrder) (imports : List Item) : List Item :=
  (mergeNeighbours (sortImports imports)).map (Item.sortNamed order)

/-- The segments of a group from left to right; `segment` holds what the current one has so far. -/
def organizeFrom (order : TypeOrder) (segment : List Item) : List Item → List Item
  | [] => organizeSegment order segment
  | next :: rest =>
    if next.frozen && next.isEmpty then
      organizeSegment order segment ++ next :: organizeFrom order [] rest
    else organizeFrom order (segment ++ [next]) rest

/-- The imports of a group in their final form. -/
def organizeGroup (order : TypeOrder) (imports : List Item) : List Item :=
  organizeFrom order [] imports

end TidyImports.Import
