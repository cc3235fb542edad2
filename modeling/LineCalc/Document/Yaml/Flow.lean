import LineCalc.Document.Yaml.Scalar

namespace LineCalc.Yaml

inductive Node
  | scalar (entry : Entry)
  | list (items : List Node)
  | map (entries : List (Entry × Node))

namespace Node

def null : Node := scalar (.ok .null)

-- Entries of two texts side by side, those of the same depth together.
def levelwise : List (List Entry) → List (List Entry) → List (List Entry)
  | [], second => second
  | first, [] => first
  | level :: first, other :: second => (level ++ other) :: levelwise first second

mutual

def levels : Node → List (List Entry)
  | scalar entry => [[entry]]
  | list items => [] :: itemLevels items
  | map entries => [] :: entryLevels entries

def itemLevels : List Node → List (List Entry)
  | [] => []
  | item :: rest => levelwise item.levels (itemLevels rest)

def entryLevels : List (Entry × Node) → List (List Entry)
  | [] => []
  | (key, value) :: rest => levelwise (levelwise [[key]] value.levels) (entryLevels rest)

end

def errorOf? : Entry → Option ReadError
  | .error error => some error
  | .ok _ => none

mutual

def document : Node → Except ReadError Document
  | scalar entry => entry.map .scalar
  | list items => (documents items).map .list
  | map entries => (documentEntries [] entries).map .map

def documents : List Node → Except ReadError (List Document)
  | [] => .ok []
  | item :: rest => do return (← item.document) :: (← documents rest)

def documentEntries (before : List (Scalar × Document)) :
    List (Entry × Node) → Except ReadError (List (Scalar × Document))
  | [] => .ok before
  | (key, value) :: rest => do
    documentEntries (Document.insert (← key) (← value.document) before) rest

end

/-- The document of a node. Collections are filled level by level, so that the scalar to blame is the first
one of the least depth. -/
def construct (node : Node) : Except ReadError Document :=
  node.document.mapError fun error => (node.levels.flatten.findSome? errorOf?).getD error

end Node

mutual

def flow? : (fuel : Nat) → List Char → Option (Node × List Char)
  | 0, _ => none
  | fuel + 1, cs =>
    match skipSpaces cs with
    | '[' :: rest => (flowItems? fuel rest).map fun (items, rest) => (.list items, rest)
    | '{' :: rest => (flowEntries? fuel rest).map fun (entries, rest) => (.map entries, rest)
    | rest => (scalar? true rest).map fun (s, rest) => (.scalar s, rest)

def flowItems? : (fuel : Nat) → List Char → Option (List Node × List Char)
  | 0, _ => none
  | fuel + 1, cs =>
    match skipSpaces cs with
    | ']' :: rest => some ([], rest)
    | cs => do
      let (item, rest) ← flow? fuel cs
      match skipSpaces rest with
      | ']' :: rest => some ([item], rest)
      | ',' :: rest =>
        let (items, rest) ← flowItems? fuel rest
        some (item :: items, rest)
      | _ => none

def flowEntries? : (fuel : Nat) → List Char → Option (List (Entry × Node) × List Char)
  | 0, _ => none
  | fuel + 1, cs =>
    match skipSpaces cs with
    | '}' :: rest => some ([], rest)
    | cs => do
      let (key, rest) ← scalar? true cs
      let (value, rest) ← match skipSpaces rest with
        | ':' :: rest =>
          match skipSpaces rest with
          | ',' :: _ => some (Node.null, rest)
          | '}' :: _ => some (Node.null, rest)
          | _ => flow? fuel rest
        | _ => some (Node.null, rest)
      match skipSpaces rest with
      | '}' :: rest => some ([(key, value)], rest)
      | ',' :: rest =>
        let (entries, rest) ← flowEntries? fuel rest
        some ((key, value) :: entries, rest)
      | _ => none

end

end LineCalc.Yaml
