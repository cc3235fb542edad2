import LineCalc.Document.Yaml.Flow

/-! Reading documents from YAML.

The part of YAML that settings files are written in: block mappings and block lists, nested by
indentation; flow collections on one line; plain and quoted scalars; comments; one document, which
may start with `---`. Anchors, tags, merges, several documents and keys that are collections count as
malformed. Functions that read give `none` for a text that is malformed. -/

namespace LineCalc.Yaml

structure Line where
  indent : Nat
  text : List Char
  deriving DecidableEq, Repr

def key? (cs : List Char) : Option (Entry × List Char) :=
  if cs.head?.any fun c => c = '[' || c = '{' then none
  else do
    let (key, rest) ← scalar? false cs
    match skipSpaces rest with
    | ':' :: rest => if endsKey false rest then some (key, rest) else none
    | _ => none

def continuation? (line : Line) : Option (List Char) :=
  let (text, rest) := plain false line.text
  if endsHere rest then some (trimSpaces text) else none

def inline? (cs : List Char) (more : List Line) : Option Node :=
  if cs.head?.any fun c => c = '[' || c = '{' then do
    let (node, rest) ← flow? (cs.length + 1) cs
    if endsHere rest && more.isEmpty then some node else none
  else if cs.head?.any isQuote then do
    let (text, rest) ← quoted? cs
    if endsHere rest && more.isEmpty then some (.scalar (.ok (.text (String.ofList text)))) else none
  else do
    let (text, rest) ← plain? false cs
    let texts ← more.mapM continuation?
    let joined := texts.foldl (fun joined text => joined ++ ' ' :: text) text
    if endsHere rest then some (.scalar (resolve joined)) else none

def isItem (line : Line) : Bool :=
  match line.text with
  | ['-'] => true
  | '-' :: ' ' :: _ => true
  | _ => false

mutual

def block? : (fuel : Nat) → List Line → Option (Node × List Line)
  | 0, _ => none
  | _ + 1, [] => some (.null, [])
  | fuel + 1, line :: rest =>
    if isItem line then
      (items? fuel line.indent (line :: rest)).map fun (items, rest) => (.list items, rest)
    else if (key? line.text).isSome then
      (entries? fuel line.indent (line :: rest)).map fun (entries, rest) => (.map entries, rest)
    else do
      let (more, rest) := rest.span fun next => line.indent ≤ next.indent
      let node ← inline? line.text more
      some (node, rest)

def items? : (fuel indent : Nat) → List Line → Option (List Node × List Line)
  | 0, _, _ => none
  | _ + 1, _, [] => some ([], [])
  | fuel + 1, indent, line :: rest =>
    if line.indent < indent || line.indent = indent && !isItem line then some ([], line :: rest)
    else if line.indent = indent then do
      let tail := line.text.drop 1
      let (item, rest) ←
        if endsHere tail then
          match rest with
          | next :: _ => if indent < next.indent then block? fuel rest else some (.null, rest)
          | [] => some (.null, [])
        else
          let text := skipSpaces tail
          block? fuel (⟨indent + 1 + (tail.length - text.length), text⟩ :: rest)
      let (items, rest) ← items? fuel indent rest
      some (item :: items, rest)
    else none

def entries? : (fuel indent : Nat) → List Line → Option (List (Entry × Node) × List Line)
  | 0, _, _ => none
  | _ + 1, _, [] => some ([], [])
  | fuel + 1, indent, line :: rest =>
    if line.indent < indent then some ([], line :: rest)
    else if line.indent = indent then do
      let (key, tail) ← key? line.text
      let (value, rest) ←
        if endsHere tail then
          match rest with
          | next :: _ =>
            if indent < next.indent || indent = next.indent && isItem next then block? fuel rest
            else some (.null, rest)
          | [] => some (.null, [])
        else do
          let (more, rest) := rest.span fun next => indent < next.indent
          let node ← inline? (skipSpaces tail) more
          some (node, rest)
      let (entries, rest) ← entries? fuel indent rest
      some ((key, value) :: entries, rest)
    else none

end

def isLineEnd (c : Char) : Bool :=
  c = '\n' || c = '\r' || [0x85, 0x2028, 0x2029].contains c.toNat

def isAllowed (c : Char) : Bool :=
  [0x09, 0x0A, 0x0D, 0x85].contains c.toNat || 0x20 ≤ c.toNat && c.toNat < 0x7F
    || 0xA0 ≤ c.toNat && c.toNat ≤ 0xFFFD || 0x10000 ≤ c.toNat

def cutLines : List Char → List (List Char)
  | [] => [[]]
  | '\r' :: '\n' :: rest => [] :: cutLines rest
  | c :: rest =>
    if isLineEnd c then [] :: cutLines rest
    else
      match cutLines rest with
      | [] => [[c]]
      | line :: lines => (c :: line) :: lines

def line? (cs : List Char) : Option Line :=
  let text := skipSpaces cs
  match text with
  | [] => none
  | '#' :: _ => none
  | _ => some ⟨cs.length - text.length, text⟩

def hasMark (mark : List Char) (line : Line) : Bool :=
  line.indent = 0 && line.text.take 3 = mark && (line.text.drop 3).head?.all (· = ' ')

def isStart (line : Line) : Bool := hasMark ['-', '-', '-'] line

def isEnd (line : Line) : Bool := hasMark ['.', '.', '.'] line

def whole? (lines : List Line) : Option Node :=
  let fuel := 2 * lines.foldl (fun size line => size + line.text.length + 1) 0 + 2
  match block? fuel lines with
  | some (node, []) => some node
  | _ => none

/-- The node of some lines, the first of which may start it. Behind that mark there is no room for a
mapping or a list, other than between brackets. -/
def marked? (lines : List Line) : Option Node :=
  match lines with
  | [] => whole? []
  | first :: rest =>
    if rest.any isStart then none
    else if isStart first then
      let text := skipSpaces (first.text.drop 3)
      if endsHere text then whole? rest
      else if isItem ⟨4, text⟩ || (key? text).isSome then none
      else inline? text rest
    else whole? lines

def parse? (text : String) : Option Node :=
  let cs := if text.startsWith "\ufeff" then text.toList.drop 1 else text.toList
  if cs.all isAllowed then
    let (lines, rest) := ((cutLines cs).filterMap line?).span fun line => !isEnd line
    match rest with
    | [] => marked? lines
    | [last] => if endsHere (last.text.drop 3) then marked? lines else none
    | _ => none
  else none

/-- The one document of a text. Scalars are told what they stand for only when all of the text is read. -/
def read (text : String) : Except ReadError Document :=
  match parse? text with
  | none => .error .malformed
  | some node => node.construct

end LineCalc.Yaml
