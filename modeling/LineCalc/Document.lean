import LineCalc.Value

namespace LineCalc

/-- What stands at a leaf or as a key. Values that only an explicit tag gives, such as bytes, are left out. -/
inductive Scalar
  | null
  | bool (b : Bool)
  | number (n : Number)
  | text (s : String)
  /-- A day, by its text. -/
  | date (day : String)
  deriving DecidableEq

/-- Nested data. The keys of a mapping stand in the order of their first mention. -/
inductive Document
  | scalar (s : Scalar)
  | list (items : List Document)
  | map (entries : List (Scalar × Document))

namespace Document

def null : Document := scalar .null

instance : Inhabited Document := ⟨null⟩

def text (s : String) : Document := scalar (.text s)

def isVoid : Document → Bool
  | scalar .null => true
  | scalar (.bool b) => !b
  | scalar (.number n) => n.compare? (.int 0) = some .eq
  | scalar (.text s) => s.isEmpty
  | scalar (.date _) => false
  | list items => items.isEmpty
  | map entries => entries.isEmpty

def insert (key : Scalar) (value : Document) :
    List (Scalar × Document) → List (Scalar × Document)
  | [] => [(key, value)]
  | (k, v) :: rest => if k = key then (k, value) :: rest else (k, v) :: insert key value rest

def get? (key : String) : List (Scalar × Document) → Option Document
  | [] => none
  | (k, v) :: rest => if k = .text key then some v else get? key rest

end Document

inductive ReadError
  | malformed
  | fault (fault : Fault)
  deriving DecidableEq, Repr

end LineCalc
