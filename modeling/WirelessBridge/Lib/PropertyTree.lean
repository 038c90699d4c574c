import WirelessBridge.Lib.Text

/-!
# Property trees

A tree of named children with a text at every node, as `boost::property_tree` keeps what it reads
from a JSON file. Typed access goes through a string stream: the whole text of the node has to be
used up, blanks at either end aside.
-/

namespace Lib

inductive PTree where
  | node (data : Str) (children : List (Str × PTree))

namespace PTree

def data : PTree → Str
  | .node s _ => s

def children : PTree → List (Str × PTree)
  | .node _ cs => cs

/-- `get_child`: the first child of that name. -/
def getChild (key : Str) (t : PTree) : Option PTree :=
  (t.children.find? (·.1 = key)).map (·.2)

def getStr (key : Str) (t : PTree) : Option Str :=
  (t.getChild key).map data

/-- What a stream translator asks of a value it has read: nothing but blanks after it. -/
def atEnd {α : Type*} : α × Str → Option α
  | (a, rest) => if rest.dropWhile isSpace = [] then some a else none

def getUInt32 (key : Str) (t : PTree) : Option UInt32 :=
  (t.getChild key).bind fun c => ((readUnsigned 32 c.data).bind atEnd).map (·.toUInt32)

def getUInt16 (key : Str) (t : PTree) : Option UInt16 :=
  (t.getChild key).bind fun c => ((readUnsigned 16 c.data).bind atEnd).map (·.toUInt16)

/-- `std::istream >> b` with `boolalpha` set. -/
def readBoolName (s : Str) : Option (Bool × Str) :=
  let t := s.dropWhile isSpace
  if (str "true").isPrefixOf t then some (true, t.drop 4)
  else if (str "false").isPrefixOf t then some (false, t.drop 5)
  else none

/-- `std::istream >> b`, and once more with names where the number that was read is no `bool`. -/
def readBool (s : Str) : Option (Bool × Str) :=
  let (neg, t) := takeSign (s.dropWhile isSpace)
  let ds := t.takeWhile isDigit
  let rest := t.dropWhile isDigit
  if ds = [] then readBoolName rest
  else if digitsVal ds = 0 then some (false, rest)
  else if digitsVal ds = 1 ∧ neg = false then some (true, rest)
  else readBoolName rest

def getBool (key : Str) (t : PTree) : Option Bool :=
  (t.getChild key).bind fun c => (readBool c.data).bind atEnd

end PTree

end Lib
