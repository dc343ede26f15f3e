import SemanticLayer.Readers.Toml.Scalar
import SemanticLayer.Settings.Loading

set_option autoImplicit false

/-!
TOML documents. How a table came about decides what may still be added to it: a header opens a table
once, and a key with points goes only into tables that such keys have made.

Every step of a reader takes at least one character, so a budget as large as the text is long is
never used up.
-/
namespace SemanticLayer.Toml

inductive Origin where
  /-- Opened by a header, or the whole document. -/
  | header
  /-- Made on the way to a table with a longer header. -/
  | implied
  /-- Made by a key with points. -/
  | dotted
  deriving DecidableEq

inductive Node where
  | value (name : String) (value : Document)
  | table (name : String) (origin : Origin) (entries : List Node)
  /-- A list of tables, each one a nameless table. -/
  | tables (name : String) (items : List Node)

namespace Node

def name : Node → String
  | value name _ => name
  | table name _ _ => name
  | tables name _ => name

mutual

def toDocument : Node → Document
  | value _ document => document
  | table _ _ entries => .record (toFields entries)
  | tables _ items => .list (toItems items)

def toFields : List Node → List (String × Document)
  | [] => []
  | node :: rest => (node.name, node.toDocument) :: toFields rest

def toItems : List Node → List Document
  | [] => []
  | node :: rest => node.toDocument :: toItems rest

end

/-- Changes the node of a name, which starts as a given one when it is not there yet. -/
def change (name : String) (fresh : Node) (f : Node → Option Node) :
    List Node → Option (List Node)
  | [] => (f fresh).map ([·])
  | node :: rest =>
    if node.name = name then (f node).map (· :: rest)
    else (change name fresh f rest).map (node :: ·)

/-- Changes the entries of the table at the end of a path. Tables that are missing on the way are
made; a key with points does not go through a table that a header has opened. -/
def within (dotted : Bool) (f : Origin → List Node → Option (List Node)) :
    (path : List String) → Origin → List Node → Option (List Node)
  | [], origin, entries => f origin entries
  | name :: path, _, entries =>
    change name (.table name (if dotted then .dotted else .implied) []) (fun
      | .value _ _ => none
      | .table name origin inner =>
        if dotted && origin = .header then none
        else (within dotted f path origin inner).map (.table name origin)
      | .tables name items =>
        match items.getLast? with
        | some (.table item origin inner) =>
          (within dotted f path origin inner).map fun inner =>
            .tables name (items.dropLast ++ [.table item origin inner])
        | _ => none) entries

def addValue (path : List String) (value : Document) (origin : Origin) (entries : List Node) :
    Option (List Node) :=
  match path.getLast? with
  | none => none
  | some last =>
    within true (fun origin entries =>
      if (origin = .dotted) ↔ path.length = 1 then none
      else if entries.any (·.name == last) then none
      else some (entries ++ [.value last value])) path.dropLast origin entries

def openTable (path : List String) (entries : List Node) : Option (List Node) := do
  let last ← path.getLast?
  within false (fun _ entries =>
    change last (.table last .implied []) (fun
      | .table name .implied inner => some (.table name .header inner)
      | _ => none) entries) path.dropLast .header entries

def openItem (path : List String) (entries : List Node) : Option (List Node) := do
  let last ← path.getLast?
  within false (fun _ entries =>
    change last (.tables last []) (fun
      | .tables name items => some (.tables name (items ++ [.table "" .header []]))
      | _ => none) entries) path.dropLast .header entries

end Node

def maxDepth : Nat := 80

def maxKeyParts : Nat := 80

mutual

/-- A value, read where it starts, in which lists and tables go no deeper than a limit. -/
def value : (budget depth : Nat) → Lexer Document
  | 0, _, _ => none
  | budget + 1, depth, s =>
    match depth, s with
    | depth + 1, '[' :: r => do
      let (items, rest) ← listItems budget depth (← skipVoid false r)
      return (.list items, rest)
    | depth + 1, '{' :: r => do
      let (entries, rest) ← inlineEntries budget depth [] (← skipVoid false r)
      return (.record (Node.toFields entries), rest)
    | _, c :: _ =>
      if c = '"' ∨ c = '\'' then
        (quotedText s).map fun (text, rest) => (.text (String.ofList text), rest)
      else scalar s
    | _, [] => none

def listItems : (budget depth : Nat) → Lexer (List Document)
  | 0, _, _ => none
  | _ + 1, _, ']' :: r => some ([], r)
  | budget + 1, depth, s => do
    let (item, rest) ← value budget depth s
    match ← skipVoid false rest with
    | ',' :: rest => do
      let (items, rest) ← listItems budget depth (← skipVoid false rest)
      return (item :: items, rest)
    | ']' :: rest => return ([item], rest)
    | _ => none

/-- The entries of a table in braces, up to the closing one. A comma may stand after the last one,
and ends of lines and comments anywhere between the parts of an entry. -/
def inlineEntries : (budget depth : Nat) → List Node → Lexer (List Node)
  | 0, _, _, _ => none
  | _ + 1, _, entries, '}' :: r => some (entries, r)
  | budget + 1, depth, entries, s => do
    let (path, rest) ← key maxKeyParts s
    let rest ← mark '=' (← skipVoid false rest)
    let (document, rest) ← value budget depth (← skipVoid false rest)
    let entries ← Node.addValue path document .header entries
    match ← skipVoid false rest with
    | ',' :: rest => inlineEntries budget depth entries (← skipVoid false rest)
    | '}' :: rest => return (entries, rest)
    | _ => none

end

/-- Reads the lines of a document into the tables read so far; `current` is the header in force. -/
def expressions : (budget : Nat) → (current : List String) → List Node → List Char →
    Option (List Node)
  | 0, _, _, _ => none
  | budget + 1, current, root, s => do
    match ← skipVoid false s with
    | [] => return root
    | '[' :: '[' :: r =>
      let (path, rest) ← key maxKeyParts r
      let rest ← mark ']' rest
      let rest ← skipLineEnd (← mark ']' rest)
      expressions budget path (← Node.openItem path root) rest
    | '[' :: r =>
      let (path, rest) ← key maxKeyParts r
      let rest ← skipLineEnd (← mark ']' rest)
      expressions budget path (← Node.openTable path root) rest
    | s =>
      let (path, rest) ← key maxKeyParts s
      let (document, rest) ← value budget maxDepth (skipSpaces (← mark '=' rest))
      let rest ← skipLineEnd rest
      expressions budget current
        (← Node.within false (Node.addValue path document) current .header root) rest

/-- The text without a byte order mark. -/
def withoutMark : List Char → List Char
  | c :: r => if c.toNat = 0xFEFF then r else c :: r
  | [] => []

/-- The record that a document writes, if it is well formed. -/
instance : TomlReader where
  read text :=
    let s := withoutMark text.toList
    (expressions (s.length + 1) [] [] s).map fun root => .record (Node.toFields root)

end SemanticLayer.Toml
