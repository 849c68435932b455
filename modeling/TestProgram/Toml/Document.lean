/-
# TestProgram.Toml.Document -- reading a TOML document

A document is a list of lines: `key = value` puts a value into the table at hand, a
header makes another table the one at hand, `[key]` a table and `[[key]]` the next
element of an array of tables.  A key may be dotted, which stands for tables inside
tables.

A table can be named once by a header, and a value once by a key.  Tables that came
into being on the way to another one (`implicit`) may still be named; those that a
dotted key made (`dotted`) can be reached by dotted keys only.  `read?` is the
document as a value, or nothing if it breaks a rule.
-/
import TestProgram.Toml.Number

namespace TestProgram.Toml

set_option autoImplicit false

/-! ## Keys and values -/

/-- How deep arrays and tables may be nested in a value. -/
def maxDepth : Nat := 79

namespace Reader

def isBareKeyChar (c : Char) : Bool :=
  c.isAlphanum || c == '_' || c == '-'

def simpleKey : Reader String := do
  match ← peek with
  | none => failure
  | some c =>
      if c == doubleQuote || c == singleQuote then lineText c
      else do
        let name ← takeWhile isBareKeyChar
        if name.isEmpty then failure else pure (String.ofList name)

def keyTail : Nat → Reader (List String)
  | 0 => pure []
  | fuel + 1 => do
      blanks
      if ← tryTake ['.'] then do
        blanks
        let first ← simpleKey
        let rest ← keyTail fuel
        pure (first :: rest)
      else pure []

/-- The parts of a dotted key, with the blanks around it. -/
def key : Reader (List String × String) := do
  blanks
  let first ← simpleKey
  let rest ← keyTail (← bound)
  let parts := first :: rest
  if maxDepth < parts.length then failure
  else pure (parts.dropLast, parts.getLastD first)

/-- Items up to a closing bracket; a comma may stand behind the last one. -/
def elements {α : Type} (element : Reader α) (close : Char) : Nat → Reader (List α)
  | 0 => failure
  | fuel + 1 => do
      gap
      if ← tryTake [close] then pure []
      else do
        let first ← element
        gap
        if ← tryTake [','] then do
          let rest ← elements element close fuel
          pure (first :: rest)
        else do
          expect close
          pure [first]

/-- Items up to a closing bracket, at least one, all on one line. -/
def members {α : Type} (member : Reader α) (close : Char) : Nat → Reader (List α)
  | 0 => failure
  | fuel + 1 => do
      let first ← member
      blanks
      if ← tryTake [','] then do
        let rest ← members member close fuel
        pure (first :: rest)
      else do
        expect close
        pure [first]

end Reader

/-! ## Inline tables -/

/-- A member of a table between braces while the table is read: a value, or a table that
dotted keys have made. -/
inductive Inline
  | leaf (value : Value)
  | table (entries : List (String × Inline))

/-- The entries with one replaced, or added at the end. -/
def replaceEntry {α : Type} (entries : List (String × α)) (name : String) (held : α) :
    List (String × α) :=
  if entries.any (fun entry => entry.1 == name) then
    entries.map (fun entry => if entry.1 == name then (name, held) else entry)
  else entries ++ [(name, held)]

namespace Inline

/-- Put a value under a dotted key that is free, below tables that dotted keys made. -/
def insert (name : String) (value : Value) :
    List String → List (String × Inline) → Option (List (String × Inline))
  | [], entries =>
      match entries.lookup name with
      | none => some (entries ++ [(name, .leaf value)])
      | some _ => none
  | part :: rest, entries =>
      match entries.lookup part with
      | none => do
          let below ← insert name value rest []
          some (entries ++ [(part, .table below)])
      | some (.table held) => do
          let below ← insert name value rest held
          some (replaceEntry entries part (.table below))
      | some (.leaf _) => none

mutual

def toValue (span : Span) : Inline → Value
  | .leaf value => value
  | .table entries => .table span (toEntries span entries)

def toEntries (span : Span) : List (String × Inline) → List (String × Value)
  | [] => []
  | (name, held) :: rest => (name, toValue span held) :: toEntries span rest

end

/-- The table of some keys and values. -/
def ofMembers (span : Span) (members : List ((List String × String) × Value)) : Option Value := do
  let entries ← members.foldlM (fun entries ((path, name), value) =>
    insert name value path entries) []
  some (.table span (toEntries span entries))

end Inline

namespace Reader

def pair (value : Reader Value) : Reader ((List String × String) × Value) := do
  let path ← key
  blanks
  expect '='
  blanks
  let value ← value
  pure (path, value)

/-- A value that holds no others and starts with this character. -/
def scalar (first : Char) : Reader Value := do
  if first == doubleQuote || first == singleQuote then pure (.text (← text first))
  else do
    let word ← takeWhile Number.isWordChar
    (Number.value? word).elim failure pure

/-- An array of such elements. -/
def array (element : Reader Value) : Reader Value := do
  let start ← offset
  expect '['
  let items ← elements element ']' ((← bound) + 1)
  pure (.array ⟨start, ← offset⟩ items)

/-- A table between braces with such values. -/
def inlineTable (value : Reader Value) : Reader Value := do
  let start ← offset
  expect '\x7b'
  blanks
  let pairs ←
    if ← tryTake ['\x7d'] then pure []
    else members (pair value) '\x7d' ((← bound) + 1)
  (Inline.ofMembers ⟨start, ← offset⟩ pairs).elim failure pure

/-- A value in which others are nested up to a depth. -/
def value : Nat → Reader Value
  | 0 => do scalar (← lookahead)
  | depth + 1 => do
      let first ← lookahead
      if first == '[' then array (value depth)
      else if first == '\x7b' then inlineTable (value depth)
      else scalar first
where
  lookahead : Reader Char := do
    match ← peek with
    | some c => pure c
    | none => failure

end Reader

/-! ## Tables under headers -/

structure TableInfo where
  implicit : Bool := false
  dotted : Bool := false
  span : Span := ⟨0, 0⟩

inductive Node
  | leaf (value : Value)
  | table (info : TableInfo) (entries : List (String × Node))
  /-- An array of tables; the last one is the one that headers lead into. -/
  | tables (elements : List (TableInfo × List (String × Node)))

abbrev Table := TableInfo × List (String × Node)

namespace Table

def set (table : Table) (name : String) (node : Node) : Table :=
  (table.1, replaceEntry table.2 name node)

/-- Change the table at the end of a path.  Missing tables are made; a dotted key does
not lead into a table that a header has named. -/
def change (byDots : Bool) (f : Table → Option Table) : List String → Table → Option Table
  | [], table => f table
  | part :: rest, table =>
      match table.2.lookup part with
      | none => do
          let below ← change byDots f rest ({ implicit := true, dotted := byDots }, [])
          some (table.set part (.table below.1 below.2))
      | some (.leaf _) => none
      | some (.table info entries) =>
          if byDots && !info.implicit then none
          else do
            let below ← change byDots f rest (info, entries)
            some (table.set part (.table below.1 below.2))
      | some (.tables elements) =>
          match elements.getLast? with
          | none => none
          | some last => do
              let below ← change byDots f rest last
              some (table.set part (.tables (elements.dropLast ++ [below])))

/-- Put a value under a name that is free, in a table that dotted keys reach exactly if
they made it. -/
def insertValue (path : List String) (name : String) (value : Value) (table : Table) :
    Option Table :=
  table.change true (fun target =>
    if target.1.dotted == path.isEmpty || (target.2.lookup name).isSome then none
    else some (target.set name (.leaf value))) path

end Table

/-- The document so far: all tables but the one at hand, and that one with its place. -/
structure Draft where
  root : Table := ({}, [])
  current : Table := ({}, [])
  path : Option (List String × String) := none
  inArray : Bool := false

namespace Draft

/-- Put the table at hand in its place. -/
def settle (draft : Draft) : Option Table :=
  match draft.path with
  | none => some draft.current
  | some (path, name) =>
      draft.root.change false (fun parent =>
        if draft.inArray then
          match parent.2.lookup name with
          | some (.tables elements) =>
              some (parent.set name (.tables (elements ++ [draft.current])))
          | some _ => none
          | none => some (parent.set name (.tables [draft.current]))
        else some (parent.set name (.table draft.current.1 draft.current.2))) path

/-- The table that a header `[key]` names, with what it holds already, and its parent
without it. -/
def claim (name : String) (parent : Table) : Option (List (String × Node)) :=
  match parent.2.lookup name with
  | none => some []
  | some (.table info entries) => if info.implicit && !info.dotted then some entries else none
  | some _ => none

def startTable (draft : Draft) (path : List String) (name : String) (span : Span) :
    Option Draft := do
  let root ← draft.settle
  let parent ← find path root
  let entries ← claim name parent
  some { root, current := ({ span }, entries), path := some (path, name) }
where
  /-- The table at the end of a path, empty if there is none yet. -/
  find : List String → Table → Option Table
    | [], table => some table
    | part :: rest, table =>
        match table.2.lookup part with
        | none => some ({}, [])
        | some (.leaf _) => none
        | some (.table info entries) => find rest (info, entries)
        | some (.tables elements) => elements.getLast?.bind (find rest)

def startElement (draft : Draft) (path : List String) (name : String) (span : Span) :
    Option Draft := do
  let root ← draft.settle
  let root ← root.change false (fun parent =>
    match parent.2.lookup name with
    | none => some (parent.set name (.tables []))
    | some (.tables _) => some parent
    | some _ => none) path
  some { root, current := ({ span }, []), path := some (path, name), inArray := true }

def addValue (draft : Draft) (path : List String) (name : String) (value : Value)
    (stop : Nat) : Option Draft := do
  let (info, entries) ← draft.current.insertValue path name value
  some { draft with current := ({ info with span := { info.span with stop } }, entries) }

end Draft

mutual

def Node.toValue : Node → Value
  | .leaf value => value
  | .table info entries => .table info.span (Node.toEntries entries)
  | .tables elements => .array ⟨0, 0⟩ (Node.toElements elements)

def Node.toEntries : List (String × Node) → List (String × Value)
  | [] => []
  | (name, node) :: rest => (name, Node.toValue node) :: Node.toEntries rest

def Node.toElements : List (TableInfo × List (String × Node)) → List Value
  | [] => []
  | (info, entries) :: rest => .table info.span (Node.toEntries entries) :: Node.toElements rest

end

/-! ## Lines -/

namespace Reader

def ofOption {α : Type} (outcome : Option α) : Reader α :=
  outcome.elim failure pure

def header (draft : Draft) : Reader Draft := do
  let start ← offset
  if ← tryTake ['[', '['] then do
    let (path, name) ← key
    blanks
    expect ']'
    expect ']'
    let span : Span := ⟨start, ← offset⟩
    trailing
    ofOption (draft.startElement path name span)
  else do
    expect '['
    let (path, name) ← key
    blanks
    expect ']'
    let span : Span := ⟨start, ← offset⟩
    trailing
    ofOption (draft.startTable path name span)

def assignment (draft : Draft) : Reader Draft := do
  let ((path, name), value) ← pair (value maxDepth)
  let stop ← offset
  trailing
  ofOption (draft.addValue path name value stop)

def lines : Nat → Draft → Reader Draft
  | 0, draft => pure draft
  | fuel + 1, draft => do
      blanks
      match ← peek with
      | none => pure draft
      | some '#' => do
          comment
          lineEnd
          lines fuel draft
      | some '\n' => do
          newline
          lines fuel draft
      | some '\r' => do
          newline
          lines fuel draft
      | some '[' => do
          let draft ← header draft
          lines fuel draft
      | some _ => do
          let draft ← assignment draft
          lines fuel draft

end Reader

/-- The document that a text stands for.  A byte order mark at its start is skipped, and
counts for the offsets. -/
def read? (source : String) : Option Value := do
  let chars := source.toList
  let cursor : Cursor :=
    match chars with
    | '\uFEFF' :: rest => { rest, offset := 3, size := source.utf8ByteSize }
    | _ => { rest := chars, size := source.utf8ByteSize }
  let (draft, _) ← Reader.lines (chars.length + 1) {} cursor
  let root ← draft.settle
  some (Node.toValue (.table root.1 root.2))

end TestProgram.Toml
