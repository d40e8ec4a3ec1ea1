import GuppyScreen.PrintPanel.Cache

/-!
# The list of files (print_panel.cpp)

The table shows one directory of the tree, directories first. `cur_dir` and
`cur_file` point into the tree, so they are paths here. What the panel shows of a
file beside the table, and the buttons, are left out.
-/

namespace GuppyScreen.PrintPanel
open Lib

/-- What `show_dir` reads of a child, under the key of the child. -/
structure Item where
  key : Name
  leaf : Bool
  name : Name
  modified : ℕ
  deriving DecidableEq

/-- What `std::sort` does with a comparison. The order of equal elements is open. -/
structure StdSort where
  sort : (Item → Item → Bool) → List Item → List Item
  perm : ∀ less l, (sort less l).Perm l

inductive SortColumn where
  | modified
  | name
  deriving DecidableEq

inductive ListChange where
  | userAction
  | refetch
  deriving DecidableEq

/-- A row: which of the two symbols it starts with, and the name after it. -/
structure Row where
  dir : Bool
  name : Name
  deriving DecidableEq

structure FileList where
  root : Tree := Tree.root 0
  curDir : List Name := []
  curFile : Option (List Name) := none
  sortColumn : SortColumn := .modified
  sortReversed : Bool := true
  fileTable : List Row := []

namespace FileList

/-! ### The table -/

def parentDir : Name := ['.', '.']

/-- Directories first either way, then the chosen column. -/
def less (column : SortColumn) (reversed : Bool) (x y : Item) : Bool :=
  if x.leaf ≠ y.leaf then !x.leaf
  else
    match column with
    | .modified => if reversed then decide (x.modified > y.modified)
      else decide (y.modified > x.modified)
    | .name => if reversed then decide (x.name > y.name) else decide (y.name > x.name)

def item (c : Name × Tree) : Item := ⟨c.1, Tree.isLeaf c.2, c.2.data.name, c.2.data.dateModified⟩

def childrenOf (t : Tree) (dir : List Name) : List (Name × Tree) :=
  ((t.sub? dir).map Trie.children).getD []

section
variable (std : StdSort) (p : FileList)

def entries : List Item :=
  std.sort (less p.sortColumn p.sortReversed) ((childrenOf p.root p.curDir).map item)

def rows : List Row := ⟨true, parentDir⟩ :: (p.entries std).map fun e => ⟨!e.leaf, e.name⟩

-- A user asking for a different view gets the first file of it.
def firstFile : Option (List Name) :=
  ((p.entries std).find? Item.leaf).map fun e => p.curDir ++ [e.key]

def showDir (why : ListChange) : FileList :=
  if p.fileTable = p.rows std ∧ why = .refetch then p
  else
    { p with
      fileTable := p.rows std
      curFile := if why = .userAction ∨ p.curFile = none then p.firstFile std else p.curFile }

/-! ### Events -/

/-- The selection after a rebuild: a file of this name and full path in the directory. -/
def keptFile (root : Tree) (dir : List Name) (file : Option Info) : Option (List Name) :=
  file.bind fun f =>
    if f.name = [] then none
    else
      (Trie.find? f.name (childrenOf root dir)).bind fun n =>
        if Tree.isLeaf n = true ∧ n.data.fullPath = f.fullPath then some (dir ++ [f.name]) else none

/-- The callback of `subscribe`, up to what it shows of the file. -/
def handleList (list : List Entry) : FileList :=
  let curPath := ((p.root.dataAt p.curDir).map Info.fullPath).getD []
  let file := p.curFile.bind p.root.dataAt
  let root := p.root.rebuild list
  let dir := root.findPath (split curPath)
  { p with
    root := root
    curDir := dir
    curFile := keptFile root dir file }.showDir std .refetch

def getChild (name : Name) : Option (List Name) :=
  (Trie.find? name (childrenOf p.root p.curDir)).map fun _ => p.curDir ++ [name]

/-- `handle_callback` for a cell of this row. -/
def handleCallback (row : ℕ) : FileList :=
  match p.fileTable[row]? with
  | none => p
  | some r =>
    if r.dir then
      if r.name = parentDir then
        if p.curDir = [] then p else { p with curDir := p.curDir.dropLast }.showDir std .userAction
      else
        match p.getChild r.name with
        | none => p
        | some dir => { p with curDir := dir }.showDir std .userAction
    else if p.curFile ≠ p.getChild r.name then { p with curFile := p.getChild r.name }
    else p

/-- A column button: pressed again it reverses the order. -/
def handleSort (column : SortColumn) (natural : Bool) : FileList :=
  { p with
    sortReversed := if p.sortColumn = column then !p.sortReversed else natural
    sortColumn := column }.showDir std .userAction

def modifiedSortBtn : FileList := p.handleSort std .modified true

def azSortBtn : FileList := p.handleSort std .name false

end

end FileList

inductive ListEvent where
  | list (files : List Entry)
  | tap (row : ℕ)
  | modifiedSortBtn
  | azSortBtn

def FileList.step (std : StdSort) (p : FileList) : ListEvent → FileList
  | .list files => p.handleList std files
  | .tap row => p.handleCallback std row
  | .modifiedSortBtn => p.modifiedSortBtn std
  | .azSortBtn => p.azSortBtn std

end GuppyScreen.PrintPanel
