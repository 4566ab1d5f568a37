import ImportAtlas.Printout
import ImportAtlas.Text.Basic
import ImportAtlas.Tree.Basic
import ImportAtlas.Value.Printer

/-!
# Printed trees

A node with nodes below it is printed with one child a line, indented one level deeper; a node with
data alone takes one line. The printout ends at a node whose children cannot be told.
-/

namespace ImportAtlas.Tree

mutual

def inline : Tree → String
  | plain v => v.render
  | node kind _ fields => kind.label ++ "(" ++ ", ".intercalate (inlineAll fields) ++ ")"
  | list items => "[" ++ ", ".intercalate (inlineAll items) ++ "]"
  | tuple [item] => "(" ++ inline item ++ ",)"
  | tuple items => "(" ++ ", ".intercalate (inlineAll items) ++ ")"

def inlineAll : List Tree → List String
  | [] => []
  | t :: ts => inline t :: inlineAll ts

end

def leaf (indent : String) (level : Int) (t : Tree) : Printout :=
  .of (Text.times indent level.toNat ++ inline t)

mutual

def block (indent : String) (level : Int) : Tree → Printout
  | node kind line fields =>
    let margin := Text.times indent level.toNat
    let inside : Printout :=
      match (node kind line fields).children with
      | .error fault => .stopped fault
      | .ok children =>
        if children.any isNode then
          Printout.of "\n" ++ Printout.join ",\n" (fieldBlocks indent (level + 1) kind.roles fields) ++
            Printout.of ("\n" ++ margin)
        else .of (", ".intercalate (children.map inline))
    Printout.of (margin ++ kind.label ++ "(") ++ inside ++ Printout.of ")"
  | t => leaf indent level t

def fieldBlocks (indent : String) (level : Int) : List Role → List Tree → List Printout
  | .many :: roles, t :: fields => memberBlocks indent level t ++ fieldBlocks indent level roles fields
  | _ :: roles, t :: fields => block indent level t :: fieldBlocks indent level roles fields
  | _, _ => []

/-- What a tree yields in the place of a group, each at the given level. -/
def memberBlocks (indent : String) (level : Int) : Tree → List Printout
  | plain v => ((plain v).members.toOption.getD []).map (leaf indent level)
  | node kind _ fields => childBlocks indent level kind.roles fields
  | list items => itemBlocks indent level items
  | tuple items => itemBlocks indent level items

/-- The children of a node that stands in the place of a group, each at the given level. -/
def childBlocks (indent : String) (level : Int) : List Role → List Tree → List Printout
  | .many :: roles, t :: fields => memberBlocks indent level t ++ childBlocks indent level roles fields
  | _ :: roles, list items :: fields => itemBlocks indent level items ++ childBlocks indent level roles fields
  | _ :: roles, tuple items :: fields => itemBlocks indent level items ++ childBlocks indent level roles fields
  | _ :: roles, t :: fields => block indent level t :: childBlocks indent level roles fields
  | _, _ => []

def itemBlocks (indent : String) (level : Int) : List Tree → List Printout
  | [] => []
  | list items :: rest => itemBlocks indent level items ++ itemBlocks indent level rest
  | tuple items :: rest => itemBlocks indent level items ++ itemBlocks indent level rest
  | t :: rest => block indent level t :: itemBlocks indent level rest

end

def printed (indent : String) (level : Int) (t : Tree) : Printout :=
  t.block indent level ++ Printout.of "\n"

end ImportAtlas.Tree
