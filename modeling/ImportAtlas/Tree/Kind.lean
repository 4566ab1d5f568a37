/-!
# Kinds of tree nodes

The node kinds of the syntax trees of Python 2 programs. Each has a fixed row of fields, and each field
a role that says which nodes it holds.
-/

namespace ImportAtlas

inductive Role where
  | plain
  | node
  | optional
  /-- Nodes and data, in groups of any depth. -/
  | many
  deriving DecidableEq, Repr

inductive Kind where
  | program | block | decorators | function | lambda | classDef | pass | breakLoop | continueLoop
  | ellipsis | forLoop | whileLoop | withBlock | branch | conditional | execute | fromImport
  | importNames | raise | tryFinally | tryExcept | returnValue | yieldValue | const | print
  | printLine | discard | augAssign | assign | assignTuple | assignList | assignName | assignAttr
  | listComp | listCompFor | listCompIf | setComp | dictComp | genExpr | genExprInner
  | genExprFor | genExprIf | list | tuple | set | dict | not | comparison | name | global
  | backquote | attribute | call | keyword | subscript | sliceObject | slice | assertion | or
  | and | bitOr | bitXor | bitAnd | leftShift | rightShift | add | sub | mul | div | mod | power
  | floorDiv | unaryAdd | unarySub | invert
  deriving DecidableEq, Repr

namespace Kind

def roles : Kind → List Role
  | .program | .keyword => [.plain, .node]
  | .block | .decorators | .assignTuple | .assignList | .list | .tuple | .set | .dict
  | .sliceObject | .or | .and | .bitOr | .bitXor | .bitAnd => [.many]
  | .function => [.optional, .plain, .plain, .many, .plain, .plain, .node]
  | .lambda => [.plain, .many, .plain, .node]
  | .classDef => [.plain, .many, .plain, .node, .optional]
  | .pass | .breakLoop | .continueLoop | .ellipsis => []
  | .forLoop => [.node, .node, .node, .optional]
  | .whileLoop => [.node, .node, .optional]
  | .withBlock => [.node, .optional, .node]
  | .branch | .print | .printLine => [.many, .optional]
  | .conditional => [.node, .node, .node]
  | .execute => [.node, .optional, .optional]
  | .fromImport => [.plain, .plain, .plain]
  | .importNames | .const | .name | .global => [.plain]
  | .raise => [.optional, .optional, .optional]
  | .tryFinally | .leftShift | .rightShift | .add | .sub | .mul | .div | .mod | .power
  | .floorDiv => [.node, .node]
  | .tryExcept => [.node, .many, .optional]
  | .returnValue | .yieldValue | .discard | .listCompIf | .genExpr | .genExprIf | .not
  | .backquote | .unaryAdd | .unarySub | .invert => [.node]
  | .augAssign => [.node, .plain, .node]
  | .assign => [.many, .node]
  | .assignName => [.plain, .plain]
  | .assignAttr => [.node, .plain, .plain]
  | .listComp | .setComp | .genExprInner | .comparison => [.node, .many]
  | .listCompFor | .dictComp | .genExprFor => [.node, .node, .many]
  | .attribute => [.node, .plain]
  | .call => [.node, .many, .optional, .optional]
  | .subscript => [.node, .plain, .many]
  | .slice => [.node, .plain, .optional, .optional]
  | .assertion => [.node, .optional]

def label : Kind → String
  | .program => "Module"
  | .block => "Stmt"
  | .decorators => "Decorators"
  | .function => "Function"
  | .lambda => "Lambda"
  | .classDef => "Class"
  | .pass => "Pass"
  | .breakLoop => "Break"
  | .continueLoop => "Continue"
  | .ellipsis => "Ellipsis"
  | .forLoop => "For"
  | .whileLoop => "While"
  | .withBlock => "With"
  | .branch => "If"
  | .conditional => "IfExp"
  | .execute => "Exec"
  | .fromImport => "From"
  | .importNames => "Import"
  | .raise => "Raise"
  | .tryFinally => "TryFinally"
  | .tryExcept => "TryExcept"
  | .returnValue => "Return"
  | .yieldValue => "Yield"
  | .const => "Const"
  | .print => "Print"
  | .printLine => "Printnl"
  | .discard => "Discard"
  | .augAssign => "AugAssign"
  | .assign => "Assign"
  | .assignTuple => "AssTuple"
  | .assignList => "AssList"
  | .assignName => "AssName"
  | .assignAttr => "AssAttr"
  | .listComp => "ListComp"
  | .listCompFor => "ListCompFor"
  | .listCompIf => "ListCompIf"
  | .setComp => "SetComp"
  | .dictComp => "DictComp"
  | .genExpr => "GenExpr"
  | .genExprInner => "GenExprInner"
  | .genExprFor => "GenExprFor"
  | .genExprIf => "GenExprIf"
  | .list => "List"
  | .tuple => "Tuple"
  | .set => "Set"
  | .dict => "Dict"
  | .not => "Not"
  | .comparison => "Compare"
  | .name => "Name"
  | .global => "Global"
  | .backquote => "Backquote"
  | .attribute => "Getattr"
  | .call => "CallFunc"
  | .keyword => "Keyword"
  | .subscript => "Subscript"
  | .sliceObject => "Sliceobj"
  | .slice => "Slice"
  | .assertion => "Assert"
  | .or => "Or"
  | .and => "And"
  | .bitOr => "Bitor"
  | .bitXor => "Bitxor"
  | .bitAnd => "Bitand"
  | .leftShift => "LeftShift"
  | .rightShift => "RightShift"
  | .add => "Add"
  | .sub => "Sub"
  | .mul => "Mul"
  | .div => "Div"
  | .mod => "Mod"
  | .power => "Power"
  | .floorDiv => "FloorDiv"
  | .unaryAdd => "UnaryAdd"
  | .unarySub => "UnarySub"
  | .invert => "Invert"

def all : List Kind :=
  [.program, .block, .decorators, .function, .lambda, .classDef, .pass, .breakLoop,
   .continueLoop, .ellipsis, .forLoop, .whileLoop, .withBlock, .branch, .conditional,
   .execute, .fromImport, .importNames, .raise, .tryFinally, .tryExcept, .returnValue,
   .yieldValue, .const, .print, .printLine, .discard, .augAssign, .assign, .assignTuple,
   .assignList, .assignName, .assignAttr, .listComp, .listCompFor, .listCompIf, .setComp,
   .dictComp, .genExpr, .genExprInner, .genExprFor, .genExprIf, .list, .tuple, .set, .dict,
   .not, .comparison, .name, .global, .backquote, .attribute, .call, .keyword, .subscript,
   .sliceObject, .slice, .assertion, .or, .and, .bitOr, .bitXor, .bitAnd, .leftShift,
   .rightShift, .add, .sub, .mul, .div, .mod, .power, .floorDiv, .unaryAdd, .unarySub,
   .invert]

def ofLabel? (label : String) : Option Kind :=
  all.find? fun k => k.label = label

theorem mem_all (k : Kind) : k ∈ all := by
  cases k <;> decide

end Kind

end ImportAtlas
