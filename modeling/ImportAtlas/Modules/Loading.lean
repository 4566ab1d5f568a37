import ImportAtlas.Modules.Code
import ImportAtlas.Modules.Lookup
import ImportAtlas.Value.Printer

/-!
# Loaders

What a module that has been found can be asked for. A package answers with its initial module.

A source is open when it is found, and its text is read in the encoding that it declares. Once it has been read
or run it is closed; if its text is wanted later, it is read as UTF-8. What has been read is kept.
-/

namespace ImportAtlas

/-- A question to a loader. A name must be the loader's own, or none. -/
inductive LoaderCall where
  | file (name : Value)
  | isPackage (name : Value)
  | source (name : Value)
  | code (name : Value)
  | data (path : Value)
  | load (name : Value)

inductive LoaderAnswer where
  | nothing
  | text (s : String)
  | flag (b : Bool)
  | code
  | module (name : String)

namespace LoaderAnswer

def ofText? : Option String → LoaderAnswer
  | some s => text s
  | none => nothing

end LoaderAnswer

structure LoaderState where
  closed : Bool := false
  source : Option String := none
  compiled : Bool := false

abbrev Asking := EStateM Fault LoaderState

namespace Finder

variable (finder : Finder)

def checkName (m : Loader) (name : Value) : Except Fault Unit :=
  if name.isNone || name.same (.str m.name) then .ok ()
  else .error (.loadFailed ("Loader for module " ++ m.name ++ " cannot handle module " ++ name.display))

/-! ## Sources and code -/

def textOf (encoding : Text.Encoding) (path : String) : Except Fault String := do
  return Text.unifyNewlines (← encoding.decode (← finder.files.read path).text)

/-- The source of a module, read for the first time. Compiled code has the one that lies beside it. -/
def readSource (closed : Bool) : Nat → Loader → Except Fault (Option String)
  | 0, _ => .error .tooDeep
  | fuel + 1, m =>
    match m.type, m.file with
    | .package, _ => do readSource false fuel (← finder.initial m)
    | .source, some file => some <$> finder.textOf (if closed then .utf8 else m.encoding) file
    | .compiled, some file =>
      let beside := Text.dropLast file 1
      if finder.files.exists? beside then some <$> finder.textOf .utf8 beside else .ok none
    | _, _ => .ok none

def sourceOf (m : Loader) : Asking (Option String) := do
  let s ← get
  match s.source with
  | some text => return some text
  | none =>
    modify fun s => { s with closed := true }
    let source ← finder.readSource s.closed finder.depth m
    modify fun s => { s with source }
    return source

def hasSource : Nat → Loader → Except Fault Bool
  | 0, _ => .error .tooDeep
  | fuel + 1, m =>
    match m.type with
    | .package => do hasSource fuel (← finder.initial m)
    | type => .ok (type = .source)

/-- Whether there is code for a module, which is then compiled. None of the compiled files can be used. -/
def hasCode (m : Loader) : Asking Bool := do
  if (← get).compiled then return true
  if !(← finder.hasSource finder.depth m) then return false
  let source ← match m.type with
    | .package => finder.readSource false finder.depth m
    | _ => finder.sourceOf m
  let _ ← Code.compile (source.getD "")
  modify fun s => { s with compiled := true }
  return true

/-! ## Loading -/

def badMagic (name text : String) : Fault :=
  .loadFailed ("bad magic number in " ++ Text.quoted name ++ ": " ++ Text.quotedBytes (text.toUTF8.toList.take 4))

def badExtension (path text : String) : Fault :=
  .loadFailed (path ++ ": " ++ if text.utf8ByteSize < 64 then "file too short" else "invalid ELF header")

/-- A source is run in the encoding that it declares. -/
def runSource (text : String) : Except Fault Unit :=
  match declaredEncoding text >>= Text.Encoding.decode text with
  | .ok text => Code.run (Text.unifyNewlines text)
  | .error _ => .error .malformedSource

/-- The modules without a file that are there to be loaded. -/
def native : List String :=
  ["errno", "gc", "marshal", "posix", "pwd", "sys", "time"]

def nameFor (m : Loader) (name : Value) : Except Fault String :=
  match m.type with
  | .source => name.text
  | .compiled => name.text
  | _ => name.onlyText

def load (m : Loader) (name : Value) : Except Fault LoaderAnswer := do
  let name ← nameFor m name
  match m.type, m.file with
  | .source, some file => runSource (← finder.files.read file).text
  | .compiled, some file => throw (badMagic name (← finder.files.read file).text)
  | .extension, some file => throw (badExtension file (← finder.files.read file).text)
  | .package, some dir =>
    let source := Path.join dir "__init__.py"
    if finder.files.exists? source then runSource (← finder.files.read source).text
    else throw (badMagic name (← finder.files.read (Path.join dir "__init__.pyc")).text)
  | _, _ => if name ∉ native then return .nothing
  return .module name

def ask (m : Loader) : LoaderCall → Asking LoaderAnswer
  | .file name => do
    checkName m name
    return .ofText? (← finder.fileOf finder.depth m)
  | .isPackage name => do
    checkName m name
    return .flag (m.type = .package)
  | .source name => do
    checkName m name
    return .ofText? (← finder.sourceOf m)
  | .code name => do
    checkName m name
    return if ← finder.hasCode m then .code else .nothing
  | .data path => do
    return .text (← finder.files.read (← path.onlyText)).text
  | .load name => do
    modify fun s => { s with closed := true }
    finder.load m name

end Finder

end ImportAtlas
