/-!
# Plain text

The few operations on text that the rest of the library is built from. Each goes through the list of
characters, so that the lemmas about lists speak about them.
-/

namespace ImportAtlas.Text

def beginsWith (text start : String) : Bool :=
  start.toList.isPrefixOf text.toList

def endsIn (text tail : String) : Bool :=
  tail.toList.isSuffixOf text.toList

def holds (piece : List Char) : List Char → Bool
  | [] => piece.isEmpty
  | c :: rest => piece.isPrefixOf (c :: rest) || holds piece rest

def dropFirst (text : String) (n : Nat) : String :=
  String.ofList (text.toList.drop n)

def dropLast (text : String) (n : Nat) : String :=
  String.ofList (text.toList.take (text.length - n))

/-- The pieces between the separators; a text without one is its own single piece. -/
def pieces (text : String) (separator : Char) : List String :=
  (text.toList.splitOn separator).map String.ofList

def swap (text : String) (old new : Char) : String :=
  String.ofList (text.toList.map fun c => if c = old then new else c)

def times (text : String) (n : Nat) : String :=
  String.join (List.replicate n text)

def padRight (text : String) (width : Nat) : String :=
  text ++ times " " (width - text.length)

/-- Texts in the order of their characters' code points. -/
def ordered (a b : String) : Bool :=
  decide (¬ b < a)

def sort (texts : List String) : List String :=
  texts.mergeSort ordered

/-- The list without later copies of an element, in order of first occurrence. -/
def distinct (texts : List String) : List String :=
  texts.eraseDups

@[simp] theorem mem_sort {t : String} {texts : List String} : t ∈ sort texts ↔ t ∈ texts :=
  List.mem_mergeSort

@[simp] theorem mem_distinct {t : String} {texts : List String} : t ∈ distinct texts ↔ t ∈ texts :=
  List.mem_eraseDups

theorem beginsWith_iff {text start : String} :
    beginsWith text start = true ↔ start.toList <+: text.toList :=
  List.isPrefixOf_iff_prefix

theorem endsIn_iff {text tail : String} :
    endsIn text tail = true ↔ tail.toList <:+ text.toList :=
  List.isSuffixOf_iff_suffix

end ImportAtlas.Text
