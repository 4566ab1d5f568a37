/-!
# Lines

Three ways to cut a text into lines: after every line feed with the line feed kept, at every line
boundary with the boundary dropped, and the pass that makes all newlines line feeds.
-/

namespace ImportAtlas.Text

/-- Carriage returns, alone or before a line feed, become line feeds. -/
def unifyChars : List Char → List Char
  | '\r' :: '\n' :: rest => '\n' :: unifyChars rest
  | '\r' :: rest => '\n' :: unifyChars rest
  | c :: rest => c :: unifyChars rest
  | [] => []

def unifyNewlines (text : String) : String :=
  String.ofList (unifyChars text.toList)

/-- Cut after each line feed; `line` holds the current line backwards. -/
def cutAfterFeeds (line : List Char) : List Char → List String
  | [] => if line.isEmpty then [] else [String.ofList line.reverse]
  | '\n' :: rest => String.ofList ('\n' :: line).reverse :: cutAfterFeeds [] rest
  | c :: rest => cutAfterFeeds (c :: line) rest

/-- The lines of a text with their line feeds. The last one may lack it. -/
def feedLines (text : String) : List String :=
  cutAfterFeeds [] text.toList

def isBoundary (c : Char) : Bool :=
  let n := c.toNat
  (10 ≤ n && n ≤ 13) || (28 ≤ n && n ≤ 30) || n = 0x85 || n = 0x2028 || n = 0x2029

/-- Cut at each boundary, a carriage return before a line feed being one boundary. -/
def cutAtBoundaries (line : List Char) : List Char → List String
  | [] => if line.isEmpty then [] else [String.ofList line.reverse]
  | '\r' :: '\n' :: rest => String.ofList line.reverse :: cutAtBoundaries [] rest
  | c :: rest =>
    if isBoundary c then String.ofList line.reverse :: cutAtBoundaries [] rest
    else cutAtBoundaries (c :: line) rest

def splitLines (text : String) : List String :=
  cutAtBoundaries [] text.toList

end ImportAtlas.Text
