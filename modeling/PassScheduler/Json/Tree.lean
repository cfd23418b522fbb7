import PassScheduler.Json.Token

/-!
Contract: texts in JavaScript object notation as trees that keep their flaws in place.

Reading never fails. Where the text is flawed, the tree has a flaw at that point: in the place of
a value, or of the end of an array or an object. Whoever takes the tree in the order of the text
meets a flaw exactly when everything before it has been taken, and need not meet one that lies in
a part that is of no interest.

Owns: trees, the machine that builds them from tokens, and the first flaw of a tree.

Does not own: what the values mean.
-/

namespace PassScheduler.Json

/-- How an array or an object ends. -/
inductive Ending where
  | closed
  | broken (flaw : Flaw)
deriving DecidableEq, Repr

inductive Tree where
  | null
  | bool (b : Bool)
  | number (n : Number)
  | string (s : String)
  | array (items : List Tree) (ending : Ending)
  | object (fields : List (String × Tree)) (ending : Ending)
  | broken (flaw : Flaw)

/-- An array or an object that is still open, with what it holds so far. -/
inductive OpenTree where
  | array (items : List Tree)
  | object (fields : List (String × Tree)) (key : String)

/-- The open array or object ended with a last value in it. -/
def OpenTree.close (ending : Ending) (last : Tree) : OpenTree → Tree
  | .array items => .array (items ++ [last]) ending
  | .object fields key => .object (fields ++ [(key, last)]) ending

/-- Where in a text a reader is: what may come next. A value that is complete waits to be put
where it belongs. -/
inductive Stage where
  | value
  | firstItem
  | firstKey
  | nextKey (fields : List (String × Tree))
  | colon (fields : List (String × Tree)) (key : String)
  | complete (tree : Tree)

/-- A whole text: its tree, and whether anything follows the value that the text is. -/
structure Draft where
  root : Tree
  trailing : Bool

/-- How many arrays and objects may be open at a time. -/
def nestingLimit : Nat := 127

/-- The draft of a text that has a flaw behind a value, inside the given open trees. -/
def abandon (flaw : Flaw) (last : Tree) (around : List OpenTree) : Draft :=
  ⟨around.foldl (fun tree outer => outer.close (.broken flaw) tree) last, false⟩

/-- The draft of a text that has a flaw where a value should be. -/
def abandonValue (flaw : Flaw) (around : List OpenTree) : Draft :=
  abandon flaw (.broken flaw) around

/-- A move either goes on at a stage inside some open trees or ends the draft. -/
inductive Move where
  | go (stage : Stage) (around : List OpenTree)
  | stop (draft : Draft)

/-- The move on a token that stands where a value should be. -/
def startValue (around : List OpenTree) : Token → Move
  | .null => .go (.complete .null) around
  | .bool b => .go (.complete (.bool b)) around
  | .number n => .go (.complete (.number n)) around
  | .string s => .go (.complete (.string s)) around
  | .openBracket =>
      if around.length < nestingLimit then .go .firstItem around
      else .stop (abandonValue .malformed around)
  | .openBrace =>
      if around.length < nestingLimit then .go .firstKey around
      else .stop (abandonValue .malformed around)
  | .flawedString flaw | .flawed flaw => .stop (abandonValue flaw around)
  | _ => .stop (abandonValue .malformed around)

/-- The move on a token that stands where a key should be. -/
def readKey (fields : List (String × Tree)) (around : List OpenTree) : Token → Move
  | .string key => .go (.colon fields key) around
  | .flawedString flaw => .stop (abandon flaw (.object fields (.broken flaw)) around)
  | _ => .stop (abandon .malformed (.object fields (.broken .malformed)) around)

/-- The move on a token behind a complete value, which is put into the innermost open tree. -/
def leaveValue (tree : Tree) : List OpenTree → Token → Move
  | [], _ => .stop ⟨tree, true⟩
  | .array items :: around, .comma => .go .value (.array (items ++ [tree]) :: around)
  | .array items :: around, .closeBracket =>
      .go (.complete (.array (items ++ [tree]) .closed)) around
  | .object fields key :: around, .comma => .go (.nextKey (fields ++ [(key, tree)])) around
  | .object fields key :: around, .closeBrace =>
      .go (.complete (.object (fields ++ [(key, tree)]) .closed)) around
  | around, _ => .stop (abandon .malformed tree around)

/-- The move from a stage on a token. -/
def move (stage : Stage) (around : List OpenTree) (token : Token) : Move :=
  match stage, token with
  | .value, token => startValue around token
  | .firstItem, .closeBracket => .go (.complete (.array [] .closed)) around
  | .firstItem, token => startValue (.array [] :: around) token
  | .firstKey, .closeBrace => .go (.complete (.object [] .closed)) around
  | .firstKey, token => readKey [] around token
  | .nextKey fields, token => readKey fields around token
  | .colon fields key, .colon => .go .value (.object fields key :: around)
  | .colon fields key, _ => .stop (abandonValue .malformed (.object fields key :: around))
  | .complete tree, token => leaveValue tree around token

/-- The draft of a text that ends at a stage. -/
def finish (around : List OpenTree) : Stage → Draft
  | .value => abandonValue .truncated around
  | .firstItem => abandon .truncated (.array [] (.broken .truncated)) around
  | .firstKey => abandon .truncated (.object [] (.broken .truncated)) around
  | .nextKey fields => abandon .truncated (.object fields (.broken .truncated)) around
  | .colon fields key => abandonValue .truncated (.object fields key :: around)
  | .complete tree => abandon .truncated tree around

/-- The draft that the rest of a text completes. -/
def build : Stage → List OpenTree → List Token → Draft
  | stage, around, [] => finish around stage
  | stage, around, token :: rest =>
      match move stage around token with
      | .go stage around => build stage around rest
      | .stop draft => draft

/-- The draft of a text. -/
def Draft.ofText (text : String) : Draft :=
  build .value [] (tokens text)

def Ending.flaw? : Ending → Option Flaw
  | .closed => none
  | .broken flaw => some flaw

mutual

/-- The first flaw of a tree in the order of the text. -/
def Tree.flaw? : Tree → Option Flaw
  | .broken flaw => some flaw
  | .array items ending => (itemsFlaw? items).or ending.flaw?
  | .object fields ending => (fieldsFlaw? fields).or ending.flaw?
  | _ => none

def itemsFlaw? : List Tree → Option Flaw
  | [] => none
  | item :: rest => item.flaw?.or (itemsFlaw? rest)

def fieldsFlaw? : List (String × Tree) → Option Flaw
  | [] => none
  | (_, value) :: rest => value.flaw?.or (fieldsFlaw? rest)

end

end PassScheduler.Json
