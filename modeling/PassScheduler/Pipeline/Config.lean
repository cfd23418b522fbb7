import PassScheduler.Json.Tree
import PassScheduler.Json.Writer
import PassScheduler.Pass.Descriptor
import PassScheduler.Text.Quoted

/-!
Contract: what a run of the pipeline is asked to do, and its text form.

A configuration is an object with up to three fields in any order, or a list of up to three
values; whatever is left out has its default. A text is taken in its own order, and the first
thing that is wrong with it decides the answer.

Owns: configurations, their writing, their reading, and why a text is refused.

Does not own: where the text comes from.
-/

namespace PassScheduler

/-- How the passes are driven: once, or until nothing changes but at most so many times. -/
inductive RunMode where
  | once
  | fixedPoint (maxIterations : UInt64)
deriving DecidableEq, Repr

def defaultLevel : Level := 1

def defaultMaxIterations : UInt64 := 16

/-- Which passes run at which level and how. Without a list of names every pass that takes part
at the level runs. -/
structure PipelineConfig where
  level : Level := defaultLevel
  passes : Option (List String) := none
  mode : RunMode := .once
deriving DecidableEq, Repr

/-- Why a value is refused although its text is in order. -/
inductive DataError where
  | invalidType (found expected : String)
  | invalidValue (found expected : String)
  | unknownField (name : String)
  | duplicateField (name : String)
  | missingField (name : String)
  | unknownVariant (name : String)
  | invalidLength (found : Nat) (expected : String)
deriving DecidableEq, Repr

def DataError.message : DataError → String
  | .invalidType found expected => "invalid type: " ++ found ++ ", expected " ++ expected
  | .invalidValue found expected => "invalid value: " ++ found ++ ", expected " ++ expected
  | .unknownField name =>
      "unknown field `" ++ name ++ "`, expected one of `opt_level`, `passes`, `mode`"
  | .duplicateField name => "duplicate field `" ++ name ++ "`"
  | .missingField name => "missing field `" ++ name ++ "`"
  | .unknownVariant name =>
      "unknown variant `" ++ name ++ "`, expected `once` or `fixed_point`"
  | .invalidLength found expected =>
      "invalid length " ++ found.repr ++ ", expected " ++ expected

/-- Why a text is no configuration. -/
inductive ConfigTextError where
  | flawed (flaw : Json.Flaw)
  | data (error : DataError)
deriving DecidableEq, Repr

def ConfigTextError.message (error : ConfigTextError) : String :=
  "invalid pipeline config: " ++ match error with
    | .flawed .malformed => "the text is malformed"
    | .flawed .truncated => "the text ends too early"
    | .data error => error.message

namespace RunMode

def document : RunMode → Json.Document
  | .once => .object [("kind", .string "once")]
  | .fixedPoint maxIterations =>
      .object
        [("kind", .string "fixed_point"), ("max_iterations", .number maxIterations.toNat)]

end RunMode

namespace PipelineConfig

def document (config : PipelineConfig) : Json.Document :=
  .object
    [("opt_level", .number config.level.toNat),
      ("passes", match config.passes with
        | none => .null
        | some names => .array (names.map .string)),
      ("mode", config.mode.document)]

/-- The configuration in compact form. -/
def json (config : PipelineConfig) : String :=
  Json.compact config.document

end PipelineConfig

namespace ConfigText

open Json

/-- What a reading comes to. -/
abbrev Reading (α : Type) := Except ConfigTextError α

/-- A tree as messages show it. -/
def describe : Tree → String
  | .null => "null"
  | .bool b => "boolean `" ++ boolText b ++ "`"
  | .number n => n.describe
  | .string s => "string " ++ Text.quoted s
  | .array _ _ => "sequence"
  | .object _ _ => "map"
  | .broken _ => ""

/-- The refusal of a tree where something else is expected; a flaw is refused as such. -/
def mismatch {α : Type} (expected : String) : Tree → Reading α
  | .broken flaw => .error (.flawed flaw)
  | tree => .error (.data (.invalidType (describe tree) expected))

/-- Passes at an end that is there. -/
def checkEnding : Ending → Reading Unit
  | .closed => .ok ()
  | .broken flaw => .error (.flawed flaw)

/-- Passes over a part of the text that is in order. -/
def checkFlaw : Option Flaw → Reading Unit
  | none => .ok ()
  | some flaw => .error (.flawed flaw)

/-- A natural number below a bound. -/
def readNatural (bound : Nat) (expected : String) : Tree → Reading Nat
  | .number (.natural n) =>
      if n < bound then .ok n
      else .error (.data (.invalidValue (Number.natural n).describe expected))
  | .number (.negative n) =>
      .error (.data (.invalidValue (Number.negative n).describe expected))
  | tree => mismatch expected tree

def readLevel (tree : Tree) : Reading Level :=
  (readNatural UInt32.size "u32" tree).map UInt32.ofNat

def readMaxIterations (tree : Tree) : Reading UInt64 :=
  (readNatural UInt64.size "usize" tree).map UInt64.ofNat

def readName : Tree → Reading String
  | .string s => .ok s
  | tree => mismatch "a string" tree

def readNames : List Tree → Reading (List String)
  | [] => .ok []
  | item :: rest => do
      let name ← readName item
      let names ← readNames rest
      pure (name :: names)

/-- A list of names, or nothing. -/
def readPasses : Tree → Reading (Option (List String))
  | .null => .ok none
  | .array items ending => do
      let names ← readNames items
      checkEnding ending
      pure (some names)
  | tree => mismatch "a sequence" tree

/-- The kinds of run modes, which a text names before it gives their particulars. -/
inductive ModeKind where
  | once
  | fixedPoint
deriving DecidableEq, Repr

def readModeKind : Tree → Reading ModeKind
  | .string "once" => .ok .once
  | .string "fixed_point" => .ok .fixedPoint
  | .string name => .error (.data (.unknownVariant name))
  | tree => mismatch "variant identifier" tree

/-- The kind among the fields of a mode, and the other fields, which only have to be in order. -/
def splitKind : Option ModeKind → List (String × Tree) →
    Reading (Option ModeKind × List (String × Tree))
  | kind, [] => .ok (kind, [])
  | kind, (key, value) :: rest =>
      if key = "kind" then
        match kind with
        | some _ => .error (.data (.duplicateField key))
        | none => do
            let kind ← readModeKind value
            splitKind (some kind) rest
      else do
        checkFlaw value.flaw?
        let (kind, others) ← splitKind kind rest
        pure (kind, (key, value) :: others)

/-- The cap among the fields of a mode. Fields of other names are of no interest. -/
def capAmong : Option UInt64 → List (String × Tree) → Reading (Option UInt64)
  | cap, [] => .ok cap
  | cap, (key, value) :: rest =>
      if key = "max_iterations" then
        match cap with
        | some _ => .error (.data (.duplicateField key))
        | none => do
            let cap ← readMaxIterations value
            capAmong (some cap) rest
      else
        capAmong cap rest

def modeOfFields (kind : ModeKind) (fields : List (String × Tree)) : Reading RunMode :=
  match kind with
  | .once => .ok .once
  | .fixedPoint => do
      let cap ← capAmong none fields
      pure (.fixedPoint (cap.getD defaultMaxIterations))

/-- The mode of a kind with its particulars given in a list. -/
def modeOfItems (kind : ModeKind) (items : List Tree) : Reading RunMode :=
  match kind, items with
  | .once, [] => .ok .once
  | .once, items => .error (.data (.invalidLength items.length "0 elements in sequence"))
  | .fixedPoint, [] => .ok (.fixedPoint defaultMaxIterations)
  | .fixedPoint, [cap] => (readMaxIterations cap).map .fixedPoint
  | .fixedPoint, cap :: rest => do
      let _ ← readMaxIterations cap
      throw (.data (.invalidLength (rest.length + 1) "1 element in sequence"))

/-- A mode is read to its end before its particulars are looked at. -/
def readMode : Tree → Reading RunMode
  | .object fields ending => do
      let (kind, others) ← splitKind none fields
      checkEnding ending
      match kind with
      | none => throw (.data (.missingField "kind"))
      | some kind => modeOfFields kind others
  | .array [] ending => do
      checkEnding ending
      throw (.data (.missingField "kind"))
  | .array (first :: rest) ending => do
      let kind ← readModeKind first
      checkFlaw (itemsFlaw? rest)
      checkEnding ending
      modeOfItems kind rest
  | tree => mismatch "internally tagged enum RunMode" tree

/-- The fields of a configuration that have been read. -/
structure Partial where
  level : Option Level := none
  passes : Option (Option (List String)) := none
  mode : Option RunMode := none

/-- The configuration with defaults for what is left out. -/
def Partial.complete (read : Partial) : PipelineConfig where
  level := read.level.getD defaultLevel
  passes := read.passes.getD none
  mode := read.mode.getD .once

def readField (read : Partial) (key : String) (value : Tree) : Reading Partial :=
  if key = "opt_level" then
    if read.level.isSome then throw (.data (.duplicateField key))
    else (readLevel value).map fun level => { read with level := some level }
  else if key = "passes" then
    if read.passes.isSome then throw (.data (.duplicateField key))
    else (readPasses value).map fun passes => { read with passes := some passes }
  else if key = "mode" then
    if read.mode.isSome then throw (.data (.duplicateField key))
    else (readMode value).map fun mode => { read with mode := some mode }
  else
    throw (.data (.unknownField key))

def readFields : Partial → List (String × Tree) → Reading Partial
  | read, [] => .ok read
  | read, (key, value) :: rest => do
      let read ← readField read key value
      readFields read rest

/-- The configuration that a list of values gives, with defaults for those that are missing at
its end. -/
def configOfItems (items : List Tree) (ending : Ending) : Reading PipelineConfig :=
  match items with
  | [] => do
      checkEnding ending
      pure {}
  | [level] => do
      let level ← readLevel level
      checkEnding ending
      pure { level }
  | [level, passes] => do
      let level ← readLevel level
      let passes ← readPasses passes
      checkEnding ending
      pure { level, passes }
  | level :: passes :: mode :: rest => do
      let level ← readLevel level
      let passes ← readPasses passes
      let mode ← readMode mode
      if rest.isEmpty then checkEnding ending else throw (.flawed .malformed)
      pure { level, passes, mode }

def readConfig : Tree → Reading PipelineConfig
  | .object fields ending => do
      let read ← readFields {} fields
      checkEnding ending
      pure read.complete
  | .array items ending => configOfItems items ending
  | tree => mismatch "struct PipelineConfig" tree

end ConfigText

/-- The configuration that a text gives. -/
def PipelineConfig.ofJson (text : String) : Except ConfigTextError PipelineConfig := do
  let draft := Json.Draft.ofText text
  let config ← ConfigText.readConfig draft.root
  if draft.trailing then throw (.flawed .malformed) else pure config

end PassScheduler
