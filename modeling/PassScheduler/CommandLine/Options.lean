import PassScheduler.Pipeline.Config
import PassScheduler.Text.Pieces

/-!
Contract: what the arguments of a command ask for.

Arguments are taken one after the other. The first one that is wrong refuses the whole, and the
first one that asks for help or for the version settles the matter, unless something before it
was wrong.

Owns:
- the options, their spellings and the form of their values;
- `Invocation.ofArguments`.

Does not own: what is done about a request.
-/

namespace PassScheduler.CommandLine

/-- What a command writes. -/
inductive Emit where
  | ir
  | trace
  | passes
  | dot
  | buildInfo
deriving DecidableEq, Repr

def Emit.ofText? : String → Option Emit
  | "ir" => some .ir
  | "trace" => some .trace
  | "passes" => some .passes
  | "dot" => some .dot
  | "build-info" => some .buildInfo
  | _ => none

/-- The options that were given; what can be given once is absent until it is. -/
structure Options where
  source : Option String := none
  output : Option String := none
  level : Option Level := none
  passes : List String := []
  fixedPoint : Bool := false
  maxIterations : Option UInt64 := none
  config : Option String := none
  emit : Option Emit := none
  verbosity : Nat := 0
deriving DecidableEq, Repr

/-- What the arguments ask for. -/
inductive Invocation where
  | help
  | version
  | refused
  | run (options : Options)
deriving DecidableEq, Repr

/-- The options that take a value. -/
inductive ValueOption where
  | output
  | level
  | passes
  | maxIterations
  | config
  | emit
deriving DecidableEq, Repr

/-- The options that take none. -/
inductive Flag where
  | fixedPoint
  | verbose
  | help
  | version
deriving DecidableEq, Repr

def longOption? : String → Option (ValueOption ⊕ Flag)
  | "output" => some (.inl .output)
  | "opt-level" => some (.inl .level)
  | "passes" => some (.inl .passes)
  | "max-iterations" => some (.inl .maxIterations)
  | "config" => some (.inl .config)
  | "emit" => some (.inl .emit)
  | "fixed-point" => some (.inr .fixedPoint)
  | "verbose" => some (.inr .verbose)
  | "help" => some (.inr .help)
  | "version" => some (.inr .version)
  | _ => none

def shortOption? : Char → Option (ValueOption ⊕ Flag)
  | 'o' => some (.inl .output)
  | 'O' => some (.inl .level)
  | 'v' => some (.inr .verbose)
  | 'h' => some (.inr .help)
  | 'V' => some (.inr .version)
  | _ => none

/-- The number that a row of digits spells; there has to be one. -/
def readDigits? (digits : List Char) : Option Nat :=
  if digits ≠ [] ∧ digits.all Char.isDigit then some (Nat.ofDigitChars 10 digits 0) else none

/-- A number below a bound, after an optional plus sign. -/
def readNatural? (bound : Nat) (text : String) : Option Nat :=
  let digits := match text.toList with
    | '+' :: rest => rest
    | chars => chars
  (readDigits? digits).filter (· < bound)

/-- A level. Zero may also be given with a minus sign. -/
def readLevel? (text : String) : Option Level :=
  match text.toList with
  | '-' :: rest => ((readDigits? rest).filter (· = 0)).map UInt32.ofNat
  | _ => (readNatural? UInt32.size text).map UInt32.ofNat

/-- A path, which is not empty. -/
def readPath? (text : String) : Option String :=
  if text = "" then none else some text

namespace Options

/-- Puts a value in a place that can be filled once. -/
def fill {α : Type} (place value : Option α) (put : α → Options) : Option Options :=
  match place, value with
  | none, some value => some (put value)
  | _, _ => none

/-- The options with the value of one more; `none` if it was given before, or if the value has
the wrong form. -/
def give? (options : Options) (option : ValueOption) (text : String) : Option Options :=
  match option with
  | .output => fill options.output (readPath? text) fun path =>
      { options with output := some path }
  | .level => fill options.level (readLevel? text) fun level =>
      { options with level := some level }
  | .passes => some
      { options with
        passes := options.passes ++ (Text.pieces ',' text.toList).map String.ofList }
  | .maxIterations =>
      fill options.maxIterations ((readNatural? UInt64.size text).map UInt64.ofNat) fun cap =>
        { options with maxIterations := some cap }
  | .config => fill options.config (readPath? text) fun path =>
      { options with config := some path }
  | .emit => fill options.emit (Emit.ofText? text) fun emit =>
      { options with emit := some emit }

/-- The options with an argument that is no option. There can be one. -/
def giveSource? (options : Options) (text : String) : Option Options :=
  fill options.source (readPath? text) fun path => { options with source := some path }

end Options

/-- Where one argument leads: on with more options, on with an option whose value is the next
argument, or to an end. -/
inductive Progress where
  | go (options : Options)
  | awaitValue (options : Options) (option : ValueOption)
  | stop (invocation : Invocation)
deriving DecidableEq, Repr

def Progress.ofOptions? : Option Options → Progress
  | some options => .go options
  | none => .stop .refused

/-- What a flag leads to. Verbosity may be asked for again and again. -/
def raise (options : Options) : Flag → Progress
  | .fixedPoint =>
      if options.fixedPoint then .stop .refused else .go { options with fixedPoint := true }
  | .verbose => .go { options with verbosity := options.verbosity + 1 }
  | .help => .stop .help
  | .version => .stop .version

/-- An argument behind two dashes: a name, with a value behind an equals sign if there is
one. -/
def takeLong (options : Options) (chars : List Char) : Progress :=
  let name := String.ofList (chars.takeWhile (· ≠ '='))
  match longOption? name, chars.dropWhile (· ≠ '=') with
  | some (.inl option), [] => .awaitValue options option
  | some (.inl option), _ :: value =>
      .ofOptions? (options.give? option (String.ofList value))
  | some (.inr flag), [] => raise options flag
  | _, _ => .stop .refused

/-- An argument behind one dash: letters of flags, up to one that takes a value, which is the
rest of the argument, with or without an equals sign, or the next argument. -/
def takeShort (options : Options) : List Char → Progress
  | [] => .go options
  | letter :: rest =>
      match shortOption? letter with
      | none => .stop .refused
      | some (.inl option) =>
          match rest with
          | [] => .awaitValue options option
          | '=' :: value => .ofOptions? (options.give? option (String.ofList value))
          | value => .ofOptions? (options.give? option (String.ofList value))
      | some (.inr flag) =>
          match raise options flag with
          | .go options => takeShort options rest
          | progress => progress

/-- Where an argument leads. A single dash is no option. -/
def take (options : Options) (argument : String) : Progress :=
  match argument.toList with
  | '-' :: '-' :: name => takeLong options name
  | '-' :: letter :: rest => takeShort options (letter :: rest)
  | _ => .ofOptions? (options.giveSource? argument)

/-- Whether an argument can be the value of the option before it. -/
def isValue (argument : String) : Bool :=
  match argument.toList with
  | '-' :: _ :: _ => false
  | _ => true

/-- Takes arguments none of which is an option. -/
def takeSources (options : Options) : List String → Invocation
  | [] => .run options
  | argument :: rest =>
      match options.giveSource? argument with
      | some options => takeSources options rest
      | none => .refused

/-- Takes arguments, the first of them being the value of an option if one awaits it. Two dashes
on their own end the options. -/
def takeAll (options : Options) : Option ValueOption → List String → Invocation
  | none, [] => .run options
  | some _, [] => .refused
  | some option, argument :: rest =>
      if isValue argument then
        match options.give? option argument with
        | some options => takeAll options none rest
        | none => .refused
      else
        .refused
  | none, argument :: rest =>
      if argument = "--" then
        takeSources options rest
      else match take options argument with
      | .go options => takeAll options none rest
      | .awaitValue options option => takeAll options (some option) rest
      | .stop invocation => invocation

def Invocation.ofArguments (arguments : List String) : Invocation :=
  takeAll {} none arguments

end PassScheduler.CommandLine
