import DspCode.Command

/-!
# Command-line arguments

Reads the words of a command line: the file, options, and what to do. An option's value is the next
word or follows an equals sign.
-/

namespace DspCode

/-- Why a command line cannot be read. -/
inductive UsageError where
  /-- An option has no value. -/
  | missingValue (option : String)
  /-- The value of an option is not of the kind that the option takes. -/
  | badValue (option value : String)
  /-- The action does not know an option. -/
  | unknownOption (option : String)
  /-- The words other than options are not a file and an action. -/
  | unknownAction
  deriving DecidableEq, Repr

/-- The wording of a usage error. -/
def UsageError.message : UsageError → String
  | .missingValue option => "a value is required for '" ++ option ++ "'"
  | .badValue option value => "invalid value '" ++ value ++ "' for '" ++ option ++ "'"
  | .unknownOption option => "unexpected argument '" ++ option ++ "'"
  | .unknownAction => "usage: [OPTIONS] BINFILE sections | range START END | analyze | sweep"

/-- A part of a command line. -/
inductive Argument where
  /-- A word that is no option. -/
  | word (text : String)
  /-- An option without a value. -/
  | switch (name : String)
  /-- An option with its value. -/
  | option (name value : String)
  deriving DecidableEq, Repr

namespace Argument

/-- The options that take a value. -/
def valued : List String :=
  ["--base", "--skip", "--len", "--config", "--out", "--entry", "--max-instr", "--format",
    "--labels-in", "--labels-out"]

/-- Whether a word is an option. -/
def isOption (word : String) : Bool := ['-', '-'].isPrefixOf word.toList

/-- Splits an option from a value after an equals sign. -/
def splitValue (word : String) : List String :=
  let name := word.toList.takeWhile (· != '=')
  if isOption word && name.length < word.length then
    [String.ofList name, String.ofList (word.toList.drop (name.length + 1))]
  else [word]

/-- Reads words. The words after an entry, up to the next option, are entries too. -/
def readWords (inEntries : Bool) : List String → Except UsageError (List Argument)
  | [] => .ok []
  | text :: rest =>
    if !isOption text then
      let argument := if inEntries then .option "--entry" text else .word text
      (argument :: ·) <$> readWords inEntries rest
    else if !valued.contains text then (.switch text :: ·) <$> readWords false rest
    else
      match rest with
      | [] => .error (.missingValue text)
      | value :: rest => (.option text value :: ·) <$> readWords (text == "--entry") rest

/-- Reads the words of a command line. -/
def readAll (words : List String) : Except UsageError (List Argument) :=
  readWords false (words.flatMap splitValue)

end Argument

/-- The arguments of a command line. -/
structure Arguments where
  /-- All arguments in order. -/
  all : List Argument

namespace Arguments

/-- The words that are no options. -/
def words (args : Arguments) : List String :=
  args.all.filterMap fun
    | .word text => some text
    | _ => none

/-- Whether an option without a value is given. -/
def has (args : Arguments) (name : String) : Bool := args.all.contains (.switch name)

/-- All values of an option. -/
def values (args : Arguments) (name : String) : List String :=
  args.all.filterMap fun
    | .option n value => if n = name then some value else none
    | _ => none

/-- The last value of an option. -/
def value? (args : Arguments) (name : String) : Option String := (args.values name).getLast?

/-- The number that an option gives. -/
def number? (args : Arguments) (name : String) : Except UsageError (Option Nat) :=
  match args.value? name with
  | none => .ok none
  | some value =>
    match readUnsigned 10 value.toList with
    | .ok n => .ok (some n)
    | .error _ => .error (.badValue name value)

/-- Checks that all options are among the known ones. -/
def checkOptions (args : Arguments) (known : List String) : Except UsageError Unit :=
  let names := args.all.filterMap fun
    | .word _ => none
    | .switch name => some name
    | .option name _ => some name
  match names.find? (!known.contains ·) with
  | some name => .error (.unknownOption name)
  | none => .ok ()

end Arguments

/-- What a command line asks for. Files are given by their paths. -/
inductive Action where
  /-- List the segments. -/
  | sections
  /-- List the code between two addresses. -/
  | range (start stop : String) (showBytes : Bool)
  /-- Walk the code and report on it. -/
  | analyze (request : AnalysisRequest) (labelsIn? labelsOut? : Option String)
  /-- Survey the whole file. -/
  | sweep (withListing : Bool)

/-- A command line. -/
structure Invocation where
  /-- The path of the file. -/
  input : String
  /-- The address of the first byte. -/
  base : Address
  /-- How many bytes to pass over. -/
  skip : Nat
  /-- How many bytes to load, if not all that follow. -/
  length? : Option Nat
  /-- The path of the settings. -/
  settings? : Option String
  /-- The path of the file to write the text to, if not printed. -/
  out? : Option String
  /-- What is asked for. -/
  action : Action

namespace Invocation

/-- The form of report that the arguments name. -/
def isJson? (args : Arguments) : Except UsageError Bool :=
  match args.value? "--format" with
  | none | some "text" => .ok false
  | some "json" => .ok true
  | some value => .error (.badValue "--format" value)

/-- The action that the words after the file name. -/
def actionOf (args : Arguments) (words : List String) : Except UsageError Action := do
  let common := ["--base", "--skip", "--len", "--config"]
  match words with
  | ["sections"] =>
    args.checkOptions common
    return .sections
  | ["range", start, stop] =>
    args.checkOptions (common ++ ["--show-bytes", "--out"])
    return .range start stop (args.has "--show-bytes")
  | ["analyze"] =>
    args.checkOptions (common ++ ["--entry", "--max-instr", "--format", "--listing",
      "--show-bytes", "--labels-in", "--labels-out", "--out"])
    let request : AnalysisRequest := {
      entries := args.values "--entry"
      limit := (← args.number? "--max-instr").getD 100000
      isJson := ← isJson? args
      withListing := args.has "--listing"
      showBytes := args.has "--show-bytes" }
    return .analyze request (args.value? "--labels-in") (args.value? "--labels-out")
  | ["sweep"] =>
    args.checkOptions ["--base", "--config", "--listing"]
    return .sweep (args.has "--listing")
  | _ => throw .unknownAction

/-- Reads a command line. -/
def read (words : List String) : Except UsageError Invocation := do
  let args : Arguments := ⟨← Argument.readAll words⟩
  match args.words with
  | [] => throw .unknownAction
  | input :: words =>
    return {
      input
      base := UInt32.ofNat ((← args.number? "--base").getD 0)
      skip := (← args.number? "--skip").getD 0
      length? := ← args.number? "--len"
      settings? := args.value? "--config"
      out? := args.value? "--out"
      action := ← actionOf args words }

end Invocation

end DspCode
