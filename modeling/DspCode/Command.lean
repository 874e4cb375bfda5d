import DspCode.AddressSpace.Image
import DspCode.Flow.Report
import DspCode.Numeral.Reading
import DspCode.Settings.Reading
import DspCode.Survey

/-!
# Commands

What the command line can be asked for, and the answer to each request as text. Files are given by
their contents.
-/

namespace DspCode

/-- A text file. -/
structure TextFile where
  /-- The path it was read from. -/
  path : String
  /-- What it holds. -/
  content : String
  deriving DecidableEq, Repr

/-- Why a command fails. -/
inductive CommandError where
  /-- The image cannot be loaded. -/
  | load (error : LoadError)
  /-- A file does not hold what it should. -/
  | unreadable (path : String)
  /-- A number is not well formed. -/
  | numeral (error : NumeralError)
  /-- A range ends before it starts. -/
  | endBeforeStart
  /-- Decoding failed for good. -/
  | decode (error : DecodeError)
  deriving DecidableEq, Repr

/-- The wording of a command error. -/
def CommandError.message : CommandError → String
  | .load error => error.message
  | .unreadable path => "parsing " ++ path
  | .numeral error => error.message
  | .endBeforeStart => "end must be >= start"
  | .decode error => error.message

/-- Which bytes to load and where. -/
structure Loading where
  /-- The contents of the file. -/
  file : Array UInt8
  /-- The address of the first byte loaded. -/
  base : Address := 0
  /-- How many bytes to pass over. -/
  skip : Nat := 0
  /-- How many bytes to load, if not all that follow. -/
  length? : Option Nat := none
  /-- The settings, if not the defaults. -/
  settings? : Option TextFile := none

/-- How code is to be walked and reported. -/
structure AnalysisRequest where
  /-- The entries; none stands for the start of the first segment. -/
  entries : List String := []
  /-- How many instructions to visit at most. -/
  limit : Nat := 100000
  /-- Whether the report is in JSON form. -/
  isJson : Bool := false
  /-- Whether a text report lists the visited instructions. -/
  withListing : Bool := false
  /-- Whether lines show bytes. -/
  showBytes : Bool := false
  /-- Labels to start with. -/
  labels? : Option TextFile := none

/-- What to do with a loaded image. -/
inductive Request where
  /-- List the segments. -/
  | sections
  /-- List the code between two addresses. -/
  | range (start stop : String) (showBytes : Bool)
  /-- Walk the code and report on it. -/
  | analyze (request : AnalysisRequest)

/-- The answer to a request. -/
structure Answer where
  /-- The text asked for. -/
  text : String
  /-- The labels of the report in JSON form, if there is one. -/
  labels? : Option String := none
  deriving DecidableEq, Repr

namespace Command

/-- The settings in a file, or the defaults. -/
def readSettings (file? : Option TextFile) : Except CommandError Settings :=
  match file? with
  | none => .ok {}
  | some file =>
    match Settings.read? file.content with
    | some settings => .ok settings
    | none => .error (.unreadable file.path)

/-- The labels in a file. -/
def readLabels (file? : Option TextFile) : Except CommandError (List (Address × String)) :=
  match file? with
  | none => .ok []
  | some file =>
    match Labels.read? file.content with
    | some labels => .ok labels
    | none => .error (.unreadable file.path)

/-- The address in an argument. -/
def readAddress (text : String) : Except CommandError Address :=
  (readUInt32 text).mapError .numeral

/-- A text filled up with blanks to a width. -/
def padded (width : Nat) (text : String) : String := String.ofList (text.toList.rightpad width ' ')

/-- The table of an image's segments. -/
def sectionsText (image : Image) : String :=
  let row (cells : List (Nat × String)) :=
    " ".intercalate (cells.map fun (width, text) => padded width text) ++ "\n"
  let segment (s : Segment) := row [(10, s.name), (0, addressText s.base ++ "  "),
    (0, addressText s.limit ++ "  "), (6, s.permissions), (6, s.kind)]
  row [(10, "name"), (10, "start"), (10, "end"), (6, "perms"), (6, "kind")] ++
    String.join (image.segments.map segment)

/-- The listing between two addresses. -/
def range (settings : Settings) (image : Image) (start stop : String) (showBytes : Bool) :
    Except CommandError Answer := do
  let start ← readAddress start
  let stop ← readAddress stop
  if stop < start then throw .endBeforeStart
  let text ← (Listing.render settings image.space start stop showBytes).mapError .decode
  return { text }

/-- The entries of a walk, in order and each once. -/
def entriesOf (image : Image) (entries : List String) : Except CommandError (List Address) := do
  if entries.isEmpty then
    return (image.segments.head?.map Segment.base).toList
  else
    return (Std.TreeSet.ofList (← entries.mapM readAddress)).toList

/-- The report on a walk. -/
def analyze (settings : Settings) (image : Image) (request : AnalysisRequest) :
    Except CommandError Answer := do
  let entries ← entriesOf image request.entries
  let labels ← readLabels request.labels?
  let report := Report.of settings image.space entries request.limit labels
  let text :=
    if request.isJson then (report.toJson request.showBytes).render ++ "\n"
    else if request.withListing then report.summary ++ report.listing request.showBytes
    else report.summary
  return { text, labels? := some report.labels.toJson.render }

/-- Answers a request about an image. -/
def run (loading : Loading) (request : Request) : Except CommandError Answer := do
  let image ← (Image.load loading.file loading.base loading.skip loading.length?).mapError .load
  let settings ← readSettings loading.settings?
  match request with
  | .sections => return { text := sectionsText image }
  | .range start stop showBytes => range settings image start stop showBytes
  | .analyze request => analyze settings image request

/-- Surveys a file. What was printed before a failure is kept. -/
def survey (file : Array UInt8) (base : Address) (settings? : Option TextFile)
    (withListing : Bool) : String × Except CommandError Unit :=
  match readSettings settings? with
  | .error e => ("", .error e)
  | .ok settings =>
    let survey := Survey.of settings ⟨base, file⟩
    let listing := if withListing then survey.listing else ""
    match survey.failure? with
    | some e => (listing, .error (.decode e))
    | none => (listing ++ survey.summary, .ok ())

end Command

end DspCode
