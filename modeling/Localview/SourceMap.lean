import Mathlib.Data.List.DropRight
import Localview.EarlyReturn
import Localview.JsonText
import Localview.Protocol
import Mathlib.Algebra.Group.Int.Defs

/-! # Source maps

`source-map/src/lib.rs`: a version 3 source map is read from JSON, its mappings decoded
segment by segment into absolute positions, and generated positions are looked up in it.

Parsing has two ways to fail: an error that is returned, and a panic, which a step of the
source has where the model has one (`ParseFault.panic`): arithmetic that is not checked,
shifts, and indexing.  `SourceMap.WellFormed` is what every map has that parses: segments
in column order, with sources and names that are there.
-/
namespace Localview
open EarlyReturn

def maxJsonBytes : Nat := 2 * 1024 * 1024
def maxMappingsBytes : Nat := 1024 * 1024
def maxSources : Nat := 4096
def maxNames : Nat := 8192
def maxStringBytes : Nat := 1024
def maxSegments : Nat := 250000
def maxGeneratedLines : Nat := 1000000
def maxColumn : Int := 10000000
def maxOriginalLineZeroBased : Int := 9999999
def i64Max : Int := 9223372036854775807

/-- A place in an original source. -/
structure ResolvedSourceLocation where
  source : String
  (line column : Nat)
  name : Option String
  deriving DecidableEq

/-- Why a source map is refused. -/
inductive SourceMapError
  | jsonTooLarge
  | invalidJson
  | unsupportedVersion (version : Nat)
  | indexedMapUnsupported
  | tooManySources
  | tooManyNames
  | stringTooLong
  | mappingsTooLarge
  | tooManyGeneratedLines
  | tooManySegments
  | emptySegment
  | invalidBase64
  | truncatedVlq
  | integerOverflow
  | invalidSegmentFieldCount (count : Nat)
  | generatedColumnOutOfRange
  | generatedColumnNotMonotonic
  | sourceIndexOutOfRange
  | originalLineOutOfRange
  | originalColumnOutOfRange
  | nameIndexOutOfRange
  deriving DecidableEq

/-- Why a call returns no value. -/
inductive ParseFault
  | error (error : SourceMapError)
  | panic
  deriving DecidableEq

abbrev Parse (α : Type) := Except ParseFault α

/-- What a segment maps to. -/
structure OriginalMapping where
  (sourceIndex line column : Nat)
  nameIndex : Option Nat
  deriving DecidableEq

/-- A column, and what it maps to. -/
structure MappingSegment where
  generatedColumn : Nat
  original : Option OriginalMapping
  deriving DecidableEq

structure SourceMap where
  (sources names : List String)
  lines : List (List MappingSegment)
  deriving DecidableEq

structure RawSourceMap where
  version : Nat
  sourceRoot : Option String
  (sources names : List String)
  mappings : String
  sections : Option JsonText.Json

/-! ## Arithmetic -/

/-- A number is an `i64`. -/
def IsI64 (n : Int) : Prop := -i64Max - 1 ≤ n ∧ n ≤ i64Max

instance (n : Int) : Decidable (IsI64 n) := inferInstanceAs (Decidable (_ ∧ _))

/-- `checked_add` on `i64`, or an overflow error. -/
def checkedAddI64 (a b : Int) : Parse Int := do
  rejectIf (¬IsI64 (a + b)) (.error .integerOverflow)
  return a + b

/-- `checked_add` on `u64` and on a 64-bit `usize`, or an overflow error. -/
def checkedAddU64 (a b : Nat) : Parse Nat := do
  rejectIf (u64Max < a + b) (.error .integerOverflow)
  return a + b

def plainAddI64 (a b : Int) : Parse Int := do
  rejectIf (¬IsI64 (a + b)) .panic
  return a + b

/-- Unary `-` on `i64`. -/
def plainNegI64 (a : Int) : Parse Int := do
  rejectIf (¬IsI64 (-a)) .panic
  return -a

def shiftRightU64 (a shift : Nat) : Parse Nat := do
  rejectIf (64 ≤ shift) .panic
  return a / 2 ^ shift

def shiftLeftU64 (a shift : Nat) : Parse Nat := do
  rejectIf (64 ≤ shift) .panic
  return a * 2 ^ shift % 2 ^ 64

/-- `u32::try_from` on `i64`. -/
def tryFromU32 (n : Int) (error : SourceMapError) : Parse Nat := do
  rejectIf (¬(0 ≤ n ∧ n < 2 ^ 32)) (.error error)
  return n.toNat

def fieldAt (fields : List Int) (index : Nat) : Parse Int := okOr fields[index]? .panic

def asBytes (s : String) : List UInt8 := s.toByteArray.data.toList

/-! ## Base64 VLQ -/

def base64Value (byte : UInt8) : Option Nat :=
  if 65 ≤ byte.toNat ∧ byte.toNat ≤ 90 then some (byte.toNat - 65)
  else if 97 ≤ byte.toNat ∧ byte.toNat ≤ 122 then some (byte.toNat - 97 + 26)
  else if 48 ≤ byte.toNat ∧ byte.toNat ≤ 57 then some (byte.toNat - 48 + 52)
  else if byte.toNat = 43 then some 62
  else if byte.toNat = 47 then some 63
  else none

/-- The payload of a digit put above what has been accumulated.  The test of the shift
comes before the shifts. -/
def accumulateDigit (accumulated shift digit : Nat) : Parse Nat := do
  let payload := digit % 32
  rejectIf (64 ≤ shift) (.error .integerOverflow)
  let limit ← shiftRightU64 u64Max shift
  rejectIf (limit < payload) (.error .integerOverflow)
  let shifted ← shiftLeftU64 payload shift
  checkedAddU64 accumulated shifted

/-- The number that is accumulated, its sign in the lowest bit. -/
def signedValue (accumulated : Nat) : Parse Int := do
  let magnitude : Int := (accumulated / 2 : Nat)
  rejectIf (i64Max < magnitude) (.error .integerOverflow)
  if accumulated % 2 = 1 then plainNegI64 magnitude else return magnitude

/-- The two loops of `decode_vlq_segment`, a byte at a time: the values decoded, and what
the value being read has accumulated at which shift.  Between values both are zero. -/
def decodeVlqFrom (values : List Int) (accumulated shift : Nat) : List UInt8 → Parse (List Int)
  | [] => .ok values
  | byte :: rest => do
      let digit ← okOr (base64Value byte) (.error .invalidBase64)
      let accumulated ← accumulateDigit accumulated shift digit
      if digit < 32 then
        let value ← signedValue accumulated
        decodeVlqFrom (values ++ [value]) 0 0 rest
      else
        -- a value that goes on needs another byte, and a shift below 64 for it
        rejectIf (64 ≤ shift + 5 ∨ rest = []) (.error .truncatedVlq)
        decodeVlqFrom values accumulated (shift + 5) rest

def decodeVlqSegment (segment : List UInt8) : Parse (List Int) := decodeVlqFrom [] 0 0 segment

/-! ## Mappings -/

/-- What the segments before this one leave behind, over all lines. -/
structure MappingState where
  (previousSource previousOriginalLine previousOriginalColumn previousName : Int)
  decodedSegments : Nat

/-- The generated column of a segment, from the one before it in the line. -/
def advanceColumn (previousGeneratedColumn : Int) (fields : List Int) : Parse Int := do
  let delta ← fieldAt fields 0
  let generatedColumn ← checkedAddI64 previousGeneratedColumn delta
  rejectIf (¬(0 ≤ generatedColumn ∧ generatedColumn ≤ maxColumn))
    (.error .generatedColumnOutOfRange)
  rejectIf (generatedColumn < previousGeneratedColumn) (.error .generatedColumnNotMonotonic)
  return generatedColumn

/-- The name of a segment with five fields. -/
def decodeName (nameCount : Nat) (previousName : Int) (fields : List Int) :
    Parse (Option Nat × Int) :=
  if fields.length = 5 then do
    let delta ← fieldAt fields 4
    let name ← checkedAddI64 previousName delta
    rejectIf (name < 0 ∨ nameCount ≤ name.toNat) (.error .nameIndexOutOfRange)
    let index ← tryFromU32 name .nameIndexOutOfRange
    return (some index, name)
  else .ok (none, previousName)

/-- The original position of a segment with more than one field. -/
def decodeOriginal (sourceCount nameCount : Nat) (state : MappingState) (fields : List Int) :
    Parse (Option OriginalMapping × MappingState) :=
  if fields.length = 1 then .ok (none, state)
  else do
    let sourceDelta ← fieldAt fields 1
    let source ← checkedAddI64 state.previousSource sourceDelta
    let lineDelta ← fieldAt fields 2
    let originalLine ← checkedAddI64 state.previousOriginalLine lineDelta
    let columnDelta ← fieldAt fields 3
    let originalColumn ← checkedAddI64 state.previousOriginalColumn columnDelta
    rejectIf (source < 0 ∨ sourceCount ≤ source.toNat) (.error .sourceIndexOutOfRange)
    rejectIf (¬(0 ≤ originalLine ∧ originalLine ≤ maxOriginalLineZeroBased))
      (.error .originalLineOutOfRange)
    rejectIf (¬(0 ≤ originalColumn ∧ originalColumn ≤ maxColumn))
      (.error .originalColumnOutOfRange)
    let name ← decodeName nameCount state.previousName fields
    let sourceIndex ← tryFromU32 source .sourceIndexOutOfRange
    let oneBased ← plainAddI64 originalLine 1
    let line ← tryFromU32 oneBased .originalLineOutOfRange
    let column ← tryFromU32 originalColumn .originalColumnOutOfRange
    return (some { sourceIndex, line, column, nameIndex := name.1 },
      { state with
        previousSource := source
        previousOriginalLine := originalLine
        previousOriginalColumn := originalColumn
        previousName := name.2 })

/-- A segment of a line, the column before it given. -/
def decodeSegment (sourceCount nameCount : Nat) (state : MappingState) (generatedColumn : Int)
    (encodedSegment : List UInt8) : Parse (MappingSegment × Int × MappingState) := do
  rejectIf (encodedSegment = []) (.error .emptySegment)
  let decodedSegments ← checkedAddU64 state.decodedSegments 1
  rejectIf (maxSegments < decodedSegments) (.error .tooManySegments)
  let fields ← decodeVlqSegment encodedSegment
  rejectIf (fields.length ∉ [1, 4, 5]) (.error (.invalidSegmentFieldCount fields.length))
  let column ← advanceColumn generatedColumn fields
  let original ← decodeOriginal sourceCount nameCount { state with decodedSegments } fields
  let generatedColumn ← tryFromU32 column .generatedColumnOutOfRange
  return ({ generatedColumn, original := original.1 }, column, original.2)

/-- The segments of a line. -/
def decodeSegments (sourceCount nameCount : Nat) :
    MappingState → Int → List (List UInt8) → Parse (List MappingSegment × MappingState)
  | state, _, [] => .ok ([], state)
  | state, generatedColumn, encodedSegment :: encodedSegments => do
      let segment ← decodeSegment sourceCount nameCount state generatedColumn encodedSegment
      let rest ← decodeSegments sourceCount nameCount segment.2.2 segment.2.1 encodedSegments
      return (segment.1 :: rest.1, rest.2)

/-- A line; an empty one has no segments. -/
def decodeLine (sourceCount nameCount : Nat) (state : MappingState) (encodedLine : List UInt8) :
    Parse (List MappingSegment × MappingState) :=
  if encodedLine = [] then .ok ([], state)
  else decodeSegments sourceCount nameCount state 0 (encodedLine.splitOn 44)

/-- The lines, so many of them decoded before. -/
def decodeLines (sourceCount nameCount : Nat) :
    Nat → MappingState → List (List UInt8) → Parse (List (List MappingSegment))
  | _, _, [] => .ok []
  | decoded, state, encodedLine :: encodedLines => do
      rejectIf (maxGeneratedLines ≤ decoded) (.error .tooManyGeneratedLines)
      let line ← decodeLine sourceCount nameCount state encodedLine
      let rest ← decodeLines sourceCount nameCount (decoded + 1) line.2 encodedLines
      return line.1 :: rest

/-! ## Source references -/

def stripQueryAndFragment (value : List Char) : List Char :=
  value.takeWhile fun c => c ≠ '?' && c ≠ '#'

def isAsciiAlphabetic (c : Char) : Bool :=
  decide ('a' ≤ c ∧ c ≤ 'z') || decide ('A' ≤ c ∧ c ≤ 'Z')

/-- What may stand in a scheme. -/
def isSchemeChar (c : Char) : Bool :=
  isAsciiAlphabetic c || decide ('0' ≤ c ∧ c ≤ '9') || c == '+' || c == '-' || c == '.'

def isAbsoluteReference (value : List Char) : Bool :=
  let drive := match value with
    | letter :: ':' :: '/' :: _ => isAsciiAlphabetic letter
    | _ => false
  let scheme := value.takeWhile (· ≠ ':')
  value.head? == some '/' || drive ||
    (value.contains ':' && scheme.all isSchemeChar && scheme.head?.any isAsciiAlphabetic)

/-- A text up to and with the first `://`, and what follows. -/
def splitAuthority : List Char → Option (List Char × List Char)
  | [] => none
  | ':' :: '/' :: '/' :: rest => some ([':', '/', '/'], rest)
  | c :: rest => (splitAuthority rest).map fun (lead, rest) => (c :: lead, rest)

def collapseDotComponents (value : List Char) : List Char :=
  let (lead, rest) := (splitAuthority value).getD ([], value)
  let leadingSlashes :=
    if lead = [] ∧ ['/', '/'].isPrefixOf rest then 2
    else if rest.head? = some '/' then 1
    else 0
  let trailingSlash := rest.getLast? = some '/' ∧
    leadingSlashes < (String.ofList rest).utf8ByteSize
  let components := (rest.splitOn '/').filter fun component =>
    component ≠ [] && component ≠ ['.']
  let normalized := lead ++ List.replicate leadingSlashes '/' ++ ['/'].intercalate components
  if trailingSlash ∧ normalized.getLast? ≠ some '/' then normalized ++ ['/'] else normalized

/-- `replace` of backslashes by slashes. -/
def replaceBackslashes (value : List Char) : List Char :=
  value.map fun c => if c = '\\' then '/' else c

/-- The slices are at the positions of ASCII characters, so none of them panics. -/
def normalizeSourceReference (sourceRoot : Option String) (source : String) : String :=
  let source := stripQueryAndFragment (replaceBackslashes source.toList)
  let combined :=
    if isAbsoluteReference source then source
    else match sourceRoot.filter (fun root => root ≠ "") with
      | some root =>
          (stripQueryAndFragment (replaceBackslashes root.toList)).rdropWhile (· = '/') ++
            '/' :: source.dropWhile (· = '/')
      | none => source
  String.ofList (collapseDotComponents combined)

/-! ## Parsing -/

/-- A string longer than it may be. -/
def tooLong (value : String) : Bool := decide (maxStringBytes < value.utf8ByteSize)

def normalizedSources (raw : RawSourceMap) : List String :=
  raw.sources.map (normalizeSourceReference raw.sourceRoot)

/-- The checks on what the JSON holds besides its mappings. -/
def checkRaw (raw : RawSourceMap) : Parse Unit := do
  rejectIf (raw.version ≠ 3) (.error (.unsupportedVersion raw.version))
  rejectIf (raw.sections.isSome) (.error .indexedMapUnsupported)
  rejectIf (maxSources < raw.sources.length) (.error .tooManySources)
  rejectIf (maxNames < raw.names.length) (.error .tooManyNames)
  rejectIf (maxMappingsBytes < raw.mappings.utf8ByteSize) (.error .mappingsTooLarge)
  rejectIf (raw.sourceRoot.any tooLong = true ∨ raw.sources.any tooLong = true ∨
    raw.names.any tooLong = true) (.error .stringTooLong)
  rejectIf ((normalizedSources raw).any tooLong = true) (.error .stringTooLong)

namespace SourceMap

/-- `parse`; `fromStr` is what `serde_json` reads. -/
def parse (fromStr : String → Option RawSourceMap) (json : String) : Parse SourceMap := do
  rejectIf (maxJsonBytes < json.utf8ByteSize) (.error .jsonTooLarge)
  let raw ← okOr (fromStr json) (.error .invalidJson)
  checkRaw raw
  let lines ← decodeLines raw.sources.length raw.names.length 0 ⟨0, 0, 0, 0, 0⟩
    ((asBytes raw.mappings).splitOn 59)
  return { sources := normalizedSources raw, names := raw.names, lines }

variable (map : SourceMap)

def resolveSegment (segment : MappingSegment) : Option ResolvedSourceLocation := do
  let original ← segment.original
  let source ← map.sources[original.sourceIndex]?
  return { source, line := original.line, column := original.column
           name := original.nameIndex.bind fun index => map.names[index]? }

/-- The segments of a line, the first line being 1. -/
def segmentsOf (generatedLine : Nat) : Option (List MappingSegment) :=
  if generatedLine = 0 then none else map.lines[generatedLine - 1]?

def resolve (generatedLine generatedColumn : Nat) : Option ResolvedSourceLocation := do
  let segments ← map.segmentsOf generatedLine
  let segment ← (segments.takeWhile fun segment =>
    segment.generatedColumn ≤ generatedColumn).getLast?
  map.resolveSegment segment

def resolveExact (generatedLine generatedColumn : Nat) : Option ResolvedSourceLocation := do
  let segments ← map.segmentsOf generatedLine
  let segment ← segments.find? fun segment => segment.generatedColumn = generatedColumn
  map.resolveSegment segment

end SourceMap

def MappingSegment.InRange (sourceCount nameCount : Nat) (segment : MappingSegment) : Prop :=
  ∀ original, segment.original = some original →
    original.sourceIndex < sourceCount ∧ ∀ index, original.nameIndex = some index → index < nameCount

/-- Segments stand in column order and refer to what is there. -/
structure SourceMap.WellFormed (map : SourceMap) : Prop where
  sorted : ∀ line ∈ map.lines,
    line.Pairwise fun earlier later => earlier.generatedColumn ≤ later.generatedColumn
  inRange : ∀ line ∈ map.lines, ∀ segment ∈ line,
    segment.InRange map.sources.length map.names.length

end Localview
