import Localview.JsonText
import Localview.SetValueExecution

/-! # Postcondition contracts

The contract references of `postcondition-contracts/src/lib.rs`: text that names what an
action must bring about, in one of four registered schemas.  A reference is the header of
its schema and a compact JSON object.  Each schema has an encoder and a decoder, and the
registry reads the header and asks the decoder of the schema.

JSON is `serde_json`'s: its texts are those of `JsonDoc`, and its reader is any
`JsonReader`.
-/
namespace Localview
open EarlyReturn JsonText

/-! ## References -/

def stripPrefix (lead text : List Char) : Option (List Char) :=
  if lead.isPrefixOf text then some (text.drop lead.length) else none

/-- The text before a character, and what follows it if it is there. -/
def splitOnce (c : Char) (text : List Char) : List Char × Option (List Char) :=
  (text.takeWhile (· ≠ c), (text.dropWhile (· ≠ c)).tail?)

def contractRootPrefix : List Char := "lvpc:".toList
def contractPrefixV1 : List Char := "lvpc:native-semantic:v1:".toList
def contractPrefixV2 : List Char := "lvpc:native-semantic:v2:".toList
def contractFamilyPrefix : List Char := "lvpc:native-semantic:v".toList
def payloadEqualityPrefixV1 : List Char := "lvpc:payload-equality:v1:".toList
def payloadEqualityFamilyPrefix : List Char := "lvpc:payload-equality:v".toList
def webSemanticPrefixV1 : List Char := "lvpc:web-semantic:v1:".toList
def webSemanticFamilyPrefix : List Char := "lvpc:web-semantic:v".toList

/-- A family of contracts and its version. -/
structure PostconditionContractSchema where
  (family version : String)
  deriving DecidableEq

def standardSchemas : List PostconditionContractSchema :=
  [⟨"native-semantic", "1"⟩, ⟨"native-semantic", "2"⟩, ⟨"payload-equality", "1"⟩,
    ⟨"web-semantic", "1"⟩]

/-- Why a native contract is not read. -/
inductive NativeSemanticPostconditionContractError
  | unsupportedVersion (version : String)
  | unsupportedFamily
  | invalidPayload
  | unknownField
  | emptyMatcher
  | nonCanonicalReference
  deriving DecidableEq

/-- Why a payload contract is not read. -/
inductive PayloadEqualityPostconditionContractError
  | unsupportedVersion (version : String)
  | unsupportedFamily
  | invalidPayload
  | unknownField
  | invalidPayloadRef
  | nonCanonicalReference
  deriving DecidableEq

/-- Why a web contract is not read. -/
inductive WebSemanticPostconditionContractError
  | unsupportedVersion (version : String)
  | unsupportedFamily
  | invalidPayload
  | unknownField
  | invalidReference
  | nonCanonicalReference
  deriving DecidableEq

/-- Why a reference names no contract. -/
inductive PostconditionContractRegistryError
  | invalidReference
  | unsupportedFamily (family : String)
  | unsupportedVersion (family version : String)
  | nativeSemanticContract (error : NativeSemanticPostconditionContractError)
  | payloadEqualityContract (error : PayloadEqualityPostconditionContractError)
  | webSemanticContract (error : WebSemanticPostconditionContractError)
  deriving DecidableEq

/-- `parse_registry_header`: the family and the version. -/
def parseRegistryHeader (contractRef : List Char) :
    Except PostconditionContractRegistryError (String × String) := do
  let rest ← okOr (stripPrefix contractRootPrefix contractRef) .invalidReference
  let (family, rest) := splitOnce ':' rest
  rejectIf (family = []) .invalidReference
  let rest ← okOr rest .invalidReference
  let (versionTag, payload) := splitOnce ':' rest
  rejectIf (versionTag.head? ≠ some 'v' ∨ versionTag.length ≤ 1) .invalidReference
  let payload ← okOr payload .invalidReference
  rejectIf (payload = []) .invalidReference
  return (String.ofList family, String.ofList versionTag.tail)

/-- The payload under a schema's header; where there is none, whether the version is
another, or the family. -/
def payloadForVersion {ε : Type} (expected familyLead : List Char)
    (unsupportedVersion : String → ε) (unsupportedFamily : ε) (contractRef : List Char) :
    Except ε (List Char) :=
  match stripPrefix expected contractRef with
  | some payload => .ok payload
  | none =>
      match stripPrefix familyLead contractRef with
      | some rest => .error (unsupportedVersion (String.ofList (splitOnce ':' rest).1))
      | none => .error unsupportedFamily

def contractPayloadForVersion (contractRef expected : List Char) :
    Except NativeSemanticPostconditionContractError (List Char) :=
  payloadForVersion expected contractFamilyPrefix .unsupportedVersion .unsupportedFamily
    contractRef

def payloadEqualityPayloadForVersion (contractRef : List Char) :
    Except PayloadEqualityPostconditionContractError (List Char) :=
  payloadForVersion payloadEqualityPrefixV1 payloadEqualityFamilyPrefix .unsupportedVersion
    .unsupportedFamily contractRef

def webSemanticPayloadForVersion (contractRef : List Char) :
    Except WebSemanticPostconditionContractError (List Char) :=
  payloadForVersion webSemanticPrefixV1 webSemanticFamilyPrefix .unsupportedVersion
    .unsupportedFamily contractRef

/-! ## JSON values -/

def jsonAsObject : Json → Option (List (String × Json))
  | .object members => some members
  | _ => none

def jsonAsStr : Json → Option String
  | .string s => some s
  | _ => none

def jsonAsU64 : Json → Option Nat
  | .number asU64 => asU64
  | _ => none

def optionalString : Option Json →
    Except NativeSemanticPostconditionContractError (Option String)
  | none => .ok none
  | some (.string value) => .ok (some value)
  | some _ => .error .invalidPayload

def optionalBool : Option Json → Except NativeSemanticPostconditionContractError (Option Bool)
  | none => .ok none
  | some (.bool value) => .ok (some value)
  | some _ => .error .invalidPayload

/-- A `Value::Object` of members, as it is written: in key order. -/
def docOfMap (members : List (String × JsonDoc)) : JsonDoc :=
  .obj (OrderedMap.ofList members).entries

/-! ## Matchers -/

/-- `NativeSemanticNodeMatcherV1` and `NativeSemanticNodeMatcherV2`, which have the same
fields. -/
structure NativeSemanticNodeMatcher where
  (role name controlType automationId className : Option String)
  (isEnabled isOffscreen : Option Bool)
  attributes : OrderedMap String String
  deriving DecidableEq

namespace NativeSemanticNodeMatcher

def isEmpty (m : NativeSemanticNodeMatcher) : Bool :=
  m.role.isNone && m.name.isNone && m.controlType.isNone && m.automationId.isNone &&
    m.className.isNone && m.isEnabled.isNone && m.isOffscreen.isNone && m.attributes.entries.isEmpty

/-- A field, if it is there. -/
def optionalField (key : String) (doc : Option JsonDoc) : List (String × JsonDoc) :=
  doc.toList.map (key, ·)

/-- A map of strings as it is written. -/
def attributesDoc (attributes : OrderedMap String String) : JsonDoc :=
  .obj (attributes.entries.map fun e => (e.1, .str e.2))

/-- The fields that are there, in the order they are declared in. -/
def fields (m : NativeSemanticNodeMatcher) : List (String × JsonDoc) :=
  optionalField "role" (m.role.map .str) ++ optionalField "name" (m.name.map .str) ++
    optionalField "control_type" (m.controlType.map .str) ++
    optionalField "automation_id" (m.automationId.map .str) ++
    optionalField "class_name" (m.className.map .str) ++
    optionalField "is_enabled" (m.isEnabled.map .bool) ++
    optionalField "is_offscreen" (m.isOffscreen.map .bool) ++
    optionalField "attributes"
      (if m.attributes.entries.isEmpty then none else some (attributesDoc m.attributes))

/-- `matcher_to_json`, the fields inserted into a map. -/
def toJson (m : NativeSemanticNodeMatcher) : JsonDoc := docOfMap m.fields

/-- `to_canonical_json`, the fields as declared. -/
def toCanonicalJson (m : NativeSemanticNodeMatcher) :
    Except NativeSemanticPostconditionContractError JsonDoc := do
  rejectIf (m.isEmpty) .emptyMatcher
  return .obj m.fields

def allowed : List String :=
  ["role", "name", "control_type", "automation_id", "class_name", "is_enabled", "is_offscreen",
    "attributes"]

/-- The values of attributes, if they all are strings. -/
def attributeValues : List (String × Json) →
    Except NativeSemanticPostconditionContractError (List (String × String))
  | [] => .ok []
  | (key, value) :: rest => do
      let value ← okOr (jsonAsStr value) .invalidPayload
      let rest ← attributeValues rest
      return (key, value) :: rest

/-- The attributes `parse_matcher` collects. -/
def parseAttributes :
    Option Json → Except NativeSemanticPostconditionContractError (List (String × String))
  | none => .ok []
  | some (.object values) => attributeValues values
  | some _ => .error .invalidPayload

def parseMatcher (value : Json) :
    Except NativeSemanticPostconditionContractError NativeSemanticNodeMatcher := do
  let object ← okOr (jsonAsObject value) .invalidPayload
  rejectIf (∃ member ∈ object, member.1 ∉ allowed) .unknownField
  let attributes ← parseAttributes (object.lookup "attributes")
  let role ← optionalString (object.lookup "role")
  let name ← optionalString (object.lookup "name")
  let controlType ← optionalString (object.lookup "control_type")
  let automationId ← optionalString (object.lookup "automation_id")
  let className ← optionalString (object.lookup "class_name")
  let isEnabled ← optionalBool (object.lookup "is_enabled")
  let isOffscreen ← optionalBool (object.lookup "is_offscreen")
  return { role, name, controlType, automationId, className, isEnabled, isOffscreen
           attributes := OrderedMap.ofList attributes }

def fromJson (value : Json) :
    Except NativeSemanticPostconditionContractError NativeSemanticNodeMatcher := do
  let m ← parseMatcher value
  rejectIf (m.isEmpty) .emptyMatcher
  return m

end NativeSemanticNodeMatcher

/-! ## The four schemas -/

/-- `NativeSemanticPostconditionExpectation` and `WebSemanticPostconditionExpectation`. -/
inductive PostconditionExpectation
  | present
  | absent
  deriving DecidableEq

def PostconditionExpectation.asStr : PostconditionExpectation → String
  | .present => "present"
  | .absent => "absent"

/-- `parse`, with the error of the family. -/
def PostconditionExpectation.parse {ε : Type} (invalidPayload : ε) (value : Json) :
    Except ε PostconditionExpectation :=
  if jsonAsStr value = some "present" then .ok .present
  else if jsonAsStr value = some "absent" then .ok .absent
  else .error invalidPayload

/-- Whether a matching node exists. -/
structure NativeSemanticPostconditionContractV1 where
  expectation : PostconditionExpectation
  «matcher» : NativeSemanticNodeMatcher
  deriving DecidableEq

/-- How a count is compared. -/
inductive NativeSemanticCountComparisonV2
  | equal
  | atLeast
  | atMost
  deriving DecidableEq

def NativeSemanticCountComparisonV2.asStr : NativeSemanticCountComparisonV2 → String
  | .equal => "equal"
  | .atLeast => "at_least"
  | .atMost => "at_most"

def NativeSemanticCountComparisonV2.parse (value : Json) :
    Except NativeSemanticPostconditionContractError NativeSemanticCountComparisonV2 :=
  if jsonAsStr value = some "equal" then .ok .equal
  else if jsonAsStr value = some "at_least" then .ok .atLeast
  else if jsonAsStr value = some "at_most" then .ok .atMost
  else .error .invalidPayload

/-- How many nodes match. -/
structure NativeSemanticPostconditionContractV2 where
  comparison : NativeSemanticCountComparisonV2
  count : UInt32
  «matcher» : NativeSemanticNodeMatcher
  deriving DecidableEq

/-- `as_str` of `PayloadEqualityModeV1`, which has the modes of `SetValueMode`. -/
def SetValueMode.asStr : SetValueMode → String
  | .replaceValue => "replace_value"
  | .clearValue => "clear_value"

def SetValueMode.parse (value : Json) :
    Except PayloadEqualityPostconditionContractError SetValueMode :=
  if jsonAsStr value = some "replace_value" then .ok .replaceValue
  else if jsonAsStr value = some "clear_value" then .ok .clearValue
  else .error .invalidPayload

/-- Whether a web element exists. -/
structure WebSemanticPostconditionContractV1 where
  expectation : PostconditionExpectation
  reference : String
  deriving DecidableEq

def isCanonicalUuid (value : String) : Bool :=
  let bytes := value.toUTF8.toList
  bytes.length = 36 && bytes.zipIdx.all fun (byte, index) =>
    if index = 8 ∨ index = 13 ∨ index = 18 ∨ index = 23 then byte = 45
    else (48 ≤ byte && byte ≤ 57) || (97 ≤ byte && byte ≤ 102)

def isAsciiHexdigit (byte : UInt8) : Bool :=
  (48 ≤ byte && byte ≤ 57) || (97 ≤ byte && byte ≤ 102) || (65 ≤ byte && byte ≤ 70)

def validWebReference (reference : String) : Bool :=
  match stripPrefix "@e".toList reference.toList with
  | none => false
  | some rest => !rest.isEmpty && reference.utf8ByteSize ≤ 256 &&
      (String.ofList rest).toUTF8.toList.all isAsciiHexdigit

namespace NativeSemanticPostconditionContractV1

def toContractRef (c : NativeSemanticPostconditionContractV1) :
    Except NativeSemanticPostconditionContractError String := do
  rejectIf (c.matcher.isEmpty) .emptyMatcher
  let payload := docOfMap [("expectation", .str c.expectation.asStr), ("matcher", c.matcher.toJson)]
  return String.ofList (contractPrefixV1 ++ payload.text)

def fromContractRef (json : JsonReader) (contractRef : String) :
    Except NativeSemanticPostconditionContractError NativeSemanticPostconditionContractV1 := do
  let payload ← contractPayloadForVersion contractRef.toList contractPrefixV1
  let value ← okOr (json.fromStr payload) .invalidPayload
  let object ← okOr (jsonAsObject value) .invalidPayload
  rejectIf (object.length ≠ 2 ∨ (object.lookup "expectation").isNone ∨
    (object.lookup "matcher").isNone) .unknownField
  let expectation ← okOr (object.lookup "expectation") .invalidPayload
  let expectation ← PostconditionExpectation.parse .invalidPayload expectation
  let matcherValue ← okOr (object.lookup "matcher") .invalidPayload
  let m ← NativeSemanticNodeMatcher.fromJson matcherValue
  let contract : NativeSemanticPostconditionContractV1 := ⟨expectation, m⟩
  let canonical ← contract.toContractRef
  rejectIf (canonical ≠ contractRef) .nonCanonicalReference
  return contract

end NativeSemanticPostconditionContractV1

namespace NativeSemanticPostconditionContractV2

def toContractRef (c : NativeSemanticPostconditionContractV2) :
    Except NativeSemanticPostconditionContractError String := do
  let m ← c.matcher.toCanonicalJson
  let payload : JsonDoc := .obj [("comparison", .str c.comparison.asStr),
    ("count", .nat c.count.toUInt64), ("matcher", m)]
  return String.ofList (contractPrefixV2 ++ payload.text)

def fromContractRef (json : JsonReader) (contractRef : String) :
    Except NativeSemanticPostconditionContractError NativeSemanticPostconditionContractV2 := do
  let payload ← contractPayloadForVersion contractRef.toList contractPrefixV2
  let value ← okOr (json.fromStr payload) .invalidPayload
  let object ← okOr (jsonAsObject value) .invalidPayload
  rejectIf (object.length ≠ 3 ∨ (object.lookup "comparison").isNone ∨
    (object.lookup "count").isNone ∨ (object.lookup "matcher").isNone) .unknownField
  let count ← okOr (((object.lookup "count").bind jsonAsU64).filter fun n => n < 2 ^ 32)
    .invalidPayload
  let comparison ← okOr (object.lookup "comparison") .invalidPayload
  let comparison ← NativeSemanticCountComparisonV2.parse comparison
  let matcherValue ← okOr (object.lookup "matcher") .invalidPayload
  let m ← NativeSemanticNodeMatcher.fromJson matcherValue
  let contract : NativeSemanticPostconditionContractV2 := ⟨comparison, UInt32.ofNat count, m⟩
  let canonical ← contract.toContractRef
  rejectIf (canonical ≠ contractRef) .nonCanonicalReference
  return contract

end NativeSemanticPostconditionContractV2

namespace PayloadEqualityPostconditionContractV1

def toContractRef (c : PayloadEqualityPostconditionContractV1) :
    Except PayloadEqualityPostconditionContractError String := do
  rejectIf (isCanonicalUuid c.payloadRef = false) .invalidPayloadRef
  let payload : JsonDoc := .obj [("mode", .str c.mode.asStr), ("payload_ref", .str c.payloadRef)]
  return String.ofList (payloadEqualityPrefixV1 ++ payload.text)

def fromContractRef (json : JsonReader) (contractRef : String) :
    Except PayloadEqualityPostconditionContractError PayloadEqualityPostconditionContractV1 := do
  let payload ← payloadEqualityPayloadForVersion contractRef.toList
  let value ← okOr (json.fromStr payload) .invalidPayload
  let object ← okOr (jsonAsObject value) .invalidPayload
  rejectIf (object.length ≠ 2 ∨ (object.lookup "mode").isNone ∨
    (object.lookup "payload_ref").isNone) .unknownField
  let payloadRef ← okOr ((object.lookup "payload_ref").bind jsonAsStr) .invalidPayload
  rejectIf (isCanonicalUuid payloadRef = false) .invalidPayloadRef
  let mode ← okOr (object.lookup "mode") .invalidPayload
  let mode ← SetValueMode.parse mode
  let contract : PayloadEqualityPostconditionContractV1 := ⟨mode, payloadRef⟩
  let canonical ← contract.toContractRef
  rejectIf (canonical ≠ contractRef) .nonCanonicalReference
  return contract

end PayloadEqualityPostconditionContractV1

namespace WebSemanticPostconditionContractV1

def toContractRef (c : WebSemanticPostconditionContractV1) :
    Except WebSemanticPostconditionContractError String := do
  rejectIf (validWebReference c.reference = false) .invalidReference
  let payload : JsonDoc := .obj [("expectation", .str c.expectation.asStr), ("ref", .str c.reference)]
  return String.ofList (webSemanticPrefixV1 ++ payload.text)

def fromContractRef (json : JsonReader) (contractRef : String) :
    Except WebSemanticPostconditionContractError WebSemanticPostconditionContractV1 := do
  let payload ← webSemanticPayloadForVersion contractRef.toList
  let value ← okOr (json.fromStr payload) .invalidPayload
  let object ← okOr (jsonAsObject value) .invalidPayload
  rejectIf (object.length ≠ 2 ∨ (object.lookup "expectation").isNone ∨
    (object.lookup "ref").isNone) .unknownField
  let reference ← okOr ((object.lookup "ref").bind jsonAsStr) .invalidPayload
  let expectation ← okOr (object.lookup "expectation") .invalidPayload
  let expectation ← PostconditionExpectation.parse .invalidPayload expectation
  let contract : WebSemanticPostconditionContractV1 := ⟨expectation, reference⟩
  rejectIf (validWebReference contract.reference = false) .invalidReference
  let canonical ← contract.toContractRef
  rejectIf (canonical ≠ contractRef) .nonCanonicalReference
  return contract

end WebSemanticPostconditionContractV1

/-! ## The registry -/

/-- A contract of a registered schema. -/
inductive RegisteredPostconditionContract
  | nativeSemanticV1 (contract : NativeSemanticPostconditionContractV1)
  | nativeSemanticV2 (contract : NativeSemanticPostconditionContractV2)
  | payloadEqualityV1 (contract : PayloadEqualityPostconditionContractV1)
  | webSemanticV1 (contract : WebSemanticPostconditionContractV1)
  deriving DecidableEq

/-- The decoder of a registered schema; the schemas leave no fifth case. -/
def decodeSchema (json : JsonReader) (contractRef family version : String) :
    Except PostconditionContractRegistryError RegisteredPostconditionContract :=
  if family = "native-semantic" ∧ version = "1" then
    ((NativeSemanticPostconditionContractV1.fromContractRef json contractRef).map
      .nativeSemanticV1).mapError .nativeSemanticContract
  else if family = "native-semantic" ∧ version = "2" then
    ((NativeSemanticPostconditionContractV2.fromContractRef json contractRef).map
      .nativeSemanticV2).mapError .nativeSemanticContract
  else if family = "payload-equality" then
    ((PayloadEqualityPostconditionContractV1.fromContractRef json contractRef).map
      .payloadEqualityV1).mapError .payloadEqualityContract
  else
    ((WebSemanticPostconditionContractV1.fromContractRef json contractRef).map
      .webSemanticV1).mapError .webSemanticContract

/-- `PostconditionContractRegistry::decode` -/
def decodeContractRef (json : JsonReader) (contractRef : String) :
    Except PostconditionContractRegistryError RegisteredPostconditionContract := do
  let (family, version) ← parseRegistryHeader contractRef.toList
  rejectIf (∀ schema ∈ standardSchemas, schema.family ≠ family) (.unsupportedFamily family)
  rejectIf (∀ schema ∈ standardSchemas, ¬ (schema.family = family ∧ schema.version = version))
    (.unsupportedVersion family version)
  decodeSchema json contractRef family version

/-- The reference of a contract, by the `to_contract_ref` of its schema. -/
def RegisteredPostconditionContract.toContractRef :
    RegisteredPostconditionContract → Except PostconditionContractRegistryError String
  | .nativeSemanticV1 contract => contract.toContractRef.mapError .nativeSemanticContract
  | .nativeSemanticV2 contract => contract.toContractRef.mapError .nativeSemanticContract
  | .payloadEqualityV1 contract => contract.toContractRef.mapError .payloadEqualityContract
  | .webSemanticV1 contract => contract.toContractRef.mapError .webSemanticContract

/-- The rules of its schema: a matcher that asks for something, a canonical payload
reference, a web reference. -/
def RegisteredPostconditionContract.Valid : RegisteredPostconditionContract → Prop
  | .nativeSemanticV1 contract => contract.matcher.isEmpty = false
  | .nativeSemanticV2 contract => contract.matcher.isEmpty = false
  | .payloadEqualityV1 contract => isCanonicalUuid contract.payloadRef = true
  | .webSemanticV1 contract => validWebReference contract.reference = true

end Localview
